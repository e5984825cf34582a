import CardInventory.Allocation
import CardInventory.Proofs.SortedMap
import Mathlib.Data.List.Forall2
import Mathlib.Data.List.Induction

/-
# What is handed out under a name

The units of all cards are gathered under the resource names, card by card. Under a name stand the
units of the cards that have it, in the order of the cards (`Allocation.get?_foldl_addDevice`), and
all names together hold the units of all cards, each once (`Allocation.units_foldl_addDevice`).
-/

namespace CardInventory

/-- The units of the cards with a resource name, if there is such a card. -/
def unitsUnder? (name : String) (devices : List Device) : Option (List AllocatableUnit) :=
  match devices.filter fun device => device.resourceName = name with
  | [] => none
  | cards => some (cards.flatMap Device.allocatableUnits)

/-- One more card adds its units under its name. -/
theorem unitsUnder?_concat (name : String) (devices : List Device) (device : Device) :
    unitsUnder? name (devices ++ [device]) =
      if name = device.resourceName then
        some ((unitsUnder? device.resourceName devices).getD [] ++ device.allocatableUnits)
      else unitsUnder? name devices := by
  unfold unitsUnder?
  rw [List.filter_append]
  split_ifs with h
  · subst h
    cases devices.filter fun d => d.resourceName = device.resourceName <;> simp
  · simp [Ne.symm h]

/-- There are units under the names of the cards. -/
theorem isSome_unitsUnder? {name : String} {devices : List Device} :
    (unitsUnder? name devices).isSome ↔ ∃ device ∈ devices, device.resourceName = name := by
  unfold unitsUnder?
  cases hcards : devices.filter fun device => device.resourceName = name with
  | nil => simpa using hcards
  | cons device rest =>
    have hdevice : device ∈ devices.filter fun device => device.resourceName = name :=
      hcards ▸ List.mem_cons_self
    obtain ⟨hmem, hname⟩ := List.mem_filter.1 hdevice
    exact iff_of_true rfl ⟨device, hmem, of_decide_eq_true hname⟩

namespace Allocation

/-- What a card changes: the units under its name, and no others. -/
theorem get?_addDevice (allocation : Allocation) (device : Device) (name : String) :
    SortedMap.get? (allocation.addDevice device) name =
      if name = device.resourceName then
        some ((SortedMap.get? allocation device.resourceName).getD [] ++ device.allocatableUnits)
      else SortedMap.get? allocation name :=
  SortedMap.get?_update allocation device.resourceName _ name

/-- **Under a name stand the units of the cards that have it.** The induction is on the cards taken
so far. -/
theorem get?_foldl_addDevice (devices : List Device) (name : String) :
    SortedMap.get? (devices.foldl addDevice {}) name = unitsUnder? name devices := by
  induction devices using List.reverseRecOn generalizing name with
  | nil => rfl
  | append_singleton devices device ih =>
    rw [List.foldl_append, List.foldl_cons, List.foldl_nil, get?_addDevice, unitsUnder?_concat, ih,
      ih]

/-- All units, those of one name after those of another. -/
def units (allocation : Allocation) : List AllocatableUnit := allocation.values.flatten

/-- What a card adds to all units. -/
theorem units_addDevice (allocation : Allocation) (device : Device) :
    (allocation.addDevice device).units.Perm (allocation.units ++ device.allocatableUnits) := by
  have hupdate : ((allocation.addDevice device).values.flatMap id).Perm
      (allocation.values.flatMap id ++ device.allocatableUnits) :=
    SortedMap.flatMap_values_update allocation .rfl fun _ => .rfl
  rwa [List.flatMap_id, List.flatMap_id] at hupdate

/-- **All names together hold the units of all cards.** -/
theorem units_foldl_addDevice (devices : List Device) :
    (devices.foldl addDevice {}).units.Perm (devices.flatMap Device.allocatableUnits) := by
  induction devices using List.reverseRecOn with
  | nil => exact .nil
  | append_singleton devices device ih =>
    rw [List.foldl_append, List.foldl_cons, List.foldl_nil, List.flatMap_append,
      List.flatMap_singleton]
    exact (units_addDevice _ device).trans (ih.append_right _)

end Allocation

/-! ## Orders of nodes -/

/-- The same card, but for the order of its nodes. -/
structure Device.SameUpToOrder (d₁ d₂ : Device) : Prop where
  serialNumber : d₁.serialNumber = d₂.serialNumber
  shellVersion : d₁.shellVersion = d₂.shellVersion
  buildTimestamp : d₁.buildTimestamp = d₂.buildTimestamp
  health : d₁.health = d₂.health
  nodes : d₁.nodes.Perm d₂.nodes

/-- The same cards under the same keys, but for the order of the nodes of each. -/
def DeviceMap.SameUpToOrder (m₁ m₂ : DeviceMap) : Prop :=
  List.Forall₂ (fun e₁ e₂ => e₁.1 = e₂.1 ∧ e₁.2.SameUpToOrder e₂.2) m₁.entries m₂.entries

namespace Device.SameUpToOrder

variable {d₁ d₂ : Device}

theorem resourceName_eq (h : d₁.SameUpToOrder d₂) : d₁.resourceName = d₂.resourceName := by
  unfold resourceName
  rw [h.shellVersion, h.buildTimestamp]

/-- The unit of a node says nothing of the other nodes. -/
theorem allocatableUnits_perm (h : d₁.SameUpToOrder d₂) :
    d₁.allocatableUnits.Perm d₂.allocatableUnits := by
  have hunit : d₁.unit = d₂.unit := by
    funext node
    rw [unit, unit, h.serialNumber, h.health]
  rw [allocatableUnits, allocatableUnits, hunit]
  exact h.nodes.map _

end Device.SameUpToOrder

/-- Lists that correspond one for one give the same up to order where their members do. -/
theorem perm_flatMap_of_forall₂ {α β γ : Type} {R : α → β → Prop} {as : List α} {bs : List β}
    {f : α → List γ} {g : β → List γ} (h : List.Forall₂ R as bs)
    (hfg : ∀ a b, R a b → (f a).Perm (g b)) : (as.flatMap f).Perm (bs.flatMap g) := by
  induction h with
  | nil => exact .nil
  | cons hab _ ih =>
    rw [List.flatMap_cons, List.flatMap_cons]
    exact (hfg _ _ hab).append ih

/-- The units under a name do not depend on the order of the nodes. -/
theorem rel_unitsUnder? {name : String} {ds₁ ds₂ : List Device}
    (h : List.Forall₂ Device.SameUpToOrder ds₁ ds₂) :
    Option.Rel List.Perm (unitsUnder? name ds₁) (unitsUnder? name ds₂) := by
  have hcards : List.Forall₂ Device.SameUpToOrder
      (ds₁.filter fun d => d.resourceName = name) (ds₂.filter fun d => d.resourceName = name) :=
    List.rel_filter (fun d₁ d₂ hd => by simp [hd.resourceName_eq]) h
  have hperm := perm_flatMap_of_forall₂ hcards fun _ _ hd => hd.allocatableUnits_perm
  unfold unitsUnder?
  generalize ds₁.filter (fun d => d.resourceName = name) = cards₁ at hcards hperm ⊢
  generalize ds₂.filter (fun d => d.resourceName = name) = cards₂ at hcards hperm ⊢
  cases hcards with
  | nil => exact .none
  | cons _ _ => exact .some hperm

/-- **Inventories whose cards differ in the order of nodes only hand out the same.** -/
theorem Inventory.allocatable_of_sameUpToOrder {i₁ i₂ : Inventory}
    (h : i₁.devices.SameUpToOrder i₂.devices) :
    i₁.allocatable.keys = i₂.allocatable.keys ∧
      ∀ name units₁ units₂, i₁.allocatable.get? name = some units₁ →
        i₂.allocatable.get? name = some units₂ → units₁.Perm units₂ := by
  have hvalues : List.Forall₂ Device.SameUpToOrder i₁.devices.values i₂.devices.values := by
    rw [SortedMap.values, SortedMap.values, List.forall₂_map_left_iff, List.forall₂_map_right_iff]
    exact h.imp fun _ _ he => he.2
  refine SortedMap.keys_eq_of_rel fun name => ?_
  rw [allocatable, allocatable, Allocation.get?_foldl_addDevice, Allocation.get?_foldl_addDevice]
  exact rel_unitsUnder? hvalues

end CardInventory
