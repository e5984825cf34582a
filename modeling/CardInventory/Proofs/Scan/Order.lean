import CardInventory.Proofs.Allocation
import CardInventory.Proofs.Scan.Grouping

/-
# The order of the listing

A scan takes functions in the order of the listing. In another order it finds the same cards with
the same nodes, and leaves the same functions out, in another order. What the first function of a
card fixes, its shell image, does depend on which one is first: only where all functions of a card
agree on the image are the cards the same but for the order of their nodes, and then so is what is
handed out.
-/

namespace CardInventory

/-! ## Cards of the same functions -/

section
variable {functions₁ functions₂ : List IdentifiedFunction} {d₁ d₂ : Device}

/-- The functions of each card agree on the shell image. -/
def AgreeOnImage (functions : List IdentifiedFunction) : Prop :=
  ∀ f ∈ functions, ∀ g ∈ functions, f.identity.serialNumber = g.identity.serialNumber →
    f.identity.shellVersion = g.identity.shellVersion ∧
      f.identity.buildTimestamp = g.identity.buildTimestamp

/-- The functions of a card in another order have the same nodes in another order. -/
theorem Device.nodes_perm (h : functions₁.Perm functions₂)
    (h₁ : ofFunctions? functions₁ = some d₁) (h₂ : ofFunctions? functions₂ = some d₂) :
    d₁.nodes.Perm d₂.nodes := by
  obtain ⟨-, -, rfl⟩ := eq_of_ofFunctions?_eq_some h₁
  obtain ⟨-, -, rfl⟩ := eq_of_ofFunctions?_eq_some h₂
  exact h.map _

/-- Where they agree on the shell image all else is the same. -/
theorem Device.sameUpToOrder {serial : String} (h : functions₁.Perm functions₂)
    (hagree : AgreeOnImage functions₁)
    (h₁ : ofFunctions? (IdentifiedFunction.ofCard serial functions₁) = some d₁)
    (h₂ : ofFunctions? (IdentifiedFunction.ofCard serial functions₂) = some d₂) :
    d₁.SameUpToOrder d₂ := by
  have hnodes := nodes_perm (h.filter _) h₁ h₂
  obtain ⟨first₁, hfirst₁, rfl⟩ := eq_of_ofFunctions?_eq_some h₁
  obtain ⟨first₂, hfirst₂, rfl⟩ := eq_of_ofFunctions?_eq_some h₂
  obtain ⟨hmem₁, hserial₁⟩ := IdentifiedFunction.mem_ofCard.1 (List.mem_of_head? hfirst₁)
  obtain ⟨hmem₂, hserial₂⟩ := IdentifiedFunction.mem_ofCard.1 (List.mem_of_head? hfirst₂)
  have hserial := hserial₁.trans hserial₂.symm
  obtain ⟨hshell, htimestamp⟩ := hagree first₁ hmem₁ first₂ (h.mem_iff.2 hmem₂) hserial
  exact ⟨hserial, hshell, htimestamp, rfl, hnodes⟩

namespace DeviceMap

/-- The keys are the serial numbers of the functions, whatever their order. -/
theorem keys_foldl_addFunction_eq (h : functions₁.Perm functions₂) :
    SortedMap.keys (functions₁.foldl addFunction {}) =
      SortedMap.keys (functions₂.foldl addFunction {}) :=
  SortedMap.keys_eq_of_mem_iff fun serial => by
    rw [SortedMap.mem_keys_iff, SortedMap.mem_keys_iff, get?_foldl_addFunction,
      get?_foldl_addFunction, Device.exists_ofFunctions?_ofCard, Device.exists_ofFunctions?_ofCard]
    exact exists_congr fun f => and_congr_left fun _ => h.mem_iff

/-- Functions that agree on the shell images make up the same cards in any order. -/
theorem sameUpToOrder_foldl_addFunction (h : functions₁.Perm functions₂)
    (hagree : AgreeOnImage functions₁) :
    SameUpToOrder (functions₁.foldl addFunction {}) (functions₂.foldl addFunction {}) := by
  refine SortedMap.forall₂_entries (keys_foldl_addFunction_eq h) fun serial d₁ d₂ h₁ h₂ => ?_
  rw [get?_foldl_addFunction] at h₁ h₂
  exact Device.sameUpToOrder h hagree h₁ h₂

end DeviceMap
end

/-! ## Readers that list in another order -/

section
variable {r₁ r₂ : Reader} {layout : Layout}

/-- Examining a function, a reader is not asked to list anything. -/
theorem examine_eq_of_same_answers (layout : Layout) (hread : r₁.read = r₂.read)
    (hpresent : r₁.present = r₂.present) (hfind : r₁.find = r₂.find) :
    examine r₁ layout = examine r₂ layout := by
  obtain ⟨read₁, list₁, present₁, find₁⟩ := r₁
  obtain ⟨read₂, list₂, present₂, find₂⟩ := r₂
  subst hread hpresent hfind
  rfl

/-- **The order of the listing does not change what is found.** Two readers answer alike, but list
the functions in two orders. The scans have the same cards, each with the same nodes, and the same
functions are left out, in another order. Where the functions of each card agree on its shell
image the cards are the same but for the order of their nodes, and inventories of them hand out the
same units under the same names. -/
theorem scan_of_perm {ids₁ ids₂ : List String} (hread : r₁.read = r₂.read)
    (hpresent : r₁.present = r₂.present) (hfind : r₁.find = r₂.find)
    (hlist₁ : r₁.list layout.functions = .ok ids₁) (hlist₂ : r₂.list layout.functions = .ok ids₂)
    (hperm : ids₁.Perm ids₂) :
    ∃ outcome₁ outcome₂, (scan r₁ layout).result = .ok outcome₁ ∧
      (scan r₂ layout).result = .ok outcome₂ ∧
      outcome₁.devices.keys = outcome₂.devices.keys ∧
      (∀ serial d₁ d₂, outcome₁.devices.get? serial = some d₁ →
        outcome₂.devices.get? serial = some d₂ → d₁.nodes.Perm d₂.nodes) ∧
      outcome₁.skipped.Perm outcome₂.skipped ∧
      (AgreeOnImage (identifiedFunctions r₁ layout ids₁) →
        DeviceMap.SameUpToOrder outcome₁.devices outcome₂.devices ∧
        ∀ i₁ i₂ : Inventory, i₁.devices = outcome₁.devices → i₂.devices = outcome₂.devices →
          i₁.allocatable.keys = i₂.allocatable.keys ∧
          ∀ name units₁ units₂, i₁.allocatable.get? name = some units₁ →
            i₂.allocatable.get? name = some units₂ → units₁.Perm units₂) := by
  have hexamine := examine_eq_of_same_answers layout hread hpresent hfind
  have hfunctions : (identifiedFunctions r₁ layout ids₁).Perm
      (identifiedFunctions r₂ layout ids₂) := by
    unfold identifiedFunctions
    rw [hexamine]
    exact hperm.filterMap _
  have hleftOut : (leftOutFunctions r₁ layout ids₁).Perm (leftOutFunctions r₂ layout ids₂) := by
    unfold leftOutFunctions
    rw [hexamine]
    exact hperm.filterMap _
  refine ⟨_, _, scan_of_list r₁ layout hlist₁, scan_of_list r₂ layout hlist₂, ?_, ?_, ?_,
    fun hagree => ?_⟩
  · rw [devices_ofListed, devices_ofListed]
    exact DeviceMap.keys_foldl_addFunction_eq hfunctions
  · intro serial d₁ d₂ h₁ h₂
    rw [devices_ofListed, DeviceMap.get?_foldl_addFunction] at h₁ h₂
    exact Device.nodes_perm (hfunctions.filter _) h₁ h₂
  · rwa [skipped_ofListed, skipped_ofListed]
  · have hsame := DeviceMap.sameUpToOrder_foldl_addFunction hfunctions hagree
    rw [← devices_ofListed, ← devices_ofListed] at hsame
    refine ⟨hsame, fun i₁ i₂ hi₁ hi₂ => Inventory.allocatable_of_sameUpToOrder ?_⟩
    rwa [hi₁, hi₂]

end

/-- Two functions of one card, and one without a role between them. -/
def sampleHost : MemoryTree :=
  let first := ({} : MemoryTree).addCardFunction ⟨"/d/a"⟩ "S" "v1"
  (first.addFile ⟨"/d/b/vendor"⟩ "0x10ee").addCardFunction ⟨"/d/c"⟩ "S" "v1"

/-- The sample, its functions listed backwards. -/
def sampleBackwards : Reader :=
  { sampleHost.reader with
    list := fun dir => if dir = "/d" then .ok ["c", "b", "a"] else sampleHost.reader.list dir }

/-- What a scan of the sample finds: the cards, the addresses of their nodes, the units that are
handed out, and the functions that are left out. -/
def sampleFindings (reader : Reader) :
    Option (List String × List (List String) × List (List String) × List String) :=
  (scan reader (.withRoot "/d")).result.toOption.map fun outcome =>
    (outcome.devices.keys, outcome.devices.values.map fun device => device.nodes.map Node.address,
      outcome.devices.values.map fun device => device.allocatableUnits.map AllocatableUnit.id,
      outcome.skipped.map SkippedFunction.id)

/-- The card of the sample is found either way. It has the same nodes, in the order of the listing,
and its units are handed out as before, in that order. -/
theorem scan_of_perm_sample :
    sampleFindings sampleHost.reader = some (["S"], [["a", "c"]], [["S-a", "S-c"]], ["b"]) ∧
      sampleFindings sampleBackwards = some (["S"], [["c", "a"]], [["S-c", "S-a"]], ["b"]) ∧
      AgreeOnImage (identifiedFunctions sampleHost.reader (.withRoot "/d") ["a", "b", "c"]) ∧
      ∃ outcome₁ outcome₂, (scan sampleHost.reader (.withRoot "/d")).result = .ok outcome₁ ∧
        (scan sampleBackwards (.withRoot "/d")).result = .ok outcome₂ ∧
        DeviceMap.SameUpToOrder outcome₁.devices outcome₂.devices := by
  have hidentity : (identifiedFunctions sampleHost.reader (.withRoot "/d") ["a", "b", "c"]).map
      IdentifiedFunction.identity = [⟨"S", "v1", "0x5"⟩, ⟨"S", "v1", "0x5"⟩] := by decide +kernel
  have hone : ∀ f ∈ identifiedFunctions sampleHost.reader (.withRoot "/d") ["a", "b", "c"],
      f.identity = ⟨"S", "v1", "0x5"⟩ := fun f hf => by
    have hmem := List.mem_map_of_mem (f := IdentifiedFunction.identity) hf
    rw [hidentity] at hmem
    simpa using hmem
  have hagree : AgreeOnImage
      (identifiedFunctions sampleHost.reader (.withRoot "/d") ["a", "b", "c"]) :=
    fun f hf g hg _ => by rw [hone f hf, hone g hg]; exact ⟨rfl, rfl⟩
  have hlist : sampleHost.reader.list (Layout.withRoot "/d").functions = .ok ["a", "b", "c"] := by
    decide +kernel
  have hbackwards : sampleBackwards.list (Layout.withRoot "/d").functions =
      .ok ["c", "b", "a"] := by decide +kernel
  have hread : sampleHost.reader.read = sampleBackwards.read := rfl
  obtain ⟨outcome₁, outcome₂, hscan₁, hscan₂, -, -, -, hsame⟩ :=
    scan_of_perm hread rfl rfl hlist hbackwards (by decide)
  exact ⟨by decide +kernel, by decide +kernel, hagree, outcome₁, outcome₂, hscan₁, hscan₂,
    (hsame hagree).1⟩

end CardInventory
