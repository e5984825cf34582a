import CardInventory.Proofs.Allocation
import CardInventory.Proofs.Files.Locality
import CardInventory.Proofs.Pci.Codec
import CardInventory.Proofs.Scan.Grouping

/-
# No unit is handed out twice

The id of a unit is a serial number, which may be any text, and an address with a hyphen between
them. No address has a hyphen, so that an id is cut at its last one (`Device.id_unit_inj`). Each
listed function gives at most one node, which has the name of the function for its address. So
where no function is listed twice and the names are addresses, no two units have the same id,
whatever the serial numbers and the resource names are.
-/

namespace CardInventory

/-! ## Ids -/

theorem PciAddress.hyphen_notMem_of_parse_eq_ok {s : String} {a : PciAddress}
    (h : parse s = .ok a) : '-' ∉ s.toList := by
  have hhyphen : Text.Hex.value? '-' = none := by decide
  intro hmem
  obtain hc | hc | ⟨d, hd⟩ := mem_of_parse_eq_ok h hmem
  · exact absurd hc (by decide)
  · exact absurd hc (by decide)
  · rw [hhyphen] at hd
    cases hd

/-- **The id of a unit tells the card and the address of its node.** -/
theorem Device.id_unit_inj {d₁ d₂ : Device} {n₁ n₂ : Node}
    (h₁ : '-' ∉ n₁.address.toList) (h₂ : '-' ∉ n₂.address.toList)
    (h : (d₁.unit n₁).id = (d₂.unit n₂).id) :
    d₁.serialNumber = d₂.serialNumber ∧ n₁.address = n₂.address := by
  have hchars := congrArg String.toList h
  simp only [unit, String.toList_append, List.append_assoc] at hchars
  have hparts := append_cons_inj_of_notMem_right h₁ h₂ hchars
  exact ⟨String.toList_inj.1 hparts.1, String.toList_inj.1 hparts.2⟩

/-! ## Nodes with their cards -/

namespace DeviceMap

/-- The nodes of all cards, each with its card. -/
def pairs (devices : DeviceMap) : List (Device × Node) :=
  devices.values.flatMap fun device => device.nodes.map fun node => (device, node)

theorem mem_pairs {devices : DeviceMap} {device : Device} {node : Node} :
    (device, node) ∈ devices.pairs ↔ device ∈ devices.values ∧ node ∈ device.nodes := by
  simp only [pairs, List.mem_flatMap, List.mem_map, Prod.mk.injEq]
  constructor
  · rintro ⟨d, hd, n, hn, rfl, rfl⟩
    exact ⟨hd, hn⟩
  · rintro ⟨hd, hn⟩
    exact ⟨device, hd, node, hn, rfl, rfl⟩

theorem map_snd_pairs (devices : DeviceMap) :
    devices.pairs.map Prod.snd = devices.values.flatMap Device.nodes := by
  simp [pairs, List.map_flatMap, Function.comp_def]

theorem length_pairs (devices : DeviceMap) : devices.pairs.length = devices.nodeCount := by
  rw [nodeCount_eq_length, ← map_snd_pairs, List.length_map]

/-- **The units handed out are those of the nodes.** -/
theorem units_allocatable_perm (inventory : Inventory) :
    inventory.allocatable.units.Perm (inventory.devices.pairs.map fun p => p.1.unit p.2) := by
  have hunits : inventory.devices.pairs.map (fun p => p.1.unit p.2) =
      inventory.devices.values.flatMap Device.allocatableUnits := by
    simp only [pairs, List.map_flatMap, List.map_map]
    rfl
  rw [hunits]
  exact Allocation.units_foldl_addDevice _

end DeviceMap

/-- What has no two members of one kind has none of a finer one. -/
theorem nodup_map_of_inj {α β γ : Type} {f : α → β} {g : α → γ} {as : List α}
    (h : (as.map f).Nodup) (hfg : ∀ a ∈ as, ∀ b ∈ as, g a = g b → f a = f b) :
    (as.map g).Nodup := by
  unfold List.Nodup at h ⊢
  rw [List.pairwise_map] at h ⊢
  exact h.imp_of_mem fun ha hb hne heq => hne (hfg _ ha _ hb heq)

/-! ## Addresses of nodes -/

section
variable (reader : Reader) (layout : Layout)

/-- The node of a function has the name of the function for its address. -/
theorem address_of_examine {id : String} {f : IdentifiedFunction}
    (h : (examine reader layout id).result = .ok f) : f.node.address = id := by
  have hdecided := examine_decided reader layout id
  simp only [h] at hdecided
  exact (Observations.of_function?_eq_some hdecided.eq_some).1

theorem address_of_identified {id : String} {f : IdentifiedFunction}
    (h : (examine reader layout id).result.toOption = some f) : f.node.address = id :=
  address_of_examine reader layout (toOption_eq_some_iff.1 h)

/-- Where no function is listed twice no address comes twice. -/
theorem nodup_address_identifiedFunctions {ids : List String} (h : ids.Nodup) :
    ((identifiedFunctions reader layout ids).map fun f => f.node.address).Nodup := by
  unfold List.Nodup identifiedFunctions at *
  rw [List.pairwise_map]
  refine h.filterMap _ fun id₁ id₂ hne f hf g hg => ?_
  rwa [address_of_identified reader layout hf,
    address_of_identified reader layout hg]

end

/-- A tree in memory lists no name twice. -/
theorem MemoryTree.nodup_list {tree : MemoryTree} {path : Path} {ids : List String}
    (h : tree.reader.list path = .ok ids) : ids.Nodup :=
  (list_ascending h).imp ne_of_lt

/-- **No unit is handed out twice.** A tree in memory lists no name twice. For any reader that
does not, a scan has an outcome; and if all its nodes have addresses, then over all resource names
no two units have the same id, there are as many as nodes, each is the unit of a node of a card, and
its id tells the serial number and the address. -/
theorem unit_ids_unique (layout : Layout) :
    (∀ (tree : MemoryTree) path ids, tree.reader.list path = .ok ids → ids.Nodup) ∧
    ∀ (reader : Reader) ids, reader.list layout.functions = .ok ids → ids.Nodup →
      ∃ outcome, (scan reader layout).result = .ok outcome ∧
        ((∀ device ∈ outcome.devices.values, ∀ node ∈ device.nodes,
            ∃ a, PciAddress.parse node.address = .ok a) →
          ∀ inventory : Inventory, inventory.devices = outcome.devices →
            (inventory.allocatable.units.map AllocatableUnit.id).Nodup ∧
            inventory.allocatable.units.length = outcome.devices.nodeCount ∧
            (∀ unit ∈ inventory.allocatable.units,
              ∃ device ∈ outcome.devices.values, ∃ node ∈ device.nodes, unit = device.unit node) ∧
            ∀ d₁ ∈ outcome.devices.values, ∀ n₁ ∈ d₁.nodes,
              ∀ d₂ ∈ outcome.devices.values, ∀ n₂ ∈ d₂.nodes,
                (d₁.unit n₁).id = (d₂.unit n₂).id →
                  d₁.serialNumber = d₂.serialNumber ∧ n₁.address = n₂.address) := by
  refine ⟨fun tree path ids h => MemoryTree.nodup_list h, fun reader ids hlist hnodup => ?_⟩
  refine ⟨_, scan_of_list reader layout hlist, fun haddress inventory hi => ?_⟩
  rw [← hi] at haddress ⊢
  have hhyphen : ∀ device ∈ inventory.devices.values, ∀ node ∈ device.nodes,
      '-' ∉ node.address.toList := fun device hdevice node hnode => by
    obtain ⟨a, ha⟩ := haddress device hdevice node hnode
    exact PciAddress.hyphen_notMem_of_parse_eq_ok ha
  have hinj : ∀ d₁ ∈ inventory.devices.values, ∀ n₁ ∈ d₁.nodes,
      ∀ d₂ ∈ inventory.devices.values, ∀ n₂ ∈ d₂.nodes, (d₁.unit n₁).id = (d₂.unit n₂).id →
        d₁.serialNumber = d₂.serialNumber ∧ n₁.address = n₂.address :=
    fun d₁ hd₁ n₁ hn₁ d₂ hd₂ n₂ hn₂ =>
      Device.id_unit_inj (hhyphen d₁ hd₁ n₁ hn₁) (hhyphen d₂ hd₂ n₂ hn₂)
  have hunits := DeviceMap.units_allocatable_perm inventory
  refine ⟨?_, ?_, fun unit hunit => ?_, hinj⟩
  · rw [(hunits.map AllocatableUnit.id).nodup_iff, List.map_map]
    have haddresses : (inventory.devices.pairs.map fun p => p.2.address).Nodup := by
      have hnodes := DeviceMap.nodes_foldl_addFunction (identifiedFunctions reader layout ids)
      rw [← devices_ofListed, ← hi, ← DeviceMap.map_snd_pairs] at hnodes
      have hnodup' := nodup_address_identifiedFunctions reader layout hnodup
      have hperm := hnodes.map Node.address
      rw [List.map_map, List.map_map] at hperm
      exact hperm.nodup_iff.2 hnodup'
    refine nodup_map_of_inj haddresses fun p hp q hq heq => ?_
    obtain ⟨hd₁, hn₁⟩ := DeviceMap.mem_pairs.1 hp
    obtain ⟨hd₂, hn₂⟩ := DeviceMap.mem_pairs.1 hq
    exact (hinj p.1 hd₁ p.2 hn₁ q.1 hd₂ q.2 hn₂ heq).2
  · rw [hunits.length_eq, List.length_map, DeviceMap.length_pairs]
  · obtain ⟨p, hp, rfl⟩ := List.mem_map.1 (hunits.mem_iff.1 hunit)
    obtain ⟨hdevice, hnode⟩ := DeviceMap.mem_pairs.1 hp
    exact ⟨p.1, hdevice, p.2, hnode, rfl⟩

/-- Two cards, the serial number of the second being the id of the only unit of the first. -/
def sampleHyphens : MemoryTree :=
  let first := ({} : MemoryTree).addCardFunction ⟨"/d/0:3:0.0"⟩ "S" "v1"
  first.addCardFunction ⟨"/d/0:3:0.1"⟩ "S-0:3:0.0" "v1"

/-- Each card of the sample has one node, under the name of its function. -/
theorem devices_sampleHyphens :
    (scan sampleHyphens.reader (.withRoot "/d")).result.toOption.map (fun outcome =>
        outcome.devices.entries.map fun e => (e.1, e.2.nodes.map Node.address)) =
      some [("S", ["0:3:0.0"]), ("S-0:3:0.0", ["0:3:0.1"])] := by
  decide +kernel

/-- Their two units have two ids. -/
theorem unit_ids_unique_sample :
    sampleHyphens.reader.list ⟨"/d"⟩ = .ok ["0:3:0.0", "0:3:0.1"] ∧
      ∃ outcome, (scan sampleHyphens.reader (.withRoot "/d")).result = .ok outcome ∧
        outcome.devices.keys = ["S", "S-0:3:0.0"] ∧
        ∀ inventory : Inventory, inventory.devices = outcome.devices →
          (inventory.allocatable.units.map AllocatableUnit.id).Nodup ∧
            inventory.allocatable.units.length = 2 := by
  have hlist : sampleHyphens.reader.list (Layout.withRoot "/d").functions =
      .ok ["0:3:0.0", "0:3:0.1"] := by decide +kernel
  obtain ⟨outcome, hscan, hunits⟩ :=
    (unit_ids_unique (.withRoot "/d")).2 sampleHyphens.reader _ hlist (by decide)
  have hdevices := devices_sampleHyphens
  rw [hscan] at hdevices
  simp only [Except.toOption, Option.map_some, Option.some.injEq] at hdevices
  have hkeys := congrArg (List.map Prod.fst) hdevices
  have hnodes := congrArg (List.map Prod.snd) hdevices
  simp only [List.map_map, Function.comp_def, List.map_cons, List.map_nil] at hkeys hnodes
  have haddress : ∀ device ∈ outcome.devices.values, ∀ node ∈ device.nodes,
      ∃ a, PciAddress.parse node.address = .ok a := fun device hdevice node hnode => by
    obtain ⟨e, he, rfl⟩ := List.mem_map.1 hdevice
    have hmem := List.mem_map_of_mem (f := fun e : String × Device => e.2.nodes.map Node.address) he
    have hname := List.mem_map_of_mem (f := Node.address) hnode
    rw [hnodes] at hmem
    simp only [List.mem_cons, List.not_mem_nil, or_false] at hmem
    rcases hmem with heq | heq <;> rw [heq, List.mem_singleton] at hname <;> rw [hname]
    · exact ⟨⟨0, 3, 0, 0⟩, by decide +kernel⟩
    · exact ⟨⟨0, 3, 0, 1⟩, by decide +kernel⟩
  refine ⟨hlist, outcome, hscan, hkeys, fun inventory hi => ?_⟩
  obtain ⟨hids, hlength, -⟩ := hunits haddress inventory hi
  refine ⟨hids, ?_⟩
  have haddresses := congrArg List.flatten hnodes
  rw [hlength, DeviceMap.nodeCount_eq_length, ← List.length_map Node.address, List.map_flatMap]
  rw [← List.flatMap_def] at haddresses
  unfold SortedMap.values
  rw [List.flatMap_map, haddresses]
  rfl

end CardInventory
