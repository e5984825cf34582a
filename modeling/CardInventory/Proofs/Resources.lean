import CardInventory.Proofs.Allocation
import CardInventory.Proofs.Scan.Grouping
import Mathlib

/-
# What is offered under resource names

An inventory offers units under the resource names of its cards and under no others. Under a name
stand the units of the cards that have it, card by card in the order of the keys, one unit for each
node (`Inventory.get?_allocatable`). So all names together offer as many units as there are nodes
(`Inventory.sum_allocatable`), however many cards share a name. A name is the domain of all
resources, followed by characters that may stand in one (`Device.exists_resourceName_eq`).
-/

namespace CardInventory

/-! ## Names -/

/-- The characters that may stand in a resource name. -/
theorem isNameChar_iff {c : Char} :
    isNameChar c = true ↔ ('A' ≤ c ∧ c ≤ 'Z') ∨ ('a' ≤ c ∧ c ≤ 'z') ∨ ('0' ≤ c ∧ c ≤ '9') ∨
      c = '.' ∨ c = '_' ∨ c = '-' := by
  simp only [isNameChar, Char.isAlphanum, Char.isAlpha, Char.isUpper, Char.isLower, Char.isDigit,
    Bool.or_eq_true, Bool.and_eq_true, decide_eq_true_iff, ge_iff_le, beq_iff_eq, Char.le_def,
    or_assoc]

/-- No other character is left in a text. -/
theorem isNameChar_of_mem_sanitize {c : Char} {cs : List Char} (h : c ∈ sanitize cs) :
    isNameChar c = true := by
  obtain ⟨d, -, rfl⟩ := List.mem_map.1 h
  split_ifs with hd
  · exact hd
  · decide

/-- **A resource name is the domain of all resources and characters that may stand in a name.** -/
theorem Device.exists_resourceName_eq (device : Device) :
    ∃ suffix : List Char, device.resourceName = "xilinx.com/fpga-" ++ String.ofList suffix ∧
      ∀ c ∈ suffix, isNameChar c = true :=
  ⟨_, rfl, fun _ hc => isNameChar_of_mem_sanitize hc⟩

/-! ## Units -/

namespace Inventory

variable (inventory : Inventory)

/-- **Under a name stand the units of the cards that have it**, where there is such a card. -/
theorem get?_allocatable (name : String) :
    inventory.allocatable.get? name = unitsUnder? name inventory.devices.values :=
  Allocation.get?_foldl_addDevice _ name

/-- The names are those of the cards. -/
theorem mem_keys_allocatable {name : String} :
    name ∈ inventory.allocatable.keys ↔
      ∃ device ∈ inventory.devices.values, device.resourceName = name := by
  rw [SortedMap.mem_keys_iff, ← Option.isSome_iff_exists, get?_allocatable, isSome_unitsUnder?]

/-- **There are as many units as nodes.** -/
theorem sum_allocatable :
    (inventory.allocatable.values.map List.length).sum = inventory.nodeCount := by
  have hunits := Allocation.units_foldl_addDevice inventory.devices.values
  calc (inventory.allocatable.values.map List.length).sum
      = inventory.allocatable.units.length := List.length_flatten.symm
    _ = (inventory.devices.values.flatMap Device.allocatableUnits).length := hunits.length_eq
    _ = (inventory.devices.values.flatMap Device.nodes).length := by
      simp only [List.length_flatMap, Device.allocatableUnits, List.length_map]
    _ = inventory.nodeCount := (DeviceMap.nodeCount_eq_length _).symm

end Inventory

/-- What stands under a name, where some card has it. -/
theorem unitsUnder?_eq_some_iff {name : String} {devices : List Device}
    {units : List AllocatableUnit} :
    unitsUnder? name devices = some units ↔
      (∃ device ∈ devices, device.resourceName = name) ∧
        units = (devices.filter fun device => device.resourceName = name).flatMap
          Device.allocatableUnits := by
  rw [← isSome_unitsUnder?]
  unfold unitsUnder?
  cases devices.filter fun device => device.resourceName = name <;> simp [eq_comm]

/-- **The units by resource name are all there are, each once.** The names are those of the cards.
Under a name stand, card by card in the order of the keys, the units of the cards that have it, one
for each node in the order of the nodes: with the serial number and the address for its id, the
health of the card, and the device files of the node to read and write. All names together have as
many units as there are nodes, and each name is the domain of all resources, followed by letters,
digits, `.`, `_` and `-` only. -/
theorem units_by_resource_name (inventory : Inventory) :
    (∀ name, name ∈ inventory.allocatable.keys ↔
      ∃ device ∈ inventory.devices.values, device.resourceName = name) ∧
    (∀ name units, inventory.allocatable.get? name = some units ↔
      (∃ device ∈ inventory.devices.values, device.resourceName = name) ∧
        units = (inventory.devices.values.filter fun device => device.resourceName = name).flatMap
          fun device => device.nodes.map fun node => {
            id := device.serialNumber ++ "-" ++ node.address
            health := device.health
            deviceSpecs :=
              (node.primaryDevicePath :: node.subdevicePath :: node.streamingDmaPath.toList).map
                fun path => { containerPath := path, hostPath := path, permissions := "rw" } }) ∧
    (inventory.allocatable.values.map List.length).sum = inventory.nodeCount ∧
    ∀ name ∈ inventory.allocatable.keys, ∃ suffix : List Char,
      name = "xilinx.com/fpga-" ++ String.ofList suffix ∧
        ∀ c ∈ suffix, ('A' ≤ c ∧ c ≤ 'Z') ∨ ('a' ≤ c ∧ c ≤ 'z') ∨ ('0' ≤ c ∧ c ≤ '9') ∨
          c = '.' ∨ c = '_' ∨ c = '-' := by
  refine ⟨fun name => inventory.mem_keys_allocatable, fun name units => ?_,
    inventory.sum_allocatable, ?_⟩
  · rw [inventory.get?_allocatable, unitsUnder?_eq_some_iff]
    rfl
  · intro name hname
    obtain ⟨device, -, rfl⟩ := inventory.mem_keys_allocatable.1 hname
    obtain ⟨suffix, heq, hchars⟩ := device.exists_resourceName_eq
    exact ⟨suffix, heq, fun c hc => isNameChar_iff.1 (hchars c hc)⟩

/-- Two cards whose names come out the same, under keys that are not their serial numbers and in the
other order, and a card without nodes. -/
def sampleShelf : Inventory where
  inventoryId := ⟨List.replicate 32 (Fin.last 15), rfl⟩
  schemaVersion := Inventory.currentSchema
  devices := .ofList [
    ("k2", ⟨"A", "v 1", "5", .unhealthy, [⟨"/dev/r1", "/dev/x", some "/dev/x/q1", "0:3:0.1", ""⟩]⟩),
    ("k1", ⟨"B", "v_1", "5", .healthy, [⟨"/dev/r2", "/dev/x", none, "0:4:0.1", ""⟩]⟩),
    ("k3", ⟨"C", "v2", "5", .healthy, []⟩)]
  generatedAt := ""

/-- Of the sample both units stand under one name, that of the lesser key first, and the card
without nodes has a name without units. -/
theorem units_by_resource_name_sample :
    sampleShelf.allocatable.get? "xilinx.com/fpga-v_1-5" = some [
      ⟨"B-0:4:0.1", .healthy, [⟨"/dev/r2", "/dev/r2", "rw"⟩, ⟨"/dev/x", "/dev/x", "rw"⟩]⟩,
      ⟨"A-0:3:0.1", .unhealthy, [⟨"/dev/r1", "/dev/r1", "rw"⟩, ⟨"/dev/x", "/dev/x", "rw"⟩,
        ⟨"/dev/x/q1", "/dev/x/q1", "rw"⟩]⟩] ∧
    sampleShelf.allocatable.get? "xilinx.com/fpga-v2-5" = some [] ∧
    (sampleShelf.allocatable.values.map List.length).sum = 2 ∧
    "xilinx.com/fpga-v2-5" ∈ sampleShelf.allocatable.keys ∧
    ∃ suffix : List Char, "xilinx.com/fpga-v2-5" = "xilinx.com/fpga-" ++ String.ofList suffix ∧
      ∀ c ∈ suffix, ('A' ≤ c ∧ c ≤ 'Z') ∨ ('a' ≤ c ∧ c ≤ 'z') ∨ ('0' ≤ c ∧ c ≤ '9') ∨
        c = '.' ∨ c = '_' ∨ c = '-' := by
  obtain ⟨hkeys, hunits, hsum, hname⟩ := units_by_resource_name sampleShelf
  have hcount : sampleShelf.nodeCount = 2 := by decide +kernel
  have hkey : "xilinx.com/fpga-v2-5" ∈ sampleShelf.allocatable.keys :=
    (hkeys _).2 (by decide +kernel)
  refine ⟨(hunits _ _).2 ?_, (hunits _ _).2 ?_, hsum.trans hcount, hkey, hname _ hkey⟩
  · decide +kernel
  · decide +kernel

end CardInventory
