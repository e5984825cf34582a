import CardInventory.Card.Json
import CardInventory.Proofs.Json.Shape

/-
# Inventories in JSON are read back

An inventory that is written, without blanks or indented, is read back as it was, but for the
internal device ids of its nodes, which are not written (`inventory_json_round_trip`). Nothing that
is handed out depends on these ids, and so a reader of the text hands out the same units.
-/

namespace CardInventory

open Json

/-! ## What is not written -/

/-- The node with an empty device id. -/
def Node.withoutDeviceId (node : Node) : Node := { node with internalDeviceId := "" }

/-- The card with empty device ids. -/
def Device.withoutDeviceIds (device : Device) : Device :=
  { device with nodes := device.nodes.map Node.withoutDeviceId }

/-- The inventory with empty device ids. -/
def Inventory.withoutDeviceIds (inventory : Inventory) : Inventory :=
  { inventory with devices := inventory.devices.map Device.withoutDeviceIds }

theorem Health.ofValue_toValue (health : Health) :
    (Shaped.ofValue (Shaped.toValue health) : Health) = health := by
  cases health <;> rfl

theorem Device.ofValue_toValue (device : Device) :
    (Shaped.ofValue (Shaped.toValue device) : Device) = device.withoutDeviceIds := by
  have hnodes : (device.nodes.map Shaped.toValue).map Shaped.ofValue =
      device.nodes.map Node.withoutDeviceId := by
    rw [List.map_map]
    rfl
  have hhealth := device.health.ofValue_toValue
  simp only [Shaped.toValue, Shaped.ofValue, withoutDeviceIds] at hnodes hhealth ⊢
  rw [hnodes, hhealth]

theorem DeviceMap.ofValue_toValue (devices : DeviceMap) :
    (Shaped.ofValue (Shaped.toValue devices) : DeviceMap) =
      devices.map Device.withoutDeviceIds :=
  (SortedMap.map_map ..).trans (congrArg devices.map (funext Device.ofValue_toValue))

theorem Inventory.ofValue_toValue (inventory : Inventory) :
    (Shaped.ofValue (Shaped.toValue inventory) : Inventory) = inventory.withoutDeviceIds := by
  have hdevices := inventory.devices.ofValue_toValue
  simp only [Shaped.toValue, Shaped.ofValue, withoutDeviceIds] at hdevices ⊢
  rw [hdevices]

/-- **Device ids are not written.** -/
theorem Inventory.encode_withoutDeviceIds (inventory : Inventory) :
    encode inventory.withoutDeviceIds = encode inventory := by
  have hdevice : ∀ device : Device,
      Shaped.toValue device.withoutDeviceIds = Shaped.toValue device := fun device => by
    simp only [Shaped.toValue, Device.withoutDeviceIds, List.map_map]
    rfl
  have hdevices : Shaped.toValue (inventory.devices.map Device.withoutDeviceIds) =
      Shaped.toValue inventory.devices :=
    (SortedMap.map_map ..).trans (congrArg inventory.devices.map (funext hdevice))
  have hvalue : Shaped.toValue inventory.withoutDeviceIds = Shaped.toValue inventory := by
    simp only [Shaped.toValue, withoutDeviceIds] at hdevices ⊢
    rw [hdevices]
  rw [encode, encode, hvalue]

/-! ## What is handed out -/

theorem DeviceMap.nodeCount_withoutDeviceIds (devices : DeviceMap) :
    DeviceMap.nodeCount (devices.map Device.withoutDeviceIds) = devices.nodeCount := by
  simp only [nodeCount, SortedMap.values_map, List.foldr_map, Device.withoutDeviceIds,
    List.length_map]

theorem Inventory.nodeCount_withoutDeviceIds (inventory : Inventory) :
    inventory.withoutDeviceIds.nodeCount = inventory.nodeCount :=
  inventory.devices.nodeCount_withoutDeviceIds

/-- The units of a card do not depend on device ids. -/
theorem Allocation.addDevice_withoutDeviceIds (allocation : Allocation) (device : Device) :
    allocation.addDevice device.withoutDeviceIds = allocation.addDevice device := by
  have hunits : device.withoutDeviceIds.allocatableUnits = device.allocatableUnits := by
    simp only [Device.allocatableUnits, Device.withoutDeviceIds, List.map_map]
    rfl
  rw [addDevice, addDevice, hunits]
  rfl

theorem Inventory.allocatable_withoutDeviceIds (inventory : Inventory) :
    inventory.withoutDeviceIds.allocatable = inventory.allocatable := by
  simp only [allocatable, withoutDeviceIds, SortedMap.values_map, List.foldl_map,
    Allocation.addDevice_withoutDeviceIds]

/-- **An inventory is read back from either of its texts.** What is read differs in the device ids
of the nodes only, which are empty then, and it has as many nodes and hands out the same units. -/
theorem inventory_json_round_trip (inventory : Inventory) :
    decode Inventory (encode inventory).compact = .ok inventory.withoutDeviceIds ∧
      decode Inventory (encode inventory).pretty = .ok inventory.withoutDeviceIds ∧
      inventory.withoutDeviceIds.nodeCount = inventory.nodeCount ∧
      inventory.withoutDeviceIds.allocatable = inventory.allocatable := by
  have hshape : (Shaped.shape Inventory).lawful = true := by decide
  refine ⟨?_, ?_, inventory.nodeCount_withoutDeviceIds, inventory.allocatable_withoutDeviceIds⟩
  · rw [← inventory.ofValue_toValue]
    exact decode_render Style.lawful_compact hshape inventory
  · rw [← inventory.ofValue_toValue]
    exact decode_render Style.lawful_pretty hshape inventory

end CardInventory
