import CardInventory.Pci.Address
import CardInventory.SortedMap
import CardInventory.Uuid

/-
# Cards and inventories

A card is one physical accelerator; its serial number tells it apart. Each of its user functions
is a node, with the device files through which it is reached. An inventory is a set of cards with
an identifier and a time.
-/

namespace CardInventory

/-- May work be given to a card? -/
inductive Health where
  | healthy | unhealthy
  deriving DecidableEq, Repr

/-- A user function of a card, as programs reach it. -/
structure Node where
  /-- The render node. -/
  primaryDevicePath : String
  /-- The directory of the control nodes. -/
  subdevicePath : String
  /-- The node of the streaming DMA engine, where there is one. -/
  streamingDmaPath : Option String
  /-- The PCI address of the function, as its directory is named. -/
  address : String
  /-- The device id of the function; it is known to the scan only and never written. -/
  internalDeviceId : String
  deriving DecidableEq, Repr

/-- A physical card. -/
structure Device where
  serialNumber : String
  shellVersion : String
  buildTimestamp : String
  health : Health
  nodes : List Node
  deriving DecidableEq, Repr

/-- A card by its first node. -/
def Device.ofNode (serialNumber shellVersion buildTimestamp : String) (node : Node) : Device :=
  { serialNumber, shellVersion, buildTimestamp, health := .healthy, nodes := [node] }

/-- Cards by serial number. -/
abbrev DeviceMap := SortedMap Device

/-- How many nodes the cards have together. -/
def DeviceMap.nodeCount (devices : DeviceMap) : Nat :=
  devices.values.foldr (fun device n => device.nodes.length + n) 0

/-- The cards of a machine at some time. -/
structure Inventory where
  inventoryId : Uuid
  schemaVersion : String
  devices : DeviceMap
  generatedAt : String
  deriving DecidableEq

namespace Inventory

/-- The version of the written form. -/
def currentSchema : String := "1.0.0"

/-- An inventory of cards under a given identifier and time. -/
def ofDevices (inventoryId : Uuid) (generatedAt : String) (devices : DeviceMap) : Inventory :=
  { inventoryId, schemaVersion := currentSchema, devices, generatedAt }

/-- How many nodes the cards have together. -/
def nodeCount (inventory : Inventory) : Nat := inventory.devices.nodeCount

end Inventory
end CardInventory
