import CardInventory.Card

/-
# What a scheduler may hand out

Every node of a card is a unit of its own, with the device files that go with it. Cards that run
the same shell image offer their units under one resource name, made of the version and the build
time of the image. Names hold letters, digits, `.`, `_` and `-` only; anything else becomes `_`.
-/

namespace CardInventory

/-- A device file that a unit brings into a container. -/
structure DeviceSpec where
  containerPath : String
  hostPath : String
  permissions : String
  deriving DecidableEq, Repr

/-- A device file under its own path, to read and write. -/
def DeviceSpec.passthrough (path : String) : DeviceSpec :=
  { containerPath := path, hostPath := path, permissions := "rw" }

/-- A unit of scheduling: one node of a card. -/
structure AllocatableUnit where
  /-- The serial number of the card and the address of the node, with a hyphen between them. -/
  id : String
  health : Health
  deviceSpecs : List DeviceSpec
  deriving DecidableEq, Repr

/-- May `c` stand in a resource name? -/
def isNameChar (c : Char) : Bool :=
  c.isAlphanum || c == '.' || c == '_' || c == '-'

/-- A text with `_` for every character that may not stand in a resource name. -/
def sanitize (cs : List Char) : List Char := cs.map fun c => if isNameChar c then c else '_'

namespace Device

/-- What all resource names begin with. -/
def resourceDomain : String := "xilinx.com/fpga-"

/-- The resource name of the shell image that a card runs. -/
def resourceName (device : Device) : String :=
  resourceDomain ++
    String.ofList (sanitize (device.shellVersion ++ "-" ++ device.buildTimestamp).toList)

/-- The unit of a node. -/
def unit (device : Device) (node : Node) : AllocatableUnit where
  id := device.serialNumber ++ "-" ++ node.address
  health := device.health
  deviceSpecs :=
    ([node.primaryDevicePath, node.subdevicePath] ++ node.streamingDmaPath.toList).map
      DeviceSpec.passthrough

/-- The units of a card, in the order of its nodes. -/
def allocatableUnits (device : Device) : List AllocatableUnit := device.nodes.map device.unit

end Device

/-- The units of all cards by resource name. -/
abbrev Allocation := SortedMap (List AllocatableUnit)

/-- Adds the units of a card to what others offer under the same name. -/
def Allocation.addDevice (allocation : Allocation) (device : Device) : Allocation :=
  SortedMap.update allocation device.resourceName fun units =>
    units.getD [] ++ device.allocatableUnits

/-- The units of an inventory by resource name, cards taken in the order of their keys. -/
def Inventory.allocatable (inventory : Inventory) : Allocation :=
  inventory.devices.values.foldl Allocation.addDevice {}

end CardInventory
