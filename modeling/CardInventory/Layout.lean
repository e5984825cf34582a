import CardInventory.Path

/-
# Where the driver puts things

The names by which a scan knows the files of the card driver: the directory of all PCI functions,
the files and subsystems in the directory of a function, and the directories of device nodes. A
subsystem is a directory whose name begins in a fixed way and goes on with a number.
-/

namespace CardInventory

/-- The names that a scan goes by. -/
structure Layout where
  /-- The directory with one entry for each PCI function. -/
  functions : Path := ⟨"/sys/bus/pci/devices"⟩
  /-- The directory of render nodes. -/
  renderRoot : String := "/dev/dri"
  /-- The directory of control nodes. -/
  subdeviceRoot : String := "/dev/xfpga"
  /-- The vendor ids that are accepted, in either letter case. -/
  vendors : List String := ["0x10ee", "0x13fe", "0x1d0f"]
  vendorFile : String := "vendor"
  deviceFile : String := "device"
  /-- The file that marks a management function. -/
  managementMarker : String := "mgmt_pf"
  /-- The file that marks a user function. -/
  userMarker : String := "user_pf"
  readyFile : String := "ready"
  /-- What the ready file of a usable function holds. -/
  readyValue : String := "0x1"
  /-- How the name of the controller subsystem begins. -/
  controllerLead : String := "xmc.u"
  serialFile : String := "serial_num"
  /-- How the name of the shell image subsystem begins. -/
  imageLead : String := "rom.u"
  shellVersionFile : String := "VBNV"
  timestampFile : String := "timestamp"
  /-- How the name of the directory with the render node begins. -/
  graphicsLead : String := "drm"
  renderLead : String := "renderD"
  /-- How the name of the streaming DMA subsystem begins, and that of its device node. -/
  dmaLead : String := "dma.qdma.u"
  deriving DecidableEq, Repr

namespace Layout

/-- The default names with another directory of functions. -/
def withRoot (root : Path) : Layout := { functions := root }

/-- The directory of a function. -/
def functionDir (layout : Layout) (id : String) : Path := layout.functions.join id

/-- Are two texts equal when the case of ASCII letters is ignored? -/
def sameLetters (s t : String) : Bool := s.toList.map Char.toLower == t.toList.map Char.toLower

/-- Is a vendor id accepted? -/
def acceptsVendor (layout : Layout) (vendor : String) : Bool :=
  layout.vendors.any fun accepted => sameLetters accepted vendor

/-- The path of a render node. -/
def renderNodePath (layout : Layout) (name : String) : String :=
  ((Path.mk layout.renderRoot).join name).text

/-- The path of the streaming DMA node of the function with an instance number. -/
def streamingDmaPath (layout : Layout) (number : Nat) : String :=
  ((Path.mk layout.subdeviceRoot).join (layout.dmaLead ++ toString number)).text

end Layout
end CardInventory
