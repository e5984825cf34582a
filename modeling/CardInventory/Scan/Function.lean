import CardInventory.Files.Reader
import CardInventory.Layout
import CardInventory.Scan.SkipReason

/-
# One PCI function, as a scan sees it

The vendor, the role and the readiness of a function decide whether it goes on to be identified.
The role comes from the marker files of the driver; a function with neither marker has none, and
one with both is a management function. Readiness is asked of user functions only.
-/

namespace CardInventory

/-- What a function of a card is there for. -/
inductive FunctionRole where
  | management | user | unclassified
  deriving DecidableEq, Repr

/-- A function of a card of an accepted vendor. -/
structure PciFunction where
  id : String
  vendor : String
  role : FunctionRole
  ready : Bool
  deriving DecidableEq, Repr

namespace PciFunction

variable (reader : Reader) (layout : Layout) (id : String)

/-- Does the function bear the management marker? -/
def isManagement : Bool := reader.present ((layout.functionDir id).join layout.managementMarker)

/-- Does the function bear the user marker? -/
def isUser : Bool := reader.present ((layout.functionDir id).join layout.userMarker)

/-- Does the ready file of the function hold the value of a usable one? -/
def isReady : Bool :=
  match reader.read ((layout.functionDir id).join layout.readyFile) with
  | .ok value => value == layout.readyValue
  | .error _ => false

/-- The role of the function. -/
def roleOf : FunctionRole :=
  if isManagement reader layout id then .management
  else if isUser reader layout id then .user
  else .unclassified

/-- Reads vendor, role and readiness of a function. -/
def probe : Except SkipReason PciFunction :=
  match reader.read ((layout.functionDir id).join layout.vendorFile) with
  | .error _ => .error .vendorUnreadable
  | .ok vendor =>
    if layout.acceptsVendor vendor then
      let role := roleOf reader layout id
      .ok { id, vendor, role, ready := role = .user && isReady reader layout id }
    else .error (.foreignVendor vendor)

/-- Only user functions that are ready go on. -/
def admission (f : PciFunction) : Except SkipReason Unit :=
  match f.role with
  | .management => .error .management
  | .unclassified => .error .noRole
  | .user => if f.ready then .ok () else .error .notReady

end PciFunction
end CardInventory
