import CardInventory.Failure
import CardInventory.Scan.Function
import CardInventory.Scan.Identity

/-
# Scanning a machine

A scan lists the directory of all PCI functions and visits one after the other. A function that is
identified becomes a node of its card, under the serial number; the function of a card that comes
first fixes the shell image of the card, later ones only add nodes. A function that is not is told
of, and left out of the cards; those of accepted vendors are kept in a list. Only a directory that
cannot be listed ends the scan.
-/

namespace CardInventory

/-- A function of an accepted vendor that gives no node. -/
structure SkippedFunction where
  id : String
  reason : SkipReason
  deriving DecidableEq, Repr

/-- Examines a function: it is probed, admitted and identified. -/
def examine (reader : Reader) (layout : Layout) (id : String) :
    Logged SkipReason IdentifiedFunction := do
  let function ← PciFunction.probe reader layout id
  function.admission
  IdentifiedFunction.extract reader layout id

/-- Adds the node of a function to its card, which is new if it has none yet. -/
def DeviceMap.addFunction (devices : DeviceMap) (function : IdentifiedFunction) : DeviceMap :=
  let { identity, node } := function
  SortedMap.update devices identity.serialNumber fun
    | some device => { device with nodes := device.nodes ++ [node] }
    | none => .ofNode identity.serialNumber identity.shellVersion identity.buildTimestamp node

/-- What a scan has found. -/
structure ScanOutcome where
  devices : DeviceMap := {}
  skipped : List SkippedFunction := []

namespace ScanOutcome

variable (reader : Reader) (layout : Layout)

/-- Examines one more function and puts it where it belongs. -/
def visit (outcome : ScanOutcome) (id : String) : Logged Failure ScanOutcome := do
  match ← (examine reader layout id).attempt with
  | .ok function => return { outcome with devices := outcome.devices.addFunction function }
  | .error reason =>
    Logged.tell (.skipped id reason)
    if reason.isForeign then return outcome
    else return { outcome with skipped := outcome.skipped ++ [⟨id, reason⟩] }

/-- The event at the end of a scan. -/
def summary (outcome : ScanOutcome) : Event :=
  .scanComplete outcome.devices.size outcome.devices.nodeCount outcome.skipped.length

end ScanOutcome

/-- Scans the functions that a reader lists. -/
def scan (reader : Reader) (layout : Layout) : Logged Failure ScanOutcome := do
  let ids ← (reader.list layout.functions).mapError (Failure.listFunctions layout.functions)
  let outcome ← ids.foldlM (ScanOutcome.visit reader layout) {}
  Logged.tell outcome.summary
  return outcome

end CardInventory
