import CardInventory.Files.Reader
import CardInventory.Pci.Address
import CardInventory.Scan.SkipReason

/-
# What a run tells on the way

Events come with a level, a fixed message and named fields.
-/

namespace CardInventory

/-- How much an event matters. -/
inductive Level where
  | debug | info | warn
  deriving DecidableEq, Repr

/-- The value of a field of an event. -/
inductive FieldValue where
  | text (s : String)
  | count (n : Nat)
  deriving DecidableEq, Repr

/-- Something worth telling. -/
inductive Event where
  /-- A function was left out. -/
  | skipped (id : String) (reason : SkipReason)
  /-- The name of a function is no address, so that it has no streaming DMA node. -/
  | dmaNotSought (id : String) (error : PciAddress.ParseError)
  /-- The directory of a function could not be searched for streaming DMA. -/
  | dmaUnreadable (id : String) (error : FileError)
  | scanComplete (cards nodes left : Nat)
  | reportWritten (runId : String) (root : Path)
  deriving DecidableEq, Repr

namespace Event

/-- The level of an event. -/
def level : Event → Level
  | skipped _ reason => if reason.isRoutine then .debug else .warn
  | dmaNotSought _ _ => .debug
  | dmaUnreadable _ _ => .debug
  | scanComplete _ _ _ => .info
  | reportWritten _ _ => .info

/-- The message of an event. -/
def message : Event → String
  | skipped _ reason =>
    if reason.isRoutine then "skipping PCI function" else "dropping FPGA user function"
  | dmaNotSought _ _ => "skipping streaming DMA detection"
  | dmaUnreadable _ _ => "cannot look up streaming DMA subsystem"
  | scanComplete _ _ _ => "FPGA scan complete"
  | reportWritten _ _ => "wrote inventory report"

/-- The fields of an event. -/
def fields : Event → List (String × FieldValue)
  | skipped id reason => [("pci_id", .text id), ("reason", .text reason.message)]
  | dmaNotSought id error => [("pci_id", .text id), ("error", .text error.message)]
  | dmaUnreadable id error => [("pci_id", .text id), ("error", .text error.message)]
  | scanComplete cards nodes left =>
    [("cards", .count cards), ("nodes", .count nodes), ("skipped", .count left)]
  | reportWritten runId root => [("run_id", .text runId), ("root", .text root.text)]

end Event
end CardInventory
