import CardInventory.Card.Json
import CardInventory.Failure
import CardInventory.Files.Disk
import CardInventory.Scan.Outcome

/-
# Reports

A report is a directory of its own, `reports/<run id>` under some base, with two files: the
inventory, and a record of the run with the functions that were left out. A report that cannot be
written leaves directories behind at most.
-/

namespace CardInventory

/-- What a report says. -/
structure Report where
  runId : Uuid
  createdAt : String
  inventory : Inventory
  skipped : List SkippedFunction
  /-- Whatever else is to be put on record. -/
  extra : Option Json := none

/-- Where a report is. -/
structure ReportPaths where
  runId : String
  root : Path
  inventoryFile : Path
  runFile : Path
  deriving DecidableEq, Repr

namespace ReportPaths

/-- The paths as a JSON value, which has no place for damaged ones. -/
def encode? (paths : ReportPaths) : Option Json := do
  return .object [
    ("run_id", .text paths.runId),
    ("root", .text (← paths.root.raw.toString?)),
    ("inventory_json", .text (← paths.inventoryFile.raw.toString?)),
    ("run_json", .text (← paths.runFile.raw.toString?))]

end ReportPaths

namespace Report

/-- A function that was left out as a JSON value. -/
def encodeSkipped (f : SkippedFunction) : Json :=
  .object [("pci_id", .text f.id), ("reason", .text f.reason.message)]

/-- The record of the run as a JSON value. -/
def runRecord (report : Report) : Json :=
  .object [
    ("run_id", .text report.runId.render),
    ("created_at_utc", .text report.createdAt),
    ("inventory_schema_version", .text Inventory.currentSchema),
    ("cards", .number (.natural report.inventory.devices.size)),
    ("nodes", .number (.natural report.inventory.nodeCount)),
    ("skipped", .array (report.skipped.map encodeSkipped)),
    ("meta", report.extra.getD .null)]

/-- The text of the inventory file. -/
def inventoryText (report : Report) : String := (Json.encode report.inventory).pretty

/-- The text of the run file. -/
def runText (report : Report) : String := report.runRecord.pretty

/-- The paths of a report under a base. -/
def paths (report : Report) (base : Path) : ReportPaths :=
  let runId := report.runId.render
  let root := (base.join "reports").join runId
  { runId, root, inventoryFile := root.join "inventory.json", runFile := root.join "run.json" }

/-- Writes a report under a base, the inventory first, and tells of it when all is written. The disk
is given as it is afterwards, whether all went well or not. -/
def write (report : Report) (base : Path) (d : Disk) : Disk × Logged Failure ReportPaths :=
  let paths := report.paths base
  match d.makeDirectories paths.root.raw with
  | (d, .error e) => (d, .ofResult (.error (.makeBundle paths.root e)))
  | (d, .ok ()) =>
    match d.writeFile paths.inventoryFile.raw (.ofString report.inventoryText) with
    | .error e => (d, .ofResult (.error (.writeFile paths.inventoryFile e)))
    | .ok d =>
      match d.writeFile paths.runFile.raw (.ofString report.runText) with
      | .error e => (d, .ofResult (.error (.writeFile paths.runFile e)))
      | .ok d => (d, do
        Logged.tell (.reportWritten paths.runId paths.root)
        return paths)

end Report
end CardInventory
