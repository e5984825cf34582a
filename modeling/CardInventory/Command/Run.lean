import CardInventory.Command.Line
import CardInventory.Report

/-
# Running a command

A command is run on a disk and gives what it prints, an exit code, the events that it told and the
disk afterwards. Fresh identifiers and the time come from outside. A line that is not well formed
ends with code 2, a failure with code 1 and its text on the error output; nothing is printed then.
How much of the events is shown there too, and in what form, is left to the surroundings.
-/

namespace CardInventory
namespace Command

/-- What a run draws from outside: fresh identifiers and times. -/
structure Stamp where
  inventoryId : Uuid
  generatedAt : String
  runId : Uuid
  createdAt : String

/-- What a run gives. -/
structure Result where
  code : Nat
  output : String := ""
  /-- The text of the failure that ended the run, if one did. -/
  failureText : String := ""
  /-- What the run told, of every level. -/
  events : List Event := []
  disk : Disk

/-- The names that a line makes a scan go by. -/
def Line.layout (line : Line) : Layout := (line.root.map fun root => Layout.withRoot root).getD {}

/-- The text of a value in the style that is asked for. -/
def renderJson (pretty : Bool) (j : Json) : String :=
  (if pretty then j.pretty else j.compact) ++ "\n"

/-- The lines that tell where a report is. -/
def renderPaths (paths : ReportPaths) : String :=
  "report_root: " ++ paths.root.text ++ "\n" ++
  "inventory: " ++ paths.inventoryFile.text ++ "\n" ++
  "run_json: " ++ paths.runFile.text ++ "\n"

/-- The line that tells the number of an address, and the address as it is written. -/
def renderNumber (address : String) (n : Nat) : String :=
  address ++ " -> " ++ toString n ++ " (" ++
    (PciAddress.ofNumber (UInt32.ofNat n)).render ++ ")\n"

/-- The inventory of what a scan of a disk finds, with the functions that were left out. -/
def survey (stamp : Stamp) (layout : Layout) (d : Disk) :
    Logged Failure (Inventory × List SkippedFunction) := do
  let outcome ← scan d.reader layout
  return (.ofDevices stamp.inventoryId stamp.generatedAt outcome.devices, outcome.skipped)

/-- Runs an action: what it prints, or why it fails, and the disk afterwards. -/
def Action.run (stamp : Stamp) (layout : Layout) (d : Disk) :
    Action → Disk × Logged Failure String
  | .scan pretty => (d, do
    let (inventory, _) ← survey stamp layout d
    return renderJson pretty (Json.encode inventory))
  | .resources pretty => (d, do
    let (inventory, _) ← survey stamp layout d
    return renderJson pretty (Json.encode inventory.allocatable))
  | .report base =>
    let surveyed := survey stamp layout d
    match surveyed.result with
    | .error e => (d, ⟨surveyed.events, .error e⟩)
    | .ok (inventory, skipped) =>
      let report : Report :=
        { runId := stamp.runId, createdAt := stamp.createdAt, inventory, skipped }
      let (d, written) := report.write base d
      (d, ⟨surveyed.events ++ written.events, written.result.map renderPaths⟩)
  | .number address => (d, .ofResult <|
    match PciAddress.parseNumber address with
    | .ok n => .ok (renderNumber address n)
    | .error e => .error (.badAddress e))

/-- Runs a command line. `environment` is the root directory that the environment gives. -/
def run (stamp : Stamp) (environment : Option String) (d : Disk) (words : List String) : Result :=
  match Line.parse environment words with
  | .error .help => { code := 0, disk := d }
  | .error .invalid => { code := 2, disk := d }
  | .ok line =>
    let (d, told) := line.action.run stamp line.layout d
    match told.result with
    | .ok output => { code := 0, output, events := told.events, disk := d }
    | .error e => { code := 1, failureText := e.report, events := told.events, disk := d }

end Command
end CardInventory
