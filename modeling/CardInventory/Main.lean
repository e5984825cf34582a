import CardInventory.Clock
import CardInventory.Command.Run
import CardInventory.Text.Utf8
import Std.Time.DateTime.Timestamp

/-
# The program

Runs a command line on the machine: the part of the file system that the command can ask for is
read, the command runs on it, and what is new on the disk afterwards is written.
-/

namespace CardInventory
namespace Program

/-- The text of the absolute path of a place. -/
def placeText (place : Place) : String :=
  "/" ++ String.intercalate "/" (place.map RawText.lossy)

/-- The place that a route leads to where no step of it is a link. -/
def plainPlace (start : Place) (route : Route) : Place :=
  route.steps.foldl (fun
    | place, .here => place
    | place, .up => place.dropLast
    | place, .name n => place ++ [n]) (if route.absolute then [] else start)

/-- The content of a file; one that cannot be read counts as damaged. -/
def readContent (text : String) : IO RawText := do
  try return Utf8.decode (← IO.FS.readBinFile text).toList
  catch _ => return ⟨[.junk []]⟩

/-- What is at a place, links being followed. A link that leads nowhere is given as one to itself,
and a file whose content is not asked for as an empty one. -/
def observe (place : Place) (asked : Bool) : IO Entry := do
  let text := placeText place
  try
    let path ← IO.FS.realPath text
    match (← path.metadata).type with
    | .dir => return .directory
    | _ => return .file (← if asked then readContent text else pure ⟨[]⟩)
  catch _ => return .link (place.getLast?.getD ⟨[]⟩)

/-- The names in a directory, or none if it cannot be listed. -/
def names (place : Place) : IO (List RawText) := do
  try
    let path ← IO.FS.realPath (placeText place)
    return (← path.readDir).toList.map fun entry => .ofString entry.fileName
  catch _ => return []

/-- The entries below a place, down to a depth. -/
def below (asked : RawText → Bool) : (depth : Nat) → Place → IO (List (Place × Entry))
  | 0, _ => return []
  | depth + 1, place => do
    let inside ← (← names place).mapM fun name => do
      let entry ← observe (place ++ [name]) (asked name)
      let rest ← if entry = .directory then below asked depth (place ++ [name]) else pure []
      return (place ++ [name], entry) :: rest
    return inside.flatten

/-- The entries on the way to a place and at its end, as far as there are any. -/
def along (place : Place) : IO (List (Place × Entry)) := do
  let places := (List.range place.length).map fun n => place.take (n + 1)
  let entries ← places.mapM fun p => do return (p, ← observe p false)
  return entries.filter fun e => match e.2 with
    | .link _ => false
    | _ => true

/-- The files whose content a scan asks for. -/
def askedFiles (layout : Layout) : List RawText :=
  [layout.vendorFile, layout.deviceFile, layout.readyFile, layout.serialFile,
    layout.shellVersionFile, layout.timestampFile].map .ofString

/-- The part of the file system that a command line can ask for. -/
def load (line : Command.Line) (working : Place) : IO Disk := do
  let root := plainPlace working line.layout.functions.route
  let asked := askedFiles line.layout
  let scanned ← below (fun name => asked.contains name) 3 root
  let base ← match line.action with
    | .report base => along (plainPlace working (base.join "reports").route)
    | _ => pure []
  let entries := (← along working) ++ (← along root) ++ base ++ scanned
  return entries.foldl (fun d e => d.set e.1 e.2) { workingDirectory := working }

/-- Writes what is new on a disk. -/
def store (before after : Disk) : IO Unit :=
  after.entries.forM fun (place, entry) =>
    if (before.entry? place).isSome then pure () else match entry with
      | .directory => IO.FS.createDirAll (placeText place)
      | .file content => IO.FS.writeBinFile (placeText place) content.lossy.toUTF8
      | .link _ => pure ()

/-- Fresh identifiers and the time. -/
def freshStamp : IO Command.Stamp := do
  let now ← Std.Time.Timestamp.now
  let time := Clock.render now.toNanosecondsSinceUnixEpoch.val.toNat
  let inventoryId := Uuid.ofRandom (← IO.getRandomBytes 16).toList
  let runId := Uuid.ofRandom (← IO.getRandomBytes 16).toList
  return { inventoryId, generatedAt := time, runId, createdAt := time }

/-- Runs a command line and gives its exit code. -/
def run (words : List String) : IO UInt32 := do
  let environment ← IO.getEnv "FPGA_SYSFS_ROOT"
  let working := plainPlace [] (Path.mk (← IO.currentDir).toString).route
  let disk ← match Command.Line.parse environment words with
    | .ok line => load line working
    | .error _ => pure { workingDirectory := working }
  let result := Command.run (← freshStamp) environment disk words
  store disk result.disk
  IO.print result.output
  IO.eprint result.failureText
  return UInt32.ofNat result.code

end Program
end CardInventory

/-- Runs the command line that the program is given. -/
def main (words : List String) : IO UInt32 := CardInventory.Program.run words
