import CardInventory.Files.System

/-
# A disk

A disk is a list of entries, each a directory, a file or a symbolic link at a place; a place is the
names on the way to it from the root directory. The root directory is always there. What is asked
of a disk is answered as an operating system answers it: a path is walked step by step, links are
followed on the way, and each way to fail has its error. The bytes of a path are counted before the
walk, those of a name when its directory is searched.

The entries of a directory come in the order of the list, which is no order to rely on.
-/

namespace CardInventory

/-- The names on the way to an entry from the root directory. -/
abbrev Place := List RawText

/-- What may be at a place. -/
inductive Entry where
  | directory
  | file (content : RawText)
  | link (target : RawText)
  deriving DecidableEq, Repr

/-- A disk as one process sees it. -/
structure Disk where
  entries : List (Place × Entry) := []
  /-- Where relative paths start. -/
  workingDirectory : Place := []

/-- Where the walk along a path ends: at an entry, or in a directory that has none of the last
name. -/
inductive Landing where
  | found (place : Place)
  | vacant (place : Place)
  deriving DecidableEq, Repr

namespace Disk

/-- What is at a place. -/
def entry? (d : Disk) (place : Place) : Option Entry :=
  if place = [] then some .directory else d.entries.lookup place

/-- Is there a directory at a place? -/
def isDirectory (d : Disk) (place : Place) : Bool := d.entry? place = some .directory

/-- Where a route starts. -/
def start (d : Disk) (absolute : Bool) : Place := if absolute then [] else d.workingDirectory

/-! ## Walking -/

/-- The most bytes that a name may have. -/
def nameLimit : Nat := 255

/-- The most bytes that a spelled path may have. -/
def pathLimit : Nat := 4095

/-- The route of a spelled path, each step as it is spelled. A path with a NUL character or with
too many bytes is refused before any step is taken. -/
def routeOf (path : RawText) : Except FileError Route :=
  if .char '\x00' ∈ path.pieces then .error .nulInPath
  else if pathLimit < path.size then .error .nameTooLong
  else .ok (Route.ofText path)

/-- Walks along steps from a place. `follow` goes on from a link: it is given the place that the
target starts at and the steps of the target, then of the rest. -/
def walk (d : Disk) (follow : Place → List Step → Except FileError Landing) :
    Place → List Step → Except FileError Landing
  | place, [] => .ok (.found place)
  | place, step :: rest =>
    if d.isDirectory place then
      match step with
      | .here => walk d follow place rest
      | .up => walk d follow place.dropLast rest
      | .name n =>
        if nameLimit < n.size then .error .nameTooLong
        else match d.entry? (place ++ [n]) with
        | none => if rest.isEmpty then .ok (.vacant (place ++ [n])) else .error .missing
        | some (.link target) =>
          let route := Route.ofText target
          follow (if route.absolute then [] else place) (route.steps ++ rest)
        | some _ => walk d follow (place ++ [n]) rest
    else .error .notDirectory

/-- Walks along steps from a place, following at most `links` links. -/
def walkLinks (d : Disk) : (links : Nat) → Place → List Step → Except FileError Landing
  | 0 => d.walk fun _ _ => .error .linkLoop
  | links + 1 => d.walk (d.walkLinks links)

/-- Where a route leads. At most 40 links are followed. -/
def land (d : Disk) (route : Route) : Except FileError Landing :=
  if route.isEmpty then .error .missing
  else d.walkLinks 40 (d.start route.absolute) route.steps

/-- The place of the entry that a route leads to. -/
def locate (d : Disk) (route : Route) : Except FileError Place :=
  match d.land route with
  | .ok (.found place) => .ok place
  | .ok (.vacant _) => .error .missing
  | .error e => .error e

/-! ## Reading -/

/-- The content of the file that a route leads to. -/
def content (d : Disk) (route : Route) : Except FileError RawText := do
  match d.entry? (← d.locate route) with
  | some (.file content) => return content
  | _ => throw .isDirectory

/-- The names in a directory, in the order of the disk. -/
def namesIn (d : Disk) (dir : Place) : List RawText :=
  d.entries.filterMap fun e => if e.1.dropLast = dir then e.1.getLast? else none

/-- The disk behind the calls of an operating system. -/
def system (d : Disk) : System where
  readText path := do
    let content ← d.content (← routeOf path.raw)
    match content.toString? with
    | some s => return s
    | none => throw .notUtf8
  readNames path := do
    let place ← d.locate (← routeOf path.raw)
    if d.isDirectory place then return d.namesIn place else throw .notDirectory
  present path := (routeOf path.raw >>= d.locate).isOk

/-- The names in a directory as a scan is given them. -/
def list (d : Disk) (path : Path) : Except FileError (List String) := d.system.list path

/-- The disk as a scan sees it. -/
def reader (d : Disk) : Reader := d.system.reader

/-! ## Writing -/

/-- Puts an entry at a place, over what is there. -/
def set (d : Disk) (place : Place) (entry : Entry) : Disk :=
  if d.entries.any fun e => e.1 = place then
    { d with entries := d.entries.map fun e => if e.1 = place then (place, entry) else e }
  else { d with entries := d.entries ++ [(place, entry)] }

/-- The place for a new entry at the end of a route; there must be none, not even a link. -/
def vacancy (d : Disk) (route : Route) : Except FileError Place := do
  match route.normal.parent?, route.normal.fileName? with
  | some dir, some name =>
    let place ←
      if dir.isEmpty then pure d.workingDirectory else d.locate dir
    if !d.isDirectory place then throw .notDirectory
    else if nameLimit < name.size then throw .nameTooLong
    else if (d.entry? (place ++ [name])).isSome then throw .alreadyExists
    else return place ++ [name]
  | some _, none =>
    let _ ← d.locate route
    throw .alreadyExists
  | none, _ => throw (if route.isEmpty then .missing else .alreadyExists)

/-- Makes a directory. -/
def makeDirectory (d : Disk) (route : Route) : Except FileError Disk :=
  (d.vacancy route).map fun place => d.set place .directory

/-- Does a route lead to a directory? -/
def leadsToDirectory (d : Disk) (route : Route) : Bool :=
  match d.locate route with
  | .ok place => d.isDirectory place
  | .error _ => false

/-- Makes the directory of the first route. The others are those above it, nearest first; they are
made as far as they are missing. What was made stays when a later step fails. -/
def makeChain (d : Disk) : List Route → Disk × Except FileError Unit
  | [] => (d, .ok ())
  | route :: above =>
    match d.makeDirectory route with
    | .ok d => (d, .ok ())
    | .error .missing =>
      match makeChain d above with
      | (d, .error e) => (d, .error e)
      | (d, .ok ()) =>
        match d.makeDirectory route with
        | .ok d => (d, .ok ())
        | .error e => (d, if d.leadsToDirectory route then .ok () else .error e)
    | .error e => (d, if d.leadsToDirectory route then .ok () else .error e)

/-- Makes a directory and those above it, as far as they are missing. -/
def makeDirectories (d : Disk) (path : RawText) : Disk × Except FileError Unit :=
  match routeOf path with
  | .ok route => d.makeChain route.normal.lineage.reverse
  | .error e => (d, .error e)

/-- Writes a file, over the one that is there. -/
def writeFile (d : Disk) (path content : RawText) : Except FileError Disk := do
  match ← d.land (← routeOf path) with
  | .vacant place => return d.set place (.file content)
  | .found place =>
    if d.isDirectory place then throw .isDirectory else return d.set place (.file content)

end Disk
end CardInventory
