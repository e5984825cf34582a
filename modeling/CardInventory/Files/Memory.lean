import CardInventory.Files.Reader
import CardInventory.SortedMap
import CardInventory.Text.Blank

/-
# A file tree in memory

Files and directories under the normal routes of their paths. Adding an entry adds the directories
above it; a file that is added again gets its new content. Nothing keeps a path from being both a
file and a directory.
-/

namespace CardInventory

/-- A file tree held in memory. -/
structure MemoryTree where
  /-- The files with their contents, the last added first. -/
  files : List (Route × String) := []
  /-- The directories, perhaps repeated. -/
  dirs : List Route := []

namespace MemoryTree

/-- Adds a directory and those above it. -/
def addDir (tree : MemoryTree) (path : Path) : MemoryTree :=
  { tree with dirs := path.route.lineage ++ tree.dirs }

/-- Adds a file and the directories above it. -/
def addFile (tree : MemoryTree) (path : Path) (content : String) : MemoryTree where
  files := (path.route, content) :: tree.files
  dirs := (path.route.parent?.map Route.lineage).getD [] ++ tree.dirs

/-- The routes of all entries. -/
def routes (tree : MemoryTree) : List Route := tree.dirs ++ tree.files.map (·.1)

/-- The content of a file without the blanks at its ends. -/
def read (tree : MemoryTree) (path : Path) : Except FileError String :=
  match tree.files.lookup path.route with
  | some content => .ok (Text.trim content)
  | none => .error (.absent path)

/-- The names of the entries right under a route. -/
def children (tree : MemoryTree) (dir : Route) : List String :=
  sortedNames <| (tree.routes.filter fun r => r.parent? = some dir).filterMap fun r =>
    r.fileName?.map RawText.lossy

/-- The names in a directory in ascending order, each once. -/
def list (tree : MemoryTree) (path : Path) : Except FileError (List String) :=
  if path.route ∈ tree.dirs then .ok (tree.children path.route) else .error (.absent path)

/-- Is there a file or a directory at a path? -/
def present (tree : MemoryTree) (path : Path) : Bool := path.route ∈ tree.routes

/-- The tree as a scan sees it. -/
def reader (tree : MemoryTree) : Reader := .ofListing tree.read tree.list tree.present

end MemoryTree
end CardInventory
