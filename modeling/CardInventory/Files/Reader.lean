import CardInventory.Path

/-
# Reading files

All that a scan asks of a file tree: the content of a file without blanks at its ends, the sorted
names in a directory, whether there is something at a path, and the first name in a directory that
begins in a given way.
-/

namespace CardInventory

/-- Why a file tree refuses a request. -/
inductive FileError where
  /-- A tree in memory has nothing at the path. -/
  | absent (path : Path)
  | denied
  | missing
  | notDirectory
  | isDirectory
  | alreadyExists
  | linkLoop
  /-- The path or one of its names has too many bytes. -/
  | nameTooLong
  /-- The path holds a NUL character. -/
  | nulInPath
  | notUtf8
  deriving DecidableEq, Repr

/-- The message of the error. -/
def FileError.message : FileError → String
  | absent path => path.text ++ " not found"
  | denied => "denied"
  | missing => "No such file or directory (os error 2)"
  | notDirectory => "Not a directory (os error 20)"
  | isDirectory => "Is a directory (os error 21)"
  | alreadyExists => "File exists (os error 17)"
  | linkLoop => "Too many levels of symbolic links (os error 40)"
  | nameTooLong => "File name too long (os error 36)"
  | nulInPath => "file name contained an unexpected NUL byte"
  | notUtf8 => "stream did not contain valid UTF-8"

/-- A file tree, as far as a scan sees it. -/
structure Reader where
  /-- The content of a file without the blanks at its ends. -/
  read : Path → Except FileError String
  /-- The names in a directory in ascending order. -/
  list : Path → Except FileError (List String)
  /-- Is there something at a path? -/
  present : Path → Bool
  /-- The first name in a directory that begins with a text. -/
  find : Path → String → Except FileError (Option String)

/-- Does `name` begin with `lead`? -/
def beginsWith (lead name : String) : Bool := lead.toList.isPrefixOf name.toList

namespace Reader

/-- The reader that looks names up in what it lists. -/
def ofListing (read : Path → Except FileError String)
    (list : Path → Except FileError (List String)) (present : Path → Bool) : Reader where
  read
  list
  present
  find dir lead := (list dir).map fun names => names.find? (beginsWith lead)

/-- What a reader is to refuse, by the exact spelling of a path or of the start of a name. -/
structure Denials where
  reads : List Path := []
  lists : List Path := []
  leads : List String := []

/-- The reader with some requests refused. -/
def denying (denials : Denials) (r : Reader) : Reader where
  read path := if path ∈ denials.reads then .error .denied else r.read path
  list path := if path ∈ denials.lists then .error .denied else r.list path
  present := r.present
  find dir lead :=
    if lead ∈ denials.leads ∨ dir ∈ denials.lists then .error .denied else r.find dir lead

end Reader
end CardInventory
