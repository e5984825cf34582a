import CardInventory.Files.Reader
import CardInventory.Text.Blank

/-
# Reading through an operating system

An operating system is asked for the text of a file, for the names in a directory, which come in
any order and may be damaged, and whether a path leads to something. A scan is given the text
without the blanks at its ends and the names as they are shown, sorted.
-/

namespace CardInventory

/-- The calls of an operating system that a scan makes. -/
structure System where
  /-- The content of a file that is text. -/
  readText : Path → Except FileError String
  /-- The names in a directory, in the order of the system. -/
  readNames : Path → Except FileError (List RawText)
  /-- Does a path lead to an entry? -/
  present : Path → Bool

namespace System

/-- The content of a file without the blanks at its ends. -/
def read (system : System) (path : Path) : Except FileError String :=
  (system.readText path).map Text.trim

/-- The names in a directory in ascending order; damaged names are shown as text and may be
equal then. -/
def list (system : System) (path : Path) : Except FileError (List String) :=
  (system.readNames path).map fun names =>
    (names.map RawText.lossy).mergeSort fun a b => decide (a ≤ b)

/-- The files of the system as a scan sees them. -/
def reader (system : System) : Reader := .ofListing system.read system.list system.present

end System
end CardInventory
