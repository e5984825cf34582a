import CardInventory.Files.Reader
import CardInventory.Pci.Address

/-
# Failures of a run

What ends a run without a result: a message on top, and below it the error that led to it.
-/

namespace CardInventory

/-- Why a run ends without a result. -/
inductive Failure where
  /-- The directory of all functions cannot be listed. -/
  | listFunctions (root : Path) (cause : FileError)
  /-- The directory of a report cannot be made. -/
  | makeBundle (root : Path) (cause : FileError)
  | writeFile (path : Path) (cause : FileError)
  | badAddress (error : PciAddress.ParseError)
  deriving DecidableEq, Repr

namespace Failure

/-- The message on top. -/
def message : Failure → String
  | listFunctions root _ => "read " ++ root.text
  | makeBundle root _ => "create " ++ root.text
  | writeFile path _ => "write " ++ path.text
  | badAddress error => error.message

/-- The error that led to it, where there is one. -/
def cause? : Failure → Option FileError
  | listFunctions _ cause => some cause
  | makeBundle _ cause => some cause
  | writeFile _ cause => some cause
  | badAddress _ => none

/-- The whole text of a failure: the cause stands indented under a heading of its own. -/
def report (f : Failure) : String :=
  let below := match f.cause? with
    | none => ""
    | some cause => "\nCaused by:\n    " ++ cause.message ++ "\n"
  "Error: " ++ f.message ++ "\n" ++ below

end Failure
end CardInventory
