import CardInventory.Json.Tree
import CardInventory.Text.Quoted

/-
# Values of the wrong kind

What may be wrong with a JSON text from which a value of some type is to be read: it is no JSON, or
it holds a value that does not fit. The wording of each cause is here and nowhere else.
-/

namespace CardInventory
namespace Json

/-- What stands where something else was expected. -/
inductive Found where
  | null
  | bool (b : Bool)
  | integer (z : Int)
  | float (bits : UInt64)
  | text (s : String)
  | sequence
  | map
  deriving DecidableEq, Repr

/-- The wording of what was found. -/
def Found.describe : Found → String
  | null => "null"
  | bool true => "boolean `true`"
  | bool false => "boolean `false`"
  | integer z => "integer `" ++ integerText z ++ "`"
  | float bits => "floating point `" ++ String.ofList (Number.floatChars bits) ++ "`"
  | text s => "string " ++ Text.quote s
  | sequence => "sequence"
  | map => "map"

/-- Why a value does not fit. -/
inductive Mismatch where
  | wrongKind (found : Found) (expected : String)
  | outOfRange (found : Int) (expected : String)
  | unknownVariant (name : String) (expected : List String)
  | missingField (name : String)
  | duplicateField (name : String)
  | tooShort (length : Nat) (record : String) (fields : Nat)
  | badUuid
  deriving DecidableEq, Repr

/-- Names between backticks, the last one after an `or`. -/
def alternatives : List String → String
  | [] => "nothing"
  | [a] => "`" ++ a ++ "`"
  | [a, b] => "`" ++ a ++ "` or `" ++ b ++ "`"
  | names => "one of " ++ String.intercalate ", " (names.map fun a => "`" ++ a ++ "`")

/-- The message of a mismatch. -/
def Mismatch.message : Mismatch → String
  | wrongKind found expected => "invalid type: " ++ found.describe ++ ", expected " ++ expected
  | outOfRange found expected =>
    "invalid value: integer `" ++ integerText found ++ "`, expected " ++ expected
  | unknownVariant name expected =>
    "unknown variant `" ++ name ++ "`, expected " ++ alternatives expected
  | missingField name => "missing field `" ++ name ++ "`"
  | duplicateField name => "duplicate field `" ++ name ++ "`"
  | tooShort length record fields =>
    "invalid length " ++ integerText length ++ ", expected struct " ++ record ++ " with " ++
      integerText fields ++ (if fields = 1 then " element" else " elements")
  | badUuid => "UUID parsing failed"

/-- Why a text gives no value. -/
inductive DecodeError where
  /-- The text is not JSON. -/
  | notJson
  /-- The first value of the wrong kind comes before any fault of the text. -/
  | unfit (m : Mismatch)
  deriving DecidableEq, Repr

namespace Tree

/-- What a tree holds, if it is known without looking behind an opening bracket. -/
def found? : Tree → Option Found
  | null => some .null
  | bool b => some (.bool b)
  | number l => l.value?.map fun
    | .natural n => .integer n
    | .negative n => .integer (-n)
    | .float bits => .float bits
  | text units => (unitText? units).map .text
  | array _ _ => some .sequence
  | object _ _ => some .map
  | fault => none

/-- The error of a tree that is not of the expected kind. -/
def refuse {α : Type} (t : Tree) (expected : String) : Except DecodeError α :=
  match t.found? with
  | some found => .error (.unfit (.wrongKind found expected))
  | none => .error .notJson

/-- Reads a text. -/
def asText (t : Tree) (expected : String) : Except DecodeError String :=
  match t with
  | .text units =>
    match unitText? units with
    | some s => .ok s
    | none => .error .notJson
  | t => t.refuse expected

/-- Reads a whole number below `limit`, `name` being that of the range. -/
def asWhole (t : Tree) (limit : Nat) (name : String) : Except DecodeError (Fin limit) :=
  match t with
  | .number l =>
    match l.value? with
    | some (.natural n) =>
      if h : n < limit then .ok ⟨n, h⟩ else .error (.unfit (.outOfRange n name))
    | some (.negative n) => .error (.unfit (.outOfRange (-n) name))
    | some (.float bits) => .error (.unfit (.wrongKind (.float bits) name))
    | none => .error .notJson
  | t => t.refuse name

end Tree
end Json
end CardInventory
