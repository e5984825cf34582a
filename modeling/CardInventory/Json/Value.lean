import CardInventory.Json.Number
import CardInventory.Text.Hex

/-
# JSON values and their texts

A value keeps its members in the order in which they are written. There are two styles: compact,
without any blank, and pretty, with two spaces of indentation for each level. In both, an empty
array or object is two brackets, and a text escapes the double quote, the backslash and the
characters below U+0020, nothing else.
-/

namespace CardInventory

/-- A JSON value. -/
inductive Json where
  | null
  | bool (b : Bool)
  | number (n : Json.Number)
  | text (s : String)
  | array (items : List Json)
  | object (members : List (String × Json))

namespace Json

/-- One character of a text between its quotes. -/
def escapeChar (c : Char) : List Char :=
  match c with
  | '"' => ['\\', '"']
  | '\\' => ['\\', '\\']
  | '\x08' => ['\\', 'b']
  | '\x0c' => ['\\', 'f']
  | '\n' => ['\\', 'n']
  | '\r' => ['\\', 'r']
  | '\t' => ['\\', 't']
  | c => if c.toNat < 0x20 then ['\\', 'u', '0', '0'] ++ Text.Hex.fixed 2 c.toNat else [c]

/-- A text between double quotes. -/
def textChars (s : String) : List Char := ['"'] ++ s.toList.flatMap escapeChar ++ ['"']

/-- Where blanks stand in a text. -/
structure Style where
  /-- What precedes an item or a closing bracket at a depth. -/
  gap : (depth : Nat) → List Char
  /-- What stands between a key and its value. -/
  colon : List Char

/-- No blanks. -/
def Style.compact : Style := ⟨fun _ => [], [':']⟩

/-- A line for each item, indented by two spaces a level. -/
def Style.pretty : Style := ⟨fun depth => '\n' :: List.replicate (2 * depth) ' ', [':', ' ']⟩

/-- Items between brackets, `depth` being that of the brackets. -/
def Style.enclose (st : Style) (depth : Nat) (left right : Char) : List (List Char) → List Char
  | [] => [left, right]
  | items =>
    [left] ++ st.gap (depth + 1) ++ List.intercalate (',' :: st.gap (depth + 1)) items ++
      st.gap depth ++ [right]

mutual

/-- The characters of a value that stands at a depth. -/
def chars (st : Style) (depth : Nat) : Json → List Char
  | null => ['n', 'u', 'l', 'l']
  | bool true => ['t', 'r', 'u', 'e']
  | bool false => ['f', 'a', 'l', 's', 'e']
  | number n => n.chars
  | text s => textChars s
  | array items => st.enclose depth '[' ']' (itemChars st (depth + 1) items)
  | object members => st.enclose depth '\x7b' '\x7d' (memberChars st (depth + 1) members)

/-- The characters of each item. -/
def itemChars (st : Style) (depth : Nat) : List Json → List (List Char)
  | [] => []
  | item :: rest => chars st depth item :: itemChars st depth rest

/-- The characters of each member. -/
def memberChars (st : Style) (depth : Nat) : List (String × Json) → List (List Char)
  | [] => []
  | (key, value) :: rest =>
    (textChars key ++ st.colon ++ chars st depth value) :: memberChars st depth rest

end

/-- The text of a value in a style. -/
def render (st : Style) (j : Json) : String := String.ofList (chars st 0 j)

/-- The text without blanks. -/
def compact (j : Json) : String := j.render .compact

/-- The indented text. -/
def pretty (j : Json) : String := j.render .pretty

end Json
end CardInventory
