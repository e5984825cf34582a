import CardInventory.Text.Hex
import CardInventory.Text.Shapeless

/-
# Quoted text

How a text that came from outside is shown inside a message: between double quotes, with a
backslash before a double quote or a backslash, the line controls and NUL by their letters, and
every other character without a shape of its own by its number in braces. What is left stands for
itself, the single quote among it.
-/

namespace CardInventory
namespace Text

/-- The number of a character in hexadecimal digits, without leading zeros. -/
def codePoint (c : Char) : List Char := (Hex.fixed 6 c.toNat).dropWhile (· == '0')

/-- One character as it stands between the quotes. -/
def quoteChar (c : Char) : List Char :=
  match c with
  | '\x00' => ['\\', '0']
  | '\t' => ['\\', 't']
  | '\n' => ['\\', 'n']
  | '\r' => ['\\', 'r']
  | '"' => ['\\', '"']
  | '\\' => ['\\', '\\']
  | c => if isShapeless c then ['\\', 'u', '\x7b'] ++ codePoint c ++ ['\x7d'] else [c]

/-- The text between double quotes. -/
def quote (s : String) : String :=
  String.ofList (['"'] ++ s.toList.flatMap quoteChar ++ ['"'])

end Text
end CardInventory
