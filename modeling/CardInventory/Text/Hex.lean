/-
# Hexadecimal digits

Digits are read in either letter case and written in lower case. A number is written with a fixed
count of digits, the most significant first.
-/

namespace CardInventory
namespace Text
namespace Hex

/-- The value of the last digit of a number. -/
def last (n : Nat) : Fin 16 := Fin.ofNat 16 n

/-- The value of a digit, in either letter case. -/
def value? (c : Char) : Option (Fin 16) :=
  let n := c.toNat
  if 0x30 ≤ n ∧ n ≤ 0x39 then some (last (n - 0x30))
  else if 0x61 ≤ n ∧ n ≤ 0x66 then some (last (n - 0x61 + 10))
  else if 0x41 ≤ n ∧ n ≤ 0x46 then some (last (n - 0x41 + 10))
  else none

/-- The digit of a value, in lower case. -/
def digit (d : Fin 16) : Char :=
  if d.val < 10 then Char.ofNat (0x30 + d.val) else Char.ofNat (0x61 + d.val - 10)

/-- The last `width` digits of `n`. -/
def fixed : (width : Nat) → (n : Nat) → List Char
  | 0, _ => []
  | width + 1, n => fixed width (n / 16) ++ [digit (last n)]

/-- The number that a string of digits spells, the most significant first. -/
def toNat (ds : List (Fin 16)) : Nat := ds.foldl (fun n d => 16 * n + d.val) 0

/-- All values of a text that holds digits only. -/
def values? (cs : List Char) : Option (List (Fin 16)) := cs.mapM value?

end Hex
end Text
end CardInventory
