import CardInventory.Text.Hex

/-
# UUIDs

A UUID is 32 hexadecimal digits. It is written in lower case in five groups that hyphens separate.
It is also read without hyphens, in braces or after `urn:uuid:`, in either letter case.
-/

namespace CardInventory

/-- A 128-bit identifier, as its digits. -/
structure Uuid where
  digits : List (Fin 16)
  length_digits : digits.length = 32
  deriving DecidableEq

namespace Uuid

/-- The UUID with the given digits, if there are 32. -/
def ofDigits? (ds : List (Fin 16)) : Option Uuid :=
  if h : ds.length = 32 then some ⟨ds, h⟩ else none

/-- The lengths of the groups. -/
def groups : List Nat := [8, 4, 4, 4, 12]

/-- Cuts a list into stretches of given lengths. -/
def cut {α : Type} : List Nat → List α → List (List α)
  | [], _ => []
  | n :: ns, l => l.take n :: cut ns (l.drop n)

/-- The characters of the written form. -/
def chars (u : Uuid) : List Char :=
  List.intercalate ['-'] (cut groups (u.digits.map Text.Hex.digit))

/-- The written form. -/
def render (u : Uuid) : String := String.ofList u.chars

/-- Reads the digits of five groups. -/
def readGroups? (cs : List Char) : Option Uuid :=
  let parts := cs.splitOn '-'
  if parts.map List.length = groups then (Text.Hex.values? parts.flatten).bind ofDigits? else none

/-- Reads any of the four forms; their lengths tell them apart. -/
def readChars? (cs : List Char) : Option Uuid :=
  match cs.length with
  | 32 => (Text.Hex.values? cs).bind ofDigits?
  | 36 => readGroups? cs
  | 38 => if cs.head? = some '\x7b' ∧ cs.getLast? = some '\x7d' then
      readGroups? (cs.drop 1).dropLast else none
  | 45 => if (cs.take 9).map Char.toLower = "urn:uuid:".toList then readGroups? (cs.drop 9)
      else none
  | _ => none

/-- Reads any of the four forms. -/
def parse? (s : String) : Option Uuid := readChars? s.toList

/-- A random UUID from random bytes: of version 4, the digit after the version being 8, 9, a
or b. Missing bytes count as zero. -/
def ofRandom (bytes : List UInt8) : Uuid :=
  let digits := bytes.flatMap fun b => [Text.Hex.last (b.toNat / 16), Text.Hex.last b.toNat]
  let padded := (digits ++ List.replicate 32 (Text.Hex.last 0)).take 32
  ⟨(padded.set 12 (Text.Hex.last 4)).modify 16 fun d => Text.Hex.last (8 + d.val % 4),
    by simp [padded]⟩

end Uuid
end CardInventory
