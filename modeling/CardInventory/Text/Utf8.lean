import CardInventory.Text.Raw

/-
# Bytes read as UTF-8

A decoder that reads one byte at a time. Bytes that cannot start or go on with a character form a
damaged stretch: one for each longest run that is the start of some character, or else one for a
single byte. Overlong forms, surrogates and numbers above U+10FFFF are refused by the range of the
second byte.
-/

namespace CardInventory
namespace Utf8

/-- A character of which the first bytes have been read. -/
structure Partial where
  /-- The bytes so far. -/
  taken : List UInt8
  /-- The bits so far. -/
  bits : Nat
  /-- How many bytes are still to come, less one. -/
  after : Nat
  /-- The least next byte. -/
  low : UInt8 := 0x80
  /-- The greatest next byte. -/
  high : UInt8 := 0xbf

/-- What the first byte of a character says: all of it, its length, or that it is none. -/
def first (b : UInt8) : Piece ⊕ Partial :=
  let two := b.toNat - 0xc0
  let three := b.toNat - 0xe0
  let four := b.toNat - 0xf0
  if b < 0x80 then .inl (.char (Char.ofNat b.toNat))
  else if b < 0xc2 then .inl (.junk [b])
  else if b < 0xe0 then .inr { taken := [b], bits := two, after := 0 }
  else if b = 0xe0 then .inr { taken := [b], bits := three, after := 1, low := 0xa0 }
  else if b = 0xed then .inr { taken := [b], bits := three, after := 1, high := 0x9f }
  else if b < 0xf0 then .inr { taken := [b], bits := three, after := 1 }
  else if b = 0xf0 then .inr { taken := [b], bits := four, after := 2, low := 0x90 }
  else if b < 0xf4 then .inr { taken := [b], bits := four, after := 2 }
  else if b = 0xf4 then .inr { taken := [b], bits := four, after := 2, high := 0x8f }
  else .inl (.junk [b])

/-- Reads on, in the middle of a character or between two. -/
def resume : Option Partial → List UInt8 → List Piece
  | none, [] => []
  | some p, [] => [.junk p.taken]
  | none, b :: rest =>
    match first b with
    | .inl piece => piece :: resume none rest
    | .inr p => resume (some p) rest
  | some p, b :: rest =>
    if p.low ≤ b ∧ b ≤ p.high then
      let bits := 64 * p.bits + (b.toNat - 0x80)
      match p.after with
      | 0 => .char (Char.ofNat bits) :: resume none rest
      | n + 1 => resume (some { taken := p.taken ++ [b], bits, after := n }) rest
    else
      match first b with
      | .inl piece => .junk p.taken :: piece :: resume none rest
      | .inr q => .junk p.taken :: resume (some q) rest

/-- The bytes as raw text. -/
def decode (bytes : List UInt8) : RawText := ⟨resume none bytes⟩

end Utf8
end CardInventory
