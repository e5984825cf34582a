/-
# The shortest decimal of a binary64 number

A finite number other than zero has many decimals that read back as it. Chosen are the fewest
digits that do, of those the decimal nearest to the number, and of two equally near the one with
an even last digit. All comparisons are exact, in natural numbers.
-/

namespace CardInventory
namespace Decimal

/-- A positive number as `significand * 2 ^ exponent`, read off the bits of a binary64. -/
structure Binary where
  significand : Nat
  exponent : Int
  /-- Is the number below nearer than the number above? -/
  lopsided : Bool

/-- The size of a finite binary64 number, its sign left out. -/
def Binary.ofBits (bits : UInt64) : Binary :=
  let fraction : Nat := bits.toNat % Nat.pow 2 52
  let biased : Nat := bits.toNat / Nat.pow 2 52 % Nat.pow 2 11
  if biased = 0 then { significand := fraction, exponent := -1074, lopsided := false }
  else {
    significand := Nat.pow 2 52 + fraction
    exponent := (biased : Int) - 1075
    lopsided := fraction = 0 && 1 < biased }

/-- A decimal `digits * 10 ^ exponent`. -/
structure Scientific where
  digits : Nat
  exponent : Int
  deriving DecidableEq, Repr

/-- A positive rational number. -/
structure Ratio where
  num : Nat
  den : Nat

namespace Ratio

/-- The ratio `n * 2 ^ e`. -/
def ofBinary (n : Nat) (e : Int) : Ratio := ⟨n * Nat.pow 2 e.toNat, Nat.pow 2 (-e).toNat⟩

/-- The ratio times a power of ten. -/
def shift (r : Ratio) (e : Int) : Ratio :=
  ⟨r.num * Nat.pow 10 e.toNat, r.den * Nat.pow 10 (-e).toNat⟩

/-- The whole part. -/
def floor (r : Ratio) : Nat := r.num / r.den

/-- Compares two ratios. -/
def compare (r s : Ratio) : Ordering := Ord.compare (r.num * s.den) (s.num * r.den)

/-- How far a ratio is from a whole number, in units of its denominator. -/
def distance (r : Ratio) (n : Nat) : Nat :=
  (r.num - n * r.den) + (n * r.den - r.num)

end Ratio

/-- The exponent of the leading digit, by trying `fuel` places downward from `start`. -/
def leadingPlace (r : Ratio) : (fuel : Nat) → (start : Int) → Int
  | 0, place => place
  | fuel + 1, place =>
    if 0 < (r.shift (-place)).floor then place else leadingPlace r fuel (place - 1)

/-- The best whole number for `value` among its two neighbours that are in the interval. -/
def bestNeighbour (value : Ratio) (inside : Nat → Bool) : Option Nat :=
  let below := value.floor
  match inside below, inside (below + 1) with
  | true, true =>
    match Ord.compare (value.distance below) (value.distance (below + 1)) with
    | .lt => some below
    | .gt => some (below + 1)
    | .eq => some (if below % 2 = 0 then below else below + 1)
  | true, false => some below
  | false, true => some (below + 1)
  | false, false => none

/-- Drops the zeros at the end, at most `fuel` of them. -/
def Scientific.dropZeros : (fuel : Nat) → Scientific → Scientific
  | 0, d => d
  | fuel + 1, d =>
    if d.digits ≠ 0 ∧ d.digits % 10 = 0 then dropZeros fuel ⟨d.digits / 10, d.exponent + 1⟩ else d

/-- Tries one digit, two digits and so on, `fuel` times, until a decimal reads back. -/
def search (value low high : Ratio) (closed : Bool) (place : Int) :
    (fuel : Nat) → (count : Int) → Scientific
  | 0, count => ⟨(value.shift (count - 1 - place)).floor, place - count + 1⟩
  | fuel + 1, count =>
    let unit := count - 1 - place
    let inside (n : Nat) : Bool :=
      match (low.shift unit).compare ⟨n, 1⟩, Ratio.compare ⟨n, 1⟩ (high.shift unit) with
      | .lt, .lt => true
      | .eq, .lt => closed
      | .lt, .eq => closed
      | _, _ => false
    match bestNeighbour (value.shift unit) inside with
    | some n => Scientific.dropZeros 20 ⟨n, -unit⟩
    | none => search value low high closed place fuel (count + 1)

/-- The shortest decimal that reads back as the given positive number. -/
def shortest (b : Binary) : Scientific :=
  let quarter := b.exponent - 2
  let value := Ratio.ofBinary (4 * b.significand) quarter
  let high := Ratio.ofBinary (4 * b.significand + 2) quarter
  let low := Ratio.ofBinary (4 * b.significand - if b.lopsided then 1 else 2) quarter
  search value low high (b.significand % 2 = 0) (leadingPlace value 640 309) 17 1

end Decimal
end CardInventory
