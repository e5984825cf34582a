import CardInventory.Decimal.Shortest

/-
# JSON numbers

A number is a natural number below 2^64, the negative of one up to 2^63, or a binary64. A whole
number is written in decimal digits. A binary64 is written as the shortest decimal that reads back
as it: with a point where its leading digit is worth at least 10^-5 and less than 10^16, with an
exponent otherwise.

A literal is what a text holds. Its value is computed on 64 bits: digits that no longer fit only
count as places, and the power of ten is applied by one multiplication or division.
-/

namespace CardInventory
namespace Json

/-- A number of a JSON value. -/
inductive Number where
  | natural (n : Nat)
  /-- The number `-n`. -/
  | negative (n : Nat)
  /-- The binary64 with these bits. -/
  | float (bits : UInt64)
  deriving DecidableEq, Repr

/-- The decimal digits of a natural number. -/
def decimal (n : Nat) : List Char := Nat.toDigits 10 n

/-- A whole number in decimal digits, after a minus sign if it is negative. -/
def integerText (z : Int) : String :=
  String.ofList (if z < 0 then '-' :: decimal z.natAbs else decimal z.natAbs)

namespace Number

/-- A decimal with digits `ds`, the point standing `point` places after the first digit's left. -/
def placePoint (ds : List Char) (point : Int) : List Char :=
  if ds.length ≤ point ∧ point ≤ 16 then
    ds ++ List.replicate (point.toNat - ds.length) '0' ++ ['.', '0']
  else if 0 < point ∧ point ≤ 16 then
    ds.take point.toNat ++ ['.'] ++ ds.drop point.toNat
  else if -5 < point ∧ point ≤ 0 then
    ['0', '.'] ++ List.replicate (-point).toNat '0' ++ ds
  else
    let fraction := match ds.drop 1 with
      | [] => []
      | rest => '.' :: rest
    let exponent := point - 1
    ds.take 1 ++ fraction ++ ['e', if exponent < 0 then '-' else '+'] ++ decimal exponent.natAbs

/-- The text of a finite binary64. -/
def floatChars (bits : UInt64) : List Char :=
  let size := bits.toNat % Nat.pow 2 63
  let text :=
    if size = 0 then ['0', '.', '0']
    else
      let d := Decimal.shortest (Decimal.Binary.ofBits bits)
      let ds := decimal d.digits
      placePoint ds (ds.length + d.exponent)
  if Nat.pow 2 63 ≤ bits.toNat then '-' :: text else text

/-- The text of a number. -/
def chars : Number → List Char
  | natural n => decimal n
  | negative n => '-' :: decimal n
  | float bits => floatChars bits

end Number

/-- A number as a text spells it: its digits before the point, after it and in the exponent. -/
structure NumberLiteral where
  minus : Bool
  whole : List Char
  fraction : Option (List Char)
  /-- Whether the exponent is negative, and its digits. -/
  exponent : Option (Bool × List Char)
  deriving DecidableEq, Repr

namespace NumberLiteral

/-- A significand of at most 64 bits and how many places it is to be moved. -/
structure Scaled where
  significand : Nat
  places : Int

/-- Takes in one more digit, unless it does not fit in 64 bits. -/
def Scaled.push? (s : Scaled) (digit : Char) : Option Nat :=
  let n := 10 * s.significand + (digit.toNat - '0'.toNat)
  if n < Nat.pow 2 64 then some n else none

/-- The digits before the point: once one does not fit, it and the rest count as places. -/
def takeWhole (s : Scaled) : List Char → Scaled
  | [] => s
  | d :: ds =>
    match s.push? d with
    | some n => takeWhole { s with significand := n } ds
    | none => { s with places := s.places + (ds.length + 1 : Nat) }

/-- The digits after the point: once one does not fit, it and the rest are dropped. -/
def takeFraction (s : Scaled) : List Char → Scaled
  | [] => s
  | d :: ds =>
    match s.push? d with
    | some n => takeFraction { significand := n, places := s.places - 1 } ds
    | none => s

/-- The value of decimal digits. -/
def digitsValue (ds : List Char) : Nat := Nat.ofDigitChars 10 ds 0

/-- A binary64 times a power of ten, or none beyond the greatest one. A number that is divided by
`10 ^ 308` twice is zero, so that few steps are enough. -/
def scale : (fuel : Nat) → Float → Int → Option Float
  | 0, f, _ => some f
  | fuel + 1, f, places =>
    if places.natAbs ≤ 308 then
      let power := Float.ofScientific 1 false places.natAbs
      if 0 ≤ places then
        let g := f * power
        if g.isInf then none else some g
      else some (f / power)
    else if f == 0.0 then some f
    else if 0 ≤ places then none
    else scale fuel (f / Float.ofScientific 1 false 308) (places + 308)

/-- The binary64 of a literal, or none beyond the greatest one. -/
def toFloat? (l : NumberLiteral) : Option Float :=
  let s := takeFraction (takeWhole ⟨0, 0⟩ l.whole) (l.fraction.getD [])
  let exponent : Int := match l.exponent with
    | none => 0
    | some (true, ds) => -(digitsValue ds : Int)
    | some (false, ds) => digitsValue ds
  (scale 4 (UInt64.ofNat s.significand).toFloat (s.places + exponent)).map fun f =>
    if l.minus then -f else f

/-- The value of a literal, or none beyond the greatest binary64. A literal without point and
exponent is a whole number, unless it is out of range or a negative zero. -/
def value? (l : NumberLiteral) : Option Number :=
  let n := digitsValue l.whole
  let float := l.toFloat?.map fun f => Number.float f.toBits
  if l.fraction.isSome || l.exponent.isSome then float
  else if l.minus then if 0 < n ∧ n ≤ Nat.pow 2 63 then some (.negative n) else float
  else if n < Nat.pow 2 64 then some (.natural n) else float

end NumberLiteral
end Json
end CardInventory
