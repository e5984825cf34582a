/-
# Times in UTC

A time is counted in nanoseconds from the beginning of 1970 and written as
`YYYY-MM-DDTHH:MM:SS.fZ`: the fraction has as many digits as it needs and is left out, with its
point, when it is zero. Dates follow the Gregorian calendar. A year is counted from March, so that
the day that comes and goes is its last.
-/

namespace CardInventory
namespace Clock

/-- A day of the calendar. -/
structure Date where
  year : Nat
  month : Nat
  day : Nat
  deriving DecidableEq, Repr

/-- The date of the day that comes `days` days after the first of 1970. Eras of 400 years have
146097 days each and begin with the March of a year that 400 divides. -/
def Date.ofDays (days : Nat) : Date :=
  let shifted := days + 719468
  let inEra := shifted % 146097
  let yearInEra := (inEra - inEra / 1460 + inEra / 36524 - inEra / 146096) / 365
  let inYear := inEra - (365 * yearInEra + yearInEra / 4 - yearInEra / 100)
  let monthFromMarch := (5 * inYear + 2) / 153
  let month := if monthFromMarch < 10 then monthFromMarch + 3 else monthFromMarch - 9
  let year := shifted / 146097 * 400 + yearInEra
  { year := if month ≤ 2 then year + 1 else year
    month
    day := inYear - (153 * monthFromMarch + 2) / 5 + 1 }

/-- A number in at least `width` decimal digits. -/
def padded (width n : Nat) : List Char :=
  let ds := Nat.toDigits 10 n
  List.replicate (width - ds.length) '0' ++ ds

/-- The fraction of a second after its point, without zeros at the end. -/
def fraction (nanoseconds : Nat) : List Char :=
  match ((padded 9 nanoseconds).reverse.dropWhile (· == '0')).reverse with
  | [] => []
  | ds => '.' :: ds

/-- The text of a time in nanoseconds from the beginning of 1970. -/
def render (time : Nat) : String :=
  let seconds := time / 1000000000
  let date := Date.ofDays (seconds / 86400)
  String.ofList <|
    padded 4 date.year ++ ['-'] ++ padded 2 date.month ++ ['-'] ++ padded 2 date.day ++ ['T'] ++
      padded 2 (seconds / 3600 % 24) ++ [':'] ++ padded 2 (seconds / 60 % 60) ++ [':'] ++
      padded 2 (seconds % 60) ++ fraction (time % 1000000000) ++ ['Z']

end Clock
end CardInventory
