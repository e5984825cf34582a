import CardInventory.Json.Tree
import Mathlib.Data.List.Induction
import Mathlib.Data.List.TakeWhile

/-
# Numbers of JSON

A number is a minus sign or none, digits without a leading zero, and what may follow of a point with
digits and an exponent with digits (`SpellsNumber`). The reader goes as far as digits, points and
letters of exponents do. So it takes a number whole where none of these follows
(`readMagnitude?_append`), and what it takes is always a number (`exists_of_readMagnitude?`).

The decimal digits of a natural number are one, as none but zero starts with a zero
(`eq_nil_of_decimal_eq_zero_cons`), and below 2^64 their value is the number.
-/

namespace CardInventory
namespace Json

/-! ## The grammar of numbers -/

/-- Are these decimal digits, at least one? -/
structure Digits (ds : List Char) : Prop where
  ne_nil : ds ≠ []
  isDigit : ∀ c ∈ ds, c.isDigit = true

/-- A fraction is a point and digits, where there is one. -/
inductive SpellsFraction : List Char → Option (List Char) → Prop
  | none : SpellsFraction [] none
  | some {ds : List Char} (h : Digits ds) : SpellsFraction ('.' :: ds) (some ds)

/-- The signs of an exponent: a plus sign says as much as none. -/
inductive SpellsSign : List Char → (minus : Bool) → Prop
  | none : SpellsSign [] false
  | plus : SpellsSign ['+'] false
  | minus : SpellsSign ['-'] true

/-- An exponent is a letter `e` of either case, a sign and digits, where there is one. -/
inductive SpellsExponent : List Char → Option (Bool × List Char) → Prop
  | none : SpellsExponent [] none
  | some {letter : Char} {sign ds : List Char} {minus : Bool}
      (hletter : letter = 'e' ∨ letter = 'E') (hsign : SpellsSign sign minus) (h : Digits ds) :
      SpellsExponent (letter :: (sign ++ ds)) (some (minus, ds))

/-- What follows the sign of a number: digits, of which the first is a zero only if it stands alone,
a fraction and an exponent. -/
structure SpellsMagnitude (cs : List Char) (l : NumberLiteral) : Prop where
  whole : Digits l.whole
  zero : ∀ ds, l.whole = '0' :: ds → ds = []
  parts : ∃ fraction exponent, cs = l.whole ++ (fraction ++ exponent) ∧
    SpellsFraction fraction l.fraction ∧ SpellsExponent exponent l.exponent

/-- A number is a magnitude after a minus sign or none. -/
inductive SpellsNumber : List Char → NumberLiteral → Prop
  | positive {cs : List Char} {l : NumberLiteral} (hminus : l.minus = false)
      (h : SpellsMagnitude cs l) : SpellsNumber cs l
  | negative {cs : List Char} {l : NumberLiteral} (hminus : l.minus = true)
      (h : SpellsMagnitude cs l) : SpellsNumber ('-' :: cs) l

/-! ## Reading numbers -/

/-- Does a text go on with nothing that belongs to a number? -/
def EndsNumber (rest : List Char) : Prop :=
  ∀ c ∈ rest.head?, c.isDigit = false ∧ c ≠ '.' ∧ isExponentLetter c = false

/-- Does a text go on with no digit? -/
def EndsDigits (rest : List Char) : Prop := ∀ c ∈ rest.head?, c.isDigit = false

theorem EndsNumber.endsDigits {rest : List Char} (h : EndsNumber rest) : EndsDigits rest :=
  fun c hc => (h c hc).1

/-- Digits are read to the last one. -/
theorem readDigits_append {ds rest : List Char} (hds : ∀ c ∈ ds, c.isDigit = true)
    (hrest : EndsDigits rest) : readDigits (ds ++ rest) = (ds, rest) := by
  have hnone : rest.takeWhile Char.isDigit = [] ∧ rest.dropWhile Char.isDigit = rest := by
    cases rest with
    | nil => exact ⟨rfl, rfl⟩
    | cons c rest =>
      have hc := hrest c rfl
      exact ⟨List.takeWhile_cons_of_neg (by simp [hc]),
        List.dropWhile_cons_of_neg (by simp [hc])⟩
  rw [readDigits, List.takeWhile_append_of_pos hds, List.dropWhile_append_of_pos hds, hnone.1,
    hnone.2, List.append_nil]

/-- What is read as digits are digits. -/
theorem of_readDigits {cs ds rest : List Char} (h : readDigits cs = (ds, rest)) :
    cs = ds ++ rest ∧ ∀ c ∈ ds, c.isDigit = true := by
  obtain ⟨rfl, rfl⟩ := Prod.mk.inj h
  exact ⟨List.takeWhile_append_dropWhile.symm, fun c hc => List.mem_takeWhile_imp hc⟩

theorem readWhole?_append {ds rest : List Char} (hds : Digits ds)
    (hzero : ∀ more, ds = '0' :: more → more = []) (hrest : EndsDigits rest) :
    readWhole? (ds ++ rest) = some (ds, rest) := by
  rw [readWhole?, readDigits_append hds.isDigit hrest]
  split
  case h_1 heq => exact absurd (Prod.mk.inj heq).1 hds.ne_nil
  case h_2 heq => cases hzero _ (Prod.mk.inj heq).1
  case h_3 heq => rw [← heq]

theorem of_readWhole? {cs ds rest : List Char} (h : readWhole? cs = some (ds, rest)) :
    cs = ds ++ rest ∧ Digits ds ∧ ∀ more, ds = '0' :: more → more = [] := by
  unfold readWhole? at h
  split at h
  case h_1 => cases h
  case h_2 => cases h
  case h_3 _ ds' rest' hnil hzero hread =>
    obtain ⟨rfl, rfl⟩ := Prod.mk.inj (Option.some.inj h)
    obtain ⟨hcs, hdigits⟩ := of_readDigits hread
    refine ⟨hcs, ⟨hnil, hdigits⟩, ?_⟩
    rintro (_ | ⟨c, more⟩) heq
    · rfl
    · exact (hzero c more heq).elim

theorem readFraction?_append {cs rest : List Char} {fraction : Option (List Char)}
    (h : SpellsFraction cs fraction) (hrest : EndsDigits rest) (hpoint : '.' ∉ rest.head?) :
    readFraction? (cs ++ rest) = some (fraction, rest) := by
  cases h with
  | none =>
    rw [List.nil_append, readFraction?]
    rintro cs rfl
    exact hpoint rfl
  | some hds =>
    rw [List.cons_append, readFraction?, readDigits_append hds.isDigit hrest]
    split
    case h_1 heq => exact absurd (Prod.mk.inj heq).1 hds.ne_nil
    case h_2 heq =>
      obtain ⟨rfl, rfl⟩ := Prod.mk.inj heq
      rfl

theorem of_readFraction? {cs rest : List Char} {fraction : Option (List Char)}
    (h : readFraction? cs = some (fraction, rest)) :
    ∃ written, cs = written ++ rest ∧ SpellsFraction written fraction := by
  unfold readFraction? at h
  split at h
  case h_1 cs =>
    split at h
    case h_1 => cases h
    case h_2 _ ds rest' hnil hread =>
      obtain ⟨rfl, rfl⟩ := Prod.mk.inj (Option.some.inj h)
      obtain ⟨rfl, hdigits⟩ := of_readDigits hread
      exact ⟨'.' :: ds, rfl, .some ⟨hnil, hdigits⟩⟩
  case h_2 =>
    obtain ⟨rfl, rfl⟩ := Prod.mk.inj (Option.some.inj h)
    exact ⟨[], rfl, .none⟩

theorem readSign_append {sign rest : List Char} {minus : Bool} (h : SpellsSign sign minus)
    (hrest : ∀ c ∈ rest.head?, c ≠ '-' ∧ c ≠ '+') : readSign (sign ++ rest) = (minus, rest) := by
  cases h with
  | none =>
    rw [List.nil_append, readSign.eq_def]
    split
    case h_1 => exact absurd rfl (hrest '-' rfl).1
    case h_2 => exact absurd rfl (hrest '+' rfl).2
    case h_3 => rfl
  | plus => rfl
  | minus => rfl

theorem of_readSign {cs rest : List Char} {minus : Bool} (h : readSign cs = (minus, rest)) :
    ∃ sign, cs = sign ++ rest ∧ SpellsSign sign minus := by
  unfold readSign at h
  split at h
  case h_1 =>
    obtain ⟨rfl, rfl⟩ := Prod.mk.inj h
    exact ⟨['-'], rfl, .minus⟩
  case h_2 =>
    obtain ⟨rfl, rfl⟩ := Prod.mk.inj h
    exact ⟨['+'], rfl, .plus⟩
  case h_3 =>
    obtain ⟨rfl, rfl⟩ := Prod.mk.inj h
    exact ⟨[], rfl, .none⟩

theorem isExponentLetter_iff {c : Char} : isExponentLetter c = true ↔ c = 'e' ∨ c = 'E' := by
  simp [isExponentLetter]

theorem readExponent?_append {cs rest : List Char} {exponent : Option (Bool × List Char)}
    (h : SpellsExponent cs exponent) (hrest : EndsNumber rest) :
    readExponent? (cs ++ rest) = some (exponent, rest) := by
  cases h with
  | none =>
    cases rest with
    | nil => rfl
    | cons c rest => rw [List.nil_append, readExponent?, if_neg (by simp [(hrest c rfl).2.2])]
  | @some letter sign ds minus hletter hsign hds =>
    have hdigit : ∀ c ∈ (ds ++ rest).head?, c ≠ '-' ∧ c ≠ '+' := by
      obtain ⟨d, more, rfl⟩ := List.exists_cons_of_ne_nil hds.ne_nil
      rintro c hc
      obtain rfl : d = c := Option.some.inj hc
      have hd := hds.isDigit d List.mem_cons_self
      constructor <;> rintro rfl <;> cases hd
    rw [List.cons_append, List.append_assoc, readExponent?,
      if_pos (isExponentLetter_iff.2 hletter), readSign_append hsign hdigit]
    simp only [readDigits_append hds.isDigit hrest.endsDigits]
    split
    case h_1 heq => exact absurd (Prod.mk.inj heq).1 hds.ne_nil
    case h_2 heq =>
      obtain ⟨rfl, rfl⟩ := Prod.mk.inj heq
      rfl

theorem of_readExponent? {cs rest : List Char} {exponent : Option (Bool × List Char)}
    (h : readExponent? cs = some (exponent, rest)) :
    ∃ written, cs = written ++ rest ∧ SpellsExponent written exponent := by
  unfold readExponent? at h
  split at h
  case h_1 =>
    obtain ⟨rfl, rfl⟩ := Prod.mk.inj (Option.some.inj h)
    exact ⟨[], rfl, .none⟩
  case h_2 c cs =>
    split_ifs at h with hletter
    · have hread : readSign cs = ((readSign cs).1, (readSign cs).2) := rfl
      obtain ⟨sign, hcs, hsign⟩ := of_readSign hread
      simp only at h
      split at h
      case h_1 => cases h
      case h_2 _ ds rest' hnil hreadDigits =>
        obtain ⟨rfl, rfl⟩ := Prod.mk.inj (Option.some.inj h)
        obtain ⟨hrest, hdigits⟩ := of_readDigits hreadDigits
        refine ⟨c :: (sign ++ ds), ?_,
          .some (isExponentLetter_iff.1 hletter) hsign ⟨hnil, hdigits⟩⟩
        rw [List.cons_append, List.append_assoc, ← hrest, ← hcs]
    · obtain ⟨rfl, rfl⟩ := Prod.mk.inj (Option.some.inj h)
      exact ⟨[], rfl, .none⟩

/-- An exponent starts with its letter, so that neither a digit nor a point comes next. -/
theorem SpellsExponent.head?_append {cs rest : List Char} {exponent : Option (Bool × List Char)}
    (h : SpellsExponent cs exponent) (hrest : EndsNumber rest) :
    ∀ c ∈ (cs ++ rest).head?, c.isDigit = false ∧ c ≠ '.' := by
  cases h with
  | none => exact fun c hc => ⟨(hrest c hc).1, (hrest c hc).2.1⟩
  | some hletter _ _ =>
    intro c hc
    obtain rfl := Option.some.inj hc
    rcases hletter with rfl | rfl <;> exact ⟨rfl, by decide⟩

/-- A fraction starts with its point. -/
theorem SpellsFraction.endsDigits {cs rest : List Char} {fraction : Option (List Char)}
    (h : SpellsFraction cs fraction) (hrest : EndsDigits rest) : EndsDigits (cs ++ rest) := by
  cases h with
  | none => exact hrest
  | some _ =>
    intro c hc
    obtain rfl := Option.some.inj hc
    rfl

/-- **A number is read whole**, up to what cannot belong to it. -/
theorem readMagnitude?_append {cs rest : List Char} {l : NumberLiteral} (h : SpellsMagnitude cs l)
    (hrest : EndsNumber rest) : readMagnitude? l.minus (cs ++ rest) = some (l, rest) := by
  obtain ⟨hwhole, hzero, fraction, exponent, rfl, hfraction, hexponent⟩ := h
  have hhead := hexponent.head?_append hrest
  have hdigits : EndsDigits (exponent ++ rest) := fun c hc => (hhead c hc).1
  have hpoint : '.' ∉ (exponent ++ rest).head? := fun hc => (hhead '.' hc).2 rfl
  rw [List.append_assoc, List.append_assoc]
  simp only [readMagnitude?, readWhole?_append hwhole hzero (hfraction.endsDigits hdigits),
    readFraction?_append hfraction hdigits hpoint, readExponent?_append hexponent hrest,
    Option.bind_eq_bind, Option.bind_some]
  rfl

/-- **What is read as a number is one.** -/
theorem exists_of_readMagnitude? {minus : Bool} {cs rest : List Char} {l : NumberLiteral}
    (h : readMagnitude? minus cs = some (l, rest)) :
    l.minus = minus ∧ ∃ written, cs = written ++ rest ∧ SpellsMagnitude written l := by
  obtain ⟨⟨whole, cs₁⟩, hreadWhole, h⟩ := Option.bind_eq_some_iff.1 h
  obtain ⟨⟨fraction, cs₂⟩, hreadFraction, h⟩ := Option.bind_eq_some_iff.1 h
  obtain ⟨⟨exponent, cs₃⟩, hreadExponent, h⟩ := Option.bind_eq_some_iff.1 h
  obtain ⟨rfl, rfl⟩ := Prod.mk.inj (Option.some.inj h)
  obtain ⟨rfl, hwhole, hzero⟩ := of_readWhole? hreadWhole
  obtain ⟨fractionChars, rfl, hfraction⟩ := of_readFraction? hreadFraction
  obtain ⟨exponentChars, rfl, hexponent⟩ := of_readExponent? hreadExponent
  refine ⟨rfl, whole ++ (fractionChars ++ exponentChars), ?_,
    ⟨hwhole, hzero, fractionChars, exponentChars, rfl, hfraction, hexponent⟩⟩
  rw [List.append_assoc, List.append_assoc]

/-! ## Decimal digits -/

theorem isDigit_of_mem_decimal {n : ℕ} : ∀ c ∈ decimal n, c.isDigit = true := fun _ h =>
  Nat.isDigit_of_mem_toDigits (by decide) (by decide) h

theorem decimal_ne_nil (n : ℕ) : decimal n ≠ [] := Nat.toDigits_ne_nil

/-- **No number but zero is written with a leading zero.** -/
theorem eq_nil_of_decimal_eq_zero_cons {n : ℕ} {ds : List Char} (h : decimal n = '0' :: ds) :
    ds = [] := by
  induction n using Nat.strongRecOn generalizing ds with
  | _ n ih =>
    unfold decimal at h ih
    rcases Nat.lt_or_ge n 10 with hlt | hge
    · rw [Nat.toDigits_of_lt_base hlt] at h
      exact (List.cons.inj h).2.symm
    · -- the digits before the last one are those of a smaller number, which is not zero
      rw [Nat.toDigits_of_base_le (by decide) hge] at h
      rcases List.append_eq_cons_iff.1 h with ⟨hnil, -⟩ | ⟨ds', hds', -⟩
      · exact absurd hnil Nat.toDigits_ne_nil
      · obtain rfl := ih (n / 10) (by omega) hds'
        have hzero : n / 10 = 0 := by
          rw [← Nat.ofDigitChars_ten_toDigits (n := n / 10), hds']
          rfl
        omega

/-! ## Written whole numbers -/

/-- The literal of a whole number. -/
def NumberLiteral.ofNat (minus : Bool) (n : ℕ) : NumberLiteral :=
  { minus, whole := decimal n, fraction := none, exponent := none }

/-- **The digits of a number spell it.** -/
theorem spellsMagnitude_decimal (minus : Bool) (n : ℕ) :
    SpellsMagnitude (decimal n) (.ofNat minus n) where
  whole := ⟨decimal_ne_nil n, isDigit_of_mem_decimal⟩
  zero _ h := eq_nil_of_decimal_eq_zero_cons h
  parts := ⟨[], [], (List.append_nil _).symm, .none, .none⟩

/-! ## Values -/

theorem NumberLiteral.digitsValue_decimal (n : ℕ) : digitsValue (decimal n) = n :=
  Nat.ofDigitChars_ten_toDigits

/-- **A natural number below 2^64 is the value of its digits.** -/
theorem NumberLiteral.value?_ofNat {n : ℕ} (h : n < Nat.pow 2 64) :
    (NumberLiteral.ofNat false n).value? = some (.natural n) := by
  simp only [value?, ofNat, digitsValue_decimal, Option.isSome_none, Bool.or_self,
    Bool.false_eq_true, if_false]
  exact if_pos h

/-- So is the negative of one up to 2^63, but for zero. -/
theorem NumberLiteral.value?_ofNat_minus {n : ℕ} (h : 0 < n ∧ n ≤ Nat.pow 2 63) :
    (NumberLiteral.ofNat true n).value? = some (.negative n) := by
  simp only [value?, ofNat, digitsValue_decimal, Option.isSome_none, Bool.or_self,
    Bool.false_eq_true, if_false, if_true]
  exact if_pos h

end Json
end CardInventory
