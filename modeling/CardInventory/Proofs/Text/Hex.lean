import CardInventory.Text.Hex
import Mathlib.Data.List.Induction
import Mathlib.Tactic.Ring

/-
# Reading and writing hexadecimal digits

What `Hex.fixed` writes are the digits of a number in a fixed count (`fixed_eq_map_digit`), and
reading them gives the number back as far as that count goes (`toNat_digits`). Separators are no
digits, so that a written number holds none. In one count, digits are in the order of the numbers
that they write (`fixed_lt_fixed_iff`).
-/

namespace CardInventory
namespace Text
namespace Hex

/-- The last `width` digits of `n` as values. -/
def digits : (width : ℕ) → (n : ℕ) → List (Fin 16)
  | 0, _ => []
  | width + 1, n => digits width (n / 16) ++ [last n]

@[simp]
theorem length_digits (width n : ℕ) : (digits width n).length = width := by
  induction width generalizing n with
  | zero => rfl
  | succ width ih => rw [digits, List.length_append, ih, List.length_singleton]

/-- What is written are digits of the number. -/
theorem fixed_eq_map_digit (width n : ℕ) : fixed width n = (digits width n).map digit := by
  induction width generalizing n with
  | zero => rfl
  | succ width ih => rw [fixed, digits, List.map_append, ih, List.map_singleton]

/-- A written digit is read back. -/
theorem value?_digit (d : Fin 16) : value? (digit d) = some d := by
  revert d
  decide

/-- What is no digit is not written for one. -/
theorem ne_digit_of_value?_eq_none {c : Char} (h : value? c = none) (d : Fin 16) : c ≠ digit d := by
  rintro rfl
  rw [value?_digit] at h
  cases h

/-- Written digits are read back. -/
theorem values?_map_digit (ds : List (Fin 16)) : values? (ds.map digit) = some ds := by
  induction ds with
  | nil => rfl
  | cons d rest ih =>
    unfold values? at ih ⊢
    rw [List.map_cons, List.mapM_cons, value?_digit, ih]
    rfl

/-- What is read as digits holds digits only. -/
theorem value?_of_values? {cs : List Char} {ds : List (Fin 16)} (h : values? cs = some ds) :
    ∀ c ∈ cs, ∃ d, value? c = some d := by
  induction cs generalizing ds with
  | nil => exact List.forall_mem_nil _
  | cons c rest ih =>
    rw [values?, List.mapM_cons] at h
    obtain ⟨d, hd, h⟩ := Option.bind_eq_some_iff.1 h
    obtain ⟨ds', hds', -⟩ := Option.bind_eq_some_iff.1 h
    exact List.forall_mem_cons.2 ⟨⟨d, hd⟩, ih hds'⟩

theorem toNat_concat (ds : List (Fin 16)) (d : Fin 16) : toNat (ds ++ [d]) = 16 * toNat ds + d := by
  rw [toNat, List.foldl_append]
  rfl

/-- **The last digits of a number give its remainder.** -/
theorem toNat_digits (width n : ℕ) : toNat (digits width n) = n % 16 ^ width := by
  induction width generalizing n with
  | zero => rw [pow_zero, Nat.mod_one]; rfl
  | succ width ih =>
    rw [digits, toNat_concat, ih, last, Fin.val_ofNat, pow_succ', Nat.mod_mul]
    omega

/-- Digits spell less than the power of their count. -/
theorem toNat_lt (ds : List (Fin 16)) : toNat ds < 16 ^ ds.length := by
  induction ds using List.reverseRecOn with
  | nil => exact Nat.one_pos
  | append_singleton ds d ih =>
    rw [toNat_concat, List.length_append, List.length_singleton, pow_succ]
    omega

/-- A character that is no digit is not written. -/
theorem not_mem_fixed {c : Char} (h : value? c = none) (width n : ℕ) : c ∉ fixed width n := by
  rw [fixed_eq_map_digit, List.mem_map]
  rintro ⟨d, -, hd⟩
  exact ne_digit_of_value?_eq_none h d hd.symm

/-! ## Order -/

/-- Of texts that begin with stretches of one length the stretches decide, and where they are the
same, what comes after them. -/
theorem append_lt_append_iff {α : Type} [LT α] [Std.Irrefl (α := α) (· < ·)]
    {first₁ first₂ rest₁ rest₂ : List α}
    (h : first₁.length = first₂.length) :
    first₁ ++ rest₁ < first₂ ++ rest₂ ↔ first₁ < first₂ ∨ first₁ = first₂ ∧ rest₁ < rest₂ := by
  induction first₁ generalizing first₂ with
  | nil =>
    obtain rfl := List.eq_nil_of_length_eq_zero h.symm
    simp
  | cons a first₁ ih =>
    obtain ⟨b, first₂, rfl⟩ := List.exists_cons_of_length_eq_add_one h.symm
    rw [List.cons_append, List.cons_append, List.cons_lt_cons_iff, List.cons_lt_cons_iff,
      ih (Nat.succ.inj h), List.cons.injEq, and_or_left, or_assoc, and_assoc]

theorem digit_lt_digit_iff {d e : Fin 16} : digit d < digit e ↔ d < e := by
  revert d e
  decide

@[simp]
theorem length_fixed (width n : ℕ) : (fixed width n).length = width := by
  rw [fixed_eq_map_digit, List.length_map, length_digits]

/-- Numbers that fit the count of digits are told apart by their digits. -/
theorem fixed_inj {width m n : ℕ} (hm : m < 16 ^ width) (hn : n < 16 ^ width) :
    fixed width m = fixed width n ↔ m = n := by
  refine ⟨fun h => ?_, fun h => by rw [h]⟩
  have hdigits : digits width m = digits width n := by
    have hvalues := congrArg values? h
    rwa [fixed_eq_map_digit, fixed_eq_map_digit, values?_map_digit, values?_map_digit,
      Option.some.injEq] at hvalues
  have hnat := congrArg toNat hdigits
  rwa [toNat_digits, toNat_digits, Nat.mod_eq_of_lt hm, Nat.mod_eq_of_lt hn] at hnat

/-- **Written digits are in the order of the numbers.** -/
theorem fixed_lt_fixed_iff {width m n : ℕ} (hm : m < 16 ^ width) (hn : n < 16 ^ width) :
    fixed width m < fixed width n ↔ m < n := by
  induction width generalizing m n with
  | zero =>
    rw [pow_zero, Nat.lt_one_iff] at hm hn
    simp [hm, hn]
  | succ width ih =>
    -- The last digit decides where all digits before it are the same.
    rw [pow_succ'] at hm hn
    have hm' : m / 16 < 16 ^ width := Nat.div_lt_of_lt_mul hm
    have hn' : n / 16 < 16 ^ width := Nat.div_lt_of_lt_mul hn
    have hlast : digit (last m) < digit (last n) ↔ m % 16 < n % 16 := digit_lt_digit_iff
    rw [fixed, fixed, append_lt_append_iff (by simp), ih hm' hn', fixed_inj hm' hn',
      List.cons_lt_cons_iff, hlast]
    have hnil : ¬ ([] : List Char) < [] := List.not_lt_nil []
    simp only [hnil, and_false, or_false]
    omega

/-- A written number decides before all that comes after it. -/
theorem fixed_append_lt_iff {width m n : ℕ} (hm : m < 16 ^ width) (hn : n < 16 ^ width)
    {rest₁ rest₂ : List Char} :
    fixed width m ++ rest₁ < fixed width n ++ rest₂ ↔ m < n ∨ m = n ∧ rest₁ < rest₂ := by
  rw [append_lt_append_iff (by simp), fixed_lt_fixed_iff hm hn, fixed_inj hm hn]

end Hex
end Text
end CardInventory
