import CardInventory.Proofs.Text.Hex
import CardInventory.Proofs.Text.Split
import CardInventory.Uuid

/-
# A written UUID is read back

The written form has five groups of digits with hyphens between them, and no digit is a hyphen. So
the groups are found again, and their digits are those of the UUID (`parse?_render`).
-/

namespace CardInventory
namespace Uuid

/-- The groups of a list hold its members and no others. -/
theorem flatten_cut {α : Type} : ∀ (ns : List ℕ) (l : List α), l.length ≤ ns.sum →
    (cut ns l).flatten = l
  | [], l, h => by
    rw [List.eq_nil_of_length_eq_zero (Nat.le_zero.1 h)]
    rfl
  | n :: ns, l, h => by
    rw [List.sum_cons] at h
    rw [cut, List.flatten_cons, flatten_cut ns _ (by rw [List.length_drop]; omega),
      List.take_append_drop]

/-- Groups have the lengths asked for. -/
theorem map_length_cut {α : Type} : ∀ (ns : List ℕ) (l : List α), ns.sum ≤ l.length →
    (cut ns l).map List.length = ns
  | [], _, _ => rfl
  | n :: ns, l, h => by
    rw [List.sum_cons] at h
    rw [cut, List.map_cons, map_length_cut ns _ (by rw [List.length_drop]; omega),
      List.length_take, Nat.min_eq_left (by omega)]

/-- What is written are the groups of digits, with hyphens between them. -/
theorem length_chars (u : Uuid) : u.chars.length = 36 := by
  have hdigits : (u.digits.map Text.Hex.digit).length = 32 := by
    rw [List.length_map, u.length_digits]
  simp only [chars, groups, cut, List.intercalate_cons_cons, List.intercalate_singleton,
    List.length_append, List.length_take, List.length_drop, List.length_singleton, hdigits]
  rfl

/-- The groups hold digits. -/
theorem exists_digit_of_mem_cut {u : Uuid} {part : List Char} {c : Char}
    (hpart : part ∈ cut groups (u.digits.map Text.Hex.digit)) (hc : c ∈ part) :
    ∃ d, c = Text.Hex.digit d := by
  have hmem := List.mem_flatten_of_mem hpart hc
  rw [flatten_cut _ _ (by rw [List.length_map, u.length_digits]; decide)] at hmem
  obtain ⟨d, -, hd⟩ := List.mem_map.1 hmem
  exact ⟨d, hd.symm⟩

/-- What stands in parts with separators between them is a separator or in a part. -/
theorem mem_intercalate_singleton {α : Type} {sep a : α} {parts : List (List α)}
    (h : a ∈ List.intercalate [sep] parts) : a = sep ∨ ∃ part ∈ parts, a ∈ part := by
  induction parts with
  | nil => cases h
  | cons part rest ih =>
    cases rest with
    | nil => exact .inr ⟨part, List.mem_cons_self, by simpa using h⟩
    | cons next rest =>
      rw [List.intercalate_cons_cons, List.mem_append, List.mem_append, List.mem_singleton] at h
      rcases h with (h | h) | h
      · exact .inr ⟨part, List.mem_cons_self, h⟩
      · exact .inl h
      · exact (ih h).imp_right fun ⟨part', hpart', ha⟩ =>
          ⟨part', List.mem_cons_of_mem _ hpart', ha⟩

/-- **Nothing is written but digits and hyphens.** -/
theorem mem_chars {u : Uuid} {c : Char} (h : c ∈ u.chars) :
    c = '-' ∨ ∃ d, c = Text.Hex.digit d :=
  (mem_intercalate_singleton h).imp_right fun ⟨_, hpart, hc⟩ => exists_digit_of_mem_cut hpart hc

/-- **A written UUID is read back.** -/
theorem parse?_render (u : Uuid) : parse? u.render = some u := by
  have hdigits : (u.digits.map Text.Hex.digit).length = 32 := by
    rw [List.length_map, u.length_digits]
  have hflatten := flatten_cut groups (u.digits.map Text.Hex.digit) hdigits.le
  have hlengths := map_length_cut groups (u.digits.map Text.Hex.digit) hdigits.ge
  have hhyphen : ∀ part ∈ cut groups (u.digits.map Text.Hex.digit), '-' ∉ part := by
    intro part hpart hmem
    obtain ⟨d, hd⟩ := exists_digit_of_mem_cut hpart hmem
    exact Text.Hex.ne_digit_of_value?_eq_none (by decide) d hd
  have hsplit : u.chars.splitOn '-' = cut groups (u.digits.map Text.Hex.digit) :=
    List.splitOn_intercalate '-' hhyphen (List.cons_ne_nil _ _)
  have hread : readGroups? u.chars = some u := by
    rw [readGroups?, hsplit]
    simp only [hlengths, if_true, hflatten, Text.Hex.values?_map_digit, Option.bind_some]
    exact dif_pos u.length_digits
  rw [parse?, render, String.toList_ofList, readChars?, u.length_chars]
  exact hread

end Uuid
end CardInventory
