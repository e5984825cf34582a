import CardInventory.Text.Blank
import Mathlib.Data.List.DropRight

/-
# Blanks at the ends of a text

What is left of a text without its blanks does not depend on the blanks that stand before and
after it (`trim_eq_of_isPadded`), and neither begins nor ends with one (`isTrimmed_trim`). Letters
in another case are no blanks, so that the case may be changed before or after
(`trimChars_map_toLower`).
-/

namespace CardInventory
namespace Text

/-- Is the second text the first one with blanks before and after it? -/
def IsPadded (s t : String) : Prop :=
  ∃ before after : List Char, (∀ c ∈ before, isBlank c = true) ∧ (∀ c ∈ after, isBlank c = true) ∧
    t.toList = before ++ s.toList ++ after

/-- Does a text neither begin nor end with a blank? -/
def IsTrimmed (s : String) : Prop :=
  (∀ c ∈ s.toList.head?, isBlank c = false) ∧ ∀ c ∈ s.toList.getLast?, isBlank c = false

instance (s : String) : Decidable (IsTrimmed s) := inferInstanceAs (Decidable (_ ∧ _))

theorem trimChars_eq (cs : List Char) :
    trimChars cs = (cs.dropWhile isBlank).rdropWhile isBlank := rfl

/-- Blanks before and after a text are cut off. -/
theorem trimChars_append {before after : List Char} (hbefore : ∀ c ∈ before, isBlank c = true)
    (hafter : ∀ c ∈ after, isBlank c = true) (cs : List Char) :
    trimChars (before ++ cs ++ after) = trimChars cs := by
  rw [trimChars_eq, trimChars_eq, List.append_assoc, List.dropWhile_append_of_pos hbefore,
    List.dropWhile_append]
  cases hcs : cs.dropWhile isBlank with
  | nil =>
    have hall : after.dropWhile isBlank = [] := List.dropWhile_eq_nil_iff.2 hafter
    simp [hall]
  | cons c rest =>
    rw [if_neg (by simp), List.rdropWhile, List.reverse_append,
      List.dropWhile_append_of_pos fun c hc => hafter c (List.mem_reverse.1 hc)]
    rfl

/-- **Blanks around a text do not count.** -/
theorem trim_eq_of_isPadded {s t : String} (h : IsPadded s t) : trim t = trim s := by
  obtain ⟨before, after, hbefore, hafter, ht⟩ := h
  rw [trim, trim, ht, trimChars_append hbefore hafter]

/-- **A trimmed text has no blanks at its ends.** -/
theorem isTrimmed_trim (s : String) : IsTrimmed (trim s) := by
  unfold IsTrimmed trim
  rw [String.toList_ofList, trimChars_eq]
  constructor
  · intro c hc
    obtain ⟨rest, hrest⟩ := List.rdropWhile_prefix isBlank (s.toList.dropWhile isBlank)
    have hhead := List.head?_dropWhile_not isBlank s.toList
    rw [← hrest, List.head?_append, hc] at hhead
    exact hhead
  · intro c hc
    rw [List.rdropWhile, List.getLast?_reverse] at hc
    have hhead := List.head?_dropWhile_not isBlank (s.toList.dropWhile isBlank).reverse
    rw [hc] at hhead
    exact hhead

theorem isBlank_toLower (c : Char) : isBlank c.toLower = isBlank c := by
  by_cases hupper : c.toNat < 0x5b
  · have hall : ∀ n < 0x5b, isBlank (Char.ofNat n).toLower = isBlank (Char.ofNat n) := by
      decide +kernel
    have hc := hall c.toNat hupper
    rwa [Char.ofNat_toNat] at hc
  · have hsame : c.toLower = c := dif_neg fun h => hupper (Nat.lt_succ_of_le h.2)
    rw [hsame]

/-- The case of letters may be changed before blanks are cut off or after. -/
theorem trimChars_map_toLower (cs : List Char) :
    trimChars (cs.map Char.toLower) = (trimChars cs).map Char.toLower := by
  have hblank : isBlank ∘ Char.toLower = isBlank := funext isBlank_toLower
  unfold trimChars
  simp only [List.dropWhile_map, ← List.map_reverse, hblank]

end Text
end CardInventory
