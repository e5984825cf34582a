import Mathlib.Data.List.Basic

/-
# Texts with separators

The stretches between separators hold all of a text but the separators, none of them and nothing
else (`exists_mem_splitOn`, `notMem_of_mem_splitOn`, `mem_of_mem_splitOn`), and there is one more of
them than of separators (`length_splitOn`). What stands after the last separator is known from the
text alone (`append_cons_inj_of_notMem_right`), whatever stands before it.
-/

namespace CardInventory

/-- Splitting loses nothing but the separators. -/
theorem exists_mem_splitOn {α : Type} [DecidableEq α] {sep a : α} {as : List α} (ha : a ∈ as)
    (hne : a ≠ sep) : ∃ s ∈ as.splitOn sep, a ∈ s := by
  induction as with
  | nil => exact absurd ha List.not_mem_nil
  | cons b rest ih =>
    rw [List.splitOn_cons_eq_if_modifyHead]
    obtain ⟨head, tail, hrest⟩ := List.exists_cons_of_ne_nil (List.splitOn_ne_nil sep rest)
    rw [hrest] at ih ⊢
    by_cases hb : b = sep
    · obtain ⟨s, hs, has⟩ := ih ((List.mem_cons.1 ha).resolve_left (hb ▸ hne))
      exact ⟨s, by simp [hb, hs], has⟩
    · rw [if_neg (mt beq_iff_eq.1 hb), List.modifyHead_cons]
      rcases List.mem_cons.1 ha with rfl | ha
      · exact ⟨a :: head, List.mem_cons_self, List.mem_cons_self⟩
      · obtain ⟨s, hs, has⟩ := ih ha
        rcases List.mem_cons.1 hs with rfl | hs
        · exact ⟨b :: s, List.mem_cons_self, List.mem_cons_of_mem b has⟩
        · exact ⟨s, List.mem_cons_of_mem _ hs, has⟩

/-- No stretch between separators holds one. -/
theorem notMem_of_mem_splitOn {α : Type} [DecidableEq α] {sep : α} {as s : List α}
    (h : s ∈ as.splitOn sep) : sep ∉ s := by
  induction as generalizing s with
  | nil => simp_all
  | cons a rest ih =>
    rw [List.splitOn_cons_eq_if_modifyHead] at h
    by_cases ha : a = sep
    · rw [if_pos (beq_iff_eq.2 ha)] at h
      rcases List.mem_cons.1 h with rfl | h
      · exact List.not_mem_nil
      · exact ih h
    · rw [if_neg (mt beq_iff_eq.1 ha)] at h
      obtain ⟨head, tail, hrest⟩ := List.exists_cons_of_ne_nil (List.splitOn_ne_nil sep rest)
      rw [hrest, List.modifyHead_cons] at h
      rw [hrest] at ih
      rcases List.mem_cons.1 h with rfl | h
      · exact List.not_mem_cons_of_ne_of_not_mem (Ne.symm ha) (ih List.mem_cons_self)
      · exact ih (List.mem_cons_of_mem head h)

/-- There is one more stretch than there are separators. -/
theorem length_splitOn {α : Type} [DecidableEq α] (sep : α) (as : List α) :
    (as.splitOn sep).length = as.count sep + 1 := by
  induction as with
  | nil => rfl
  | cons a rest ih =>
    rw [List.splitOn_cons_eq_if_modifyHead, List.count_cons]
    split_ifs
    · rw [List.length_cons, ih]
    · rw [List.length_modifyHead, ih, Nat.add_zero]

/-- A text with two separators is told by the three stretches. -/
theorem splitOn_eq_three_iff {α : Type} [DecidableEq α] {sep : α} {as first second third : List α} :
    as.splitOn sep = [first, second, third] ↔
      as = first ++ sep :: (second ++ sep :: third) ∧ sep ∉ first ∧ sep ∉ second ∧ sep ∉ third := by
  constructor
  · intro h
    have hnot (s : List α) (hs : s ∈ [first, second, third]) : sep ∉ s :=
      notMem_of_mem_splitOn (h ▸ hs)
    have hjoin : [sep].intercalate (as.splitOn sep) = as := List.intercalate_splitOn sep
    refine ⟨?_, hnot first (by simp), hnot second (by simp), hnot third (by simp)⟩
    rw [← hjoin, h]
    simp [List.intercalate]
  · rintro ⟨rfl, hfirst, hsecond, hthird⟩
    rw [List.splitOn_append_cons_self_of_not_mem hfirst,
      List.splitOn_append_cons_self_of_not_mem hsecond, List.splitOn_eq_singleton hthird]

/-- **A text is cut at its last separator in one way only.** -/
theorem append_cons_inj_of_notMem_right {α : Type} {sep : α}
    {before₁ before₂ after₁ after₂ : List α} (h₁ : sep ∉ after₁) (h₂ : sep ∉ after₂)
    (h : before₁ ++ sep :: after₁ = before₂ ++ sep :: after₂) :
    before₁ = before₂ ∧ after₁ = after₂ := by
  rcases List.append_eq_append_iff.1 h with ⟨between, rfl, hafter⟩ | ⟨between, rfl, hafter⟩
  · cases between with
    | nil => simpa using hafter
    | cons a rest =>
      obtain ⟨-, rfl⟩ := List.cons.inj hafter
      simp at h₁
  · cases between with
    | nil => simpa [eq_comm] using hafter
    | cons a rest =>
      obtain ⟨-, rfl⟩ := List.cons.inj hafter
      simp at h₂

end CardInventory
