import CardInventory.Proofs.Json.Shape

/-
# Any value is read back

A value is regular when it is as values are read: its whole numbers fit in 64 bits, the keys of its
objects ascend strictly, and it holds no binary64. A regular value is read back from its text in
every style (`parse?_render`). An object whose keys come in another order is read as the map of its
members (`parse?_render_object`).
-/

namespace CardInventory
namespace Json

/-! ## Regular values -/

mutual

/-- Is this a value as it is read from a text, and without any binary64? -/
def regular : Json → Bool
  | null => true
  | bool _ => true
  | number (.natural n) => n < Nat.pow 2 64
  | number (.negative n) => 0 < n ∧ n ≤ Nat.pow 2 63
  | number (.float _) => false
  | text _ => true
  | array items => itemsRegular items
  | object members => decide (members.Pairwise fun a b => a.1 < b.1) && membersRegular members

/-- Are all items regular? -/
def itemsRegular : List Json → Bool
  | [] => true
  | item :: rest => item.regular && itemsRegular rest

/-- Are all values of members regular? -/
def membersRegular : List (String × Json) → Bool
  | [] => true
  | (_, value) :: rest => value.regular && membersRegular rest

end

theorem itemsRegular_iff {items : List Json} :
    itemsRegular items = true ↔ ∀ item ∈ items, item.regular = true := by
  induction items with
  | nil => simp [itemsRegular]
  | cons item rest ih => rw [itemsRegular, Bool.and_eq_true, ih, List.forall_mem_cons]

theorem membersRegular_iff {members : List (String × Json)} :
    membersRegular members = true ↔ ∀ m ∈ members, m.2.regular = true := by
  induction members with
  | nil => simp [membersRegular]
  | cons m rest ih => rw [membersRegular, Bool.and_eq_true, ih, List.forall_mem_cons]

/-! ## Trees of regular values -/

mutual

/-- **The tree of a regular value has no fault.** -/
theorem intact_tree : ∀ j : Json, j.regular = true → j.tree.intact = true
  | null, _ => rfl
  | bool _, _ => rfl
  | number (.natural _), _ => rfl
  | number (.negative _), _ => rfl
  | number (.float _), h => by cases h
  | text _, _ => rfl
  | array items, h => by
    rw [tree, Tree.intact, Bool.and_true]
    exact intact_itemTrees items h
  | object members, h => by
    rw [tree, Tree.intact, Bool.and_true]
    rw [regular, Bool.and_eq_true] at h
    exact intact_memberTrees members h.2

theorem intact_itemTrees : ∀ items : List Json, itemsRegular items = true →
    Tree.itemsIntact (itemTrees items) = true
  | [], _ => rfl
  | item :: rest, h => by
    rw [itemsRegular, Bool.and_eq_true] at h
    rw [itemTrees, Tree.itemsIntact, Bool.and_eq_true]
    exact ⟨intact_tree item h.1, intact_itemTrees rest h.2⟩

theorem intact_memberTrees : ∀ members : List (String × Json), membersRegular members = true →
    Tree.membersIntact (memberTrees members) = true
  | [], _ => rfl
  | (_, value) :: rest, h => by
    rw [membersRegular, Bool.and_eq_true] at h
    rw [memberTrees, Tree.membersIntact, Bool.and_eq_true]
    exact ⟨intact_tree value h.1, intact_memberTrees rest h.2⟩

end

/-- The map of members that ascend has these members. -/
theorem entries_ofList_of_ascending {α : Type} {members : List (String × α)}
    (h : members.Pairwise fun a b => a.1 < b.1) : (SortedMap.ofList members).entries = members :=
  congrArg SortedMap.entries (SortedMap.ofList_entries ⟨members, h⟩)

mutual

/-- **A regular value is the value of its tree.** -/
theorem value?_tree : ∀ j : Json, j.regular = true → j.tree.value? = some j
  | null, _ => rfl
  | bool _, _ => rfl
  | number (.natural n), h => by
    rw [tree, Tree.value?, NumberLiteral.value?_ofNat (of_decide_eq_true h), Option.map_some]
  | number (.negative n), h => by
    rw [tree, Tree.value?, NumberLiteral.value?_ofNat_minus (of_decide_eq_true h), Option.map_some]
  | number (.float _), h => by cases h
  | text s, _ => by
    rw [tree, Tree.value?, unitText?_units, Option.map_some]
  | array items, h => by
    rw [tree, Tree.value?, itemValues?_itemTrees items h]
    rfl
  | object members, h => by
    rw [regular, Bool.and_eq_true, decide_eq_true_iff] at h
    rw [tree, Tree.value?, memberValues?_memberTrees members h.2, if_pos rfl, Option.map_some,
      entries_ofList_of_ascending h.1]

theorem itemValues?_itemTrees : ∀ items : List Json, itemsRegular items = true →
    itemValues? (itemTrees items) = some items
  | [], _ => rfl
  | item :: rest, h => by
    rw [itemsRegular, Bool.and_eq_true] at h
    rw [itemTrees, itemValues?, value?_tree item h.1, itemValues?_itemTrees rest h.2]

theorem memberValues?_memberTrees : ∀ members : List (String × Json),
    membersRegular members = true → memberValues? (memberTrees members) = some members
  | [], _ => rfl
  | (key, value) :: rest, h => by
    rw [membersRegular, Bool.and_eq_true] at h
    rw [memberTrees, memberValues?, unitText?_units, value?_tree value h.1,
      memberValues?_memberTrees rest h.2]

end

/-! ## Texts of regular values -/

section
variable {st : Style} (hst : st.Lawful)
include hst

/-- **A regular value is read back from its text.** -/
theorem parse?_render {j : Json} (h : j.regular = true) : parse? (j.render st) = some j := by
  rw [parse?, readTree_render hst j (intact_tree j h)]
  exact value?_tree j h

/-- **An object is read as the map of its members**, in whatever order they are written. -/
theorem parse?_render_object {members : List (String × Json)}
    (h : ∀ m ∈ members, m.2.regular = true) :
    parse? ((object members).render st) = some (.object (SortedMap.ofList members).entries) := by
  have hmembers := membersRegular_iff.2 h
  have hintact : (object members).tree.intact = true := by
    rw [tree, Tree.intact, Bool.and_true]
    exact intact_memberTrees members hmembers
  rw [parse?, readTree_render hst _ hintact]
  simp only [tree, Tree.value?, memberValues?_memberTrees members hmembers, if_true,
    Option.map_some]

end

end Json
end CardInventory
