import CardInventory.Proofs.Json.Grammar

/-
# Written values are read back

The text of a value in any style whose blanks are blanks spells the tree of the value
(`spells_chars`), and so it is read to its end, and what is read is this tree (`readTree_render`).
Arrays and objects inherit it from what they hold, by one argument on parts between commas
(`Separated.spells_intercalate`).
-/

namespace CardInventory
namespace Json

/-! ## Styles -/

/-- A style whose blanks are blanks. -/
structure Style.Lawful (st : Style) : Prop where
  gap : ∀ depth, Spaces (st.gap depth)
  colon : ∃ blanks, Spaces blanks ∧ st.colon = ':' :: blanks

theorem Style.lawful_compact : Style.compact.Lawful where
  gap _ := spaces_nil
  colon := ⟨[], spaces_nil, rfl⟩

theorem Style.lawful_pretty : Style.pretty.Lawful where
  gap depth := by
    refine List.forall_mem_cons.2 ⟨rfl, fun c hc => ?_⟩
    rw [List.eq_of_mem_replicate hc]
    rfl
  colon := ⟨[' '], by simp [Spaces, isSpace], rfl⟩

/-! ## Parts between brackets -/

/-- Do characters spell a phrase whatever blanks stand around them? -/
def SpellsWithin (p : Phrase) (cs : List Char) : Prop :=
  ∀ before after, Spaces before → Spaces after → Spells (before ++ (cs ++ after)) p

/-- **Parts that are spelled within blanks are spelled one after the other**, with commas between
them. The induction is on the parts after the first. -/
theorem Separated.spells_intercalate {α : Type} {one : α → Phrase} {many : List α → Phrase}
    (hmany : Separated one many) {gap close : List Char} (hgap : Spaces gap) (hclose : Spaces close)
    {written : List (List Char)} {as : List α}
    (hparts : List.Forall₂ (fun w a => SpellsWithin (one a) w) written as) :
    ∀ {w a}, SpellsWithin (one a) w →
      Spells (gap ++ (List.intercalate (',' :: gap) (w :: written) ++ close)) (many (a :: as)) := by
  induction hparts with
  | nil =>
    intro w a hw
    rw [List.intercalate_singleton]
    exact hmany.last (hw gap close hgap hclose)
  | @cons w' a' written as hw' _ ih =>
    intro w a hw
    have hfirst := hw gap [] hgap spaces_nil
    rw [List.append_nil] at hfirst
    have hchars : gap ++ (List.intercalate (',' :: gap) (w :: w' :: written) ++ close) =
        (gap ++ w) ++ ',' :: (gap ++ (List.intercalate (',' :: gap) (w' :: written) ++ close)) := by
      rw [List.intercalate_cons_cons]
      simp only [List.append_assoc, List.cons_append]
    rw [hchars]
    exact hmany.more hfirst (ih hw')

/-- What stands between brackets, but for an empty pair. -/
theorem Style.enclose_cons (st : Style) (depth : ℕ) (left right : Char) (w : List Char)
    (written : List (List Char)) :
    st.enclose depth left right (w :: written) =
      left :: ((st.gap (depth + 1) ++
        (List.intercalate (',' :: st.gap (depth + 1)) (w :: written) ++ st.gap depth)) ++
          [right]) := by
  simp only [Style.enclose, List.append_assoc, List.cons_append, List.nil_append]

section
variable {st : Style} (hst : st.Lawful)
include hst

/-- **An array of values that are spelled is spelled.** -/
theorem spells_array {written : List (List Char)} {ts : List Tree}
    (h : List.Forall₂ (fun w t => SpellsWithin (.item t) w) written ts) (depth : ℕ) :
    Spells (st.enclose depth '[' ']' written) (.value (.array ts true)) := by
  cases h with
  | nil => exact .emptyArray spaces_nil
  | cons hw hws =>
    rw [st.enclose_cons]
    exact .array (separated_items.spells_intercalate (hst.gap _) (hst.gap _) hws hw)

/-- **An object of members that are spelled is spelled.** -/
theorem spells_object {written : List (List Char)} {ms : List (List TextUnit × Tree)}
    (h : List.Forall₂ (fun w m => SpellsWithin (.member m) w) written ms) (depth : ℕ) :
    Spells (st.enclose depth '\x7b' '\x7d' written) (.value (.object ms true)) := by
  cases h with
  | nil => exact .emptyObject spaces_nil
  | cons hw hws =>
    rw [st.enclose_cons]
    exact .object (separated_members.spells_intercalate (hst.gap _) (hst.gap _) hws hw)

/-- A member is its key, a colon and its value. -/
theorem spellsWithin_member (key : String) {cs : List Char} {t : Tree}
    (h : Spells cs (.value t)) :
    SpellsWithin (.member (units key, t)) (textChars key ++ st.colon ++ cs) := by
  intro before after hbefore hafter
  obtain ⟨blanks, hblanks, hcolon⟩ := hst.colon
  have hmember := Spells.member hbefore (spellsText_textChars key) spaces_nil
    (.item hblanks h hafter)
  rw [hcolon]
  simpa only [List.append_assoc, List.cons_append, List.nil_append] using hmember

end

/-! ## The tree of a value -/

mutual

/-- The tree that the text of a value is read as, whatever the style. A binary64 has a fault for
its tree: nothing is said of values that hold one. -/
def tree : Json → Tree
  | null => .null
  | bool b => .bool b
  | number (.natural n) => .number (.ofNat false n)
  | number (.negative n) => .number (.ofNat true n)
  | number (.float _) => .fault
  | text s => .text (units s)
  | array items => .array (itemTrees items) true
  | object members => .object (memberTrees members) true

/-- The trees of items. -/
def itemTrees : List Json → List Tree
  | [] => []
  | item :: rest => item.tree :: itemTrees rest

/-- The trees of members. -/
def memberTrees : List (String × Json) → List (List TextUnit × Tree)
  | [] => []
  | (key, value) :: rest => (units key, value.tree) :: memberTrees rest

end

theorem itemTrees_eq_map (items : List Json) : itemTrees items = items.map tree := by
  induction items with
  | nil => rfl
  | cons item rest ih => rw [itemTrees, ih, List.map_cons]

theorem memberTrees_eq_map (members : List (String × Json)) :
    memberTrees members = members.map fun m => (units m.1, m.2.tree) := by
  induction members with
  | nil => rfl
  | cons m rest ih => rw [memberTrees, ih, List.map_cons]

theorem Tree.itemsIntact_iff {items : List Tree} :
    Tree.itemsIntact items = true ↔ ∀ t ∈ items, t.intact = true := by
  induction items with
  | nil => simp [Tree.itemsIntact]
  | cons t rest ih => rw [Tree.itemsIntact, Bool.and_eq_true, ih, List.forall_mem_cons]

theorem Tree.membersIntact_iff {members : List (List TextUnit × Tree)} :
    Tree.membersIntact members = true ↔ ∀ m ∈ members, m.2.intact = true := by
  induction members with
  | nil => simp [Tree.membersIntact]
  | cons m rest ih => rw [Tree.membersIntact, Bool.and_eq_true, ih, List.forall_mem_cons]

mutual

/-- **A written value spells its tree.** -/
theorem spells_chars {st : Style} (hst : st.Lawful) : ∀ (j : Json) (depth : ℕ),
    j.tree.intact = true → Spells (chars st depth j) (.value j.tree)
  | null, _, _ => .nullWord
  | bool true, _, _ => .trueWord
  | bool false, _, _ => .falseWord
  | number (.natural n), _, _ => .number (.positive rfl (spellsMagnitude_decimal false n))
  | number (.negative n), _, _ => .number (.negative rfl (spellsMagnitude_decimal true n))
  | number (.float _), _, h => by cases h
  | text s, _, _ => .text (spellsText_textChars s)
  | array items, depth, h => by
    rw [tree, Tree.intact, Bool.and_true] at h
    exact spells_array hst (spells_itemChars hst items (depth + 1) h) depth
  | object members, depth, h => by
    rw [tree, Tree.intact, Bool.and_true] at h
    exact spells_object hst (spells_memberChars hst members (depth + 1) h) depth

/-- Written items spell their trees. -/
theorem spells_itemChars {st : Style} (hst : st.Lawful) : ∀ (items : List Json) (depth : ℕ),
    Tree.itemsIntact (itemTrees items) = true →
      List.Forall₂ (fun w t => SpellsWithin (.item t) w) (itemChars st depth items)
        (itemTrees items)
  | [], _, _ => .nil
  | item :: rest, depth, h => by
    rw [itemTrees, Tree.itemsIntact, Bool.and_eq_true] at h
    exact .cons (fun _ _ hbefore hafter => .item hbefore (spells_chars hst item depth h.1) hafter)
      (spells_itemChars hst rest depth h.2)

/-- Written members spell their trees. -/
theorem spells_memberChars {st : Style} (hst : st.Lawful) :
    ∀ (members : List (String × Json)) (depth : ℕ),
      Tree.membersIntact (memberTrees members) = true →
        List.Forall₂ (fun w m => SpellsWithin (.member m) w) (memberChars st depth members)
          (memberTrees members)
  | [], _, _ => .nil
  | (key, value) :: rest, depth, h => by
    rw [memberTrees, Tree.membersIntact, Bool.and_eq_true] at h
    exact .cons (spellsWithin_member hst key (spells_chars hst value depth h.1))
      (spells_memberChars hst rest depth h.2)

end

/-- **The text of a value is read to its end**, and the blanks after it are passed over. What is
read is the tree of the value, in every style. -/
theorem readTree_render_append {st : Style} (hst : st.Lawful) (j : Json) (h : j.tree.intact = true)
    {blanks : String} (hblanks : Spaces blanks.toList) :
    readTree (j.render st ++ blanks) = (j.tree, true) := by
  rw [readTree_eq_iff, render, String.toList_append, String.toList_ofList]
  exact .item spaces_nil (spells_chars hst j 0 h) hblanks

/-- Nothing need follow the text. -/
theorem readTree_render {st : Style} (hst : st.Lawful) (j : Json) (h : j.tree.intact = true) :
    readTree (j.render st) = (j.tree, true) := by
  have hread := @readTree_render_append st hst j h "" spaces_nil
  rwa [String.append_empty] at hread

end Json
end CardInventory
