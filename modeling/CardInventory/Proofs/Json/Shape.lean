import CardInventory.Json.Shape
import CardInventory.Proofs.Json.Reading
import CardInventory.Proofs.SortedMap
import CardInventory.Proofs.Uuid

/-
# What is written in a shape is read back

A shape is lawful where its whole numbers fit in 64 bits and no choice and no record has a name
twice. Of a lawful shape every value is read from the text in which it is written, in every style
(`Shape.ofText_render_append`). The proof follows the shape: lists and maps inherit the law from
what they hold, and a record takes in its fields one after the other, each under a name that no
later one has (`Fields.decodeMembers_encode`).
-/

namespace CardInventory
namespace Json

/-! ## Lawful shapes -/

/-- The names of the fields of a record. -/
def Fields.names : Fields → List String
  | .done => []
  | .needed name _ rest => name :: rest.names
  | .optional name _ rest => name :: rest.names

mutual

/-- Do the whole numbers of a shape fit in 64 bits, and has no choice and no record a name twice? -/
def Shape.lawful : Shape → Bool
  | .text => true
  | .whole limit _ => limit ≤ Nat.pow 2 64
  | .uuid => true
  | .choice names => decide names.Nodup
  | .list item => item.lawful
  | .map item => item.lawful
  | .record _ fields => fields.lawful

/-- Are the shapes of the fields lawful, and has no later field the name of one? -/
def Fields.lawful : Fields → Bool
  | .done => true
  | .needed name shape rest => decide (name ∉ rest.names) && shape.lawful && rest.lawful
  | .optional name shape rest => decide (name ∉ rest.names) && shape.lawful && rest.lawful

end

/-! ## No fault is written -/

mutual

/-- **The tree of what a shape writes has no fault.** -/
theorem Shape.intact_encode : ∀ (s : Shape) (v : s.Value), (s.encode v).tree.intact = true
  | .text, _ => rfl
  | .whole _ _, _ => rfl
  | .uuid, _ => rfl
  | .choice _, _ => rfl
  | .list item, vs => by
    rw [Shape.encode, tree, Tree.intact, Bool.and_true, itemTrees_eq_map, Tree.itemsIntact_iff]
    simp only [List.map_map, List.forall_mem_map]
    exact fun v _ => item.intact_encode v
  | .map item, m => by
    rw [Shape.encode, tree, Tree.intact, Bool.and_true, memberTrees_eq_map, Tree.membersIntact_iff]
    simp only [List.map_map, List.forall_mem_map]
    exact fun e _ => item.intact_encode e.2
  | .record _ fields, vs => by
    rw [Shape.encode, tree, Tree.intact, Bool.and_true, memberTrees_eq_map, Tree.membersIntact_iff,
      List.forall_mem_map]
    exact fields.intact_encode vs

/-- The tree of no field has a fault. -/
theorem Fields.intact_encode : ∀ (fs : Fields) (vs : fs.Values),
    ∀ m ∈ fs.encode vs, m.2.tree.intact = true
  | .done, _ => List.forall_mem_nil _
  | .needed _ shape rest, (v, vs) =>
    List.forall_mem_cons.2 ⟨shape.intact_encode v, rest.intact_encode vs⟩
  | .optional _ _ rest, (none, vs) => rest.intact_encode vs
  | .optional _ shape rest, (some v, vs) =>
    List.forall_mem_cons.2 ⟨shape.intact_encode v, rest.intact_encode vs⟩

end

/-! ## Single values -/

theorem Tree.asText_units (s expected : String) :
    (Tree.text (units s)).asText expected = .ok s := by
  rw [asText, unitText?_units]

theorem Tree.asWhole_ofNat {limit : ℕ} (hlimit : limit ≤ Nat.pow 2 64) (name : String)
    (v : Fin limit) : (Tree.number (.ofNat false v.val)).asWhole limit name = .ok v := by
  simp only [asWhole, NumberLiteral.value?_ofNat (v.isLt.trans_le hlimit)]
  exact dif_pos v.isLt

/-- A name is found at its own place, as it stands nowhere before. -/
theorem choose_getElem {names : List String} (hnames : names.Nodup) (v : Fin names.length) :
    choose names names[v] = .ok v := by
  have hfound : names.finIdxOf? names[v] = some v := by
    refine List.finIdxOf?_eq_some_iff.2 ⟨rfl, fun j hj heq => hj.ne ?_⟩
    exact Fin.ext ((hnames.getElem_inj_iff).1 heq)
  rw [choose, hfound]

/-! ## Lists and maps -/

/-- Items that are each read back are read back together. -/
theorem decodeItems_map {α : Type} {item : Tree → Except DecodeError α} {enc : α → Json}
    (h : ∀ v, item (enc v).tree = .ok v) (vs : List α) :
    decodeItems item (itemTrees (vs.map enc)) true = .ok vs := by
  induction vs with
  | nil => rfl
  | cons v rest ih =>
    rw [List.map_cons, itemTrees, decodeItems, h, ih]
    rfl

/-- Entries that are each read back are put into the map one after the other. -/
theorem decodeEntries_map {α : Type} {item : Tree → Except DecodeError α} {enc : α → Json}
    (h : ∀ v, item (enc v).tree = .ok v) (es : List (String × α)) (m : SortedMap α) :
    decodeEntries item m (memberTrees (es.map fun e => (e.1, enc e.2))) true =
      .ok (es.foldl (fun m e => m.insert e.1 e.2) m) := by
  induction es generalizing m with
  | nil => rfl
  | cons e rest ih =>
    rw [List.map_cons, memberTrees, decodeEntries]
    simp only [unitText?_units, h]
    exact ih _

/-! ## Records -/

namespace Fields

/-- A draft in which every field has been read. -/
def full : (fs : Fields) → fs.Values → fs.Draft
  | .done, _ => ()
  | .needed _ _ rest, (v, vs) => (some v, rest.full vs)
  | .optional _ _ rest, (v, vs) => (v.map some, rest.full vs)

theorem finish_full : ∀ (fs : Fields) (vs : fs.Values), fs.finish (fs.full vs) = .ok vs
  | .done, _ => rfl
  | .needed _ _ rest, (v, vs) => by
    rw [full, finish]
    simp only [rest.finish_full vs]
    rfl
  | .optional _ _ rest, (v, vs) => by
    rw [full, finish, rest.finish_full vs]
    cases v <;> rfl

/-- Members are written under the names of fields. -/
theorem fst_mem_names : ∀ (fs : Fields) (vs : fs.Values), ∀ m ∈ fs.encode vs, m.1 ∈ fs.names
  | .done, _ => List.forall_mem_nil _
  | .needed name _ rest, (_, vs) => List.forall_mem_cons.2
      ⟨List.mem_cons_self, fun m hm => List.mem_cons_of_mem name (rest.fst_mem_names vs m hm)⟩
  | .optional name _ rest, (none, vs) => fun m hm =>
      List.mem_cons_of_mem name (rest.fst_mem_names vs m hm)
  | .optional name _ rest, (some _, vs) => List.forall_mem_cons.2
      ⟨List.mem_cons_self, fun m hm => List.mem_cons_of_mem name (rest.fst_mem_names vs m hm)⟩

end Fields

/-- A reader of members that does with images of drafts what another does with the drafts. -/
theorem decodeMembers_map {δ ε : Type} {put : δ → String → Tree → Except DecodeError (Option δ)}
    {put' : ε → String → Tree → Except DecodeError (Option ε)} {f : δ → ε}
    {members : List (String × Json)}
    (h : ∀ m ∈ members, ∀ d t, put' (f d) m.1 t = (put d m.1 t).map (Option.map f)) (d : δ) :
    decodeMembers put' (f d) (memberTrees members) true =
      (decodeMembers put d (memberTrees members) true).map f := by
  induction members generalizing d with
  | nil => rfl
  | cons m rest ih =>
    obtain ⟨hm, hrest⟩ := List.forall_mem_cons.1 h
    rw [memberTrees, decodeMembers, decodeMembers]
    simp only [unitText?_units, hm]
    cases put d m.1 m.2.tree with
    | error e => rfl
    | ok r =>
      cases r with
      | none =>
        simp only [Except.map, Option.map, bind, Except.bind]
        split_ifs
        · exact ih hrest d
        · rfl
      | some d' => exact ih hrest d'

/-! ## Reading back -/

theorem Shape.tree_encode_ne_null (s : Shape) (v : s.Value) : (s.encode v).tree ≠ .null := by
  cases s <;> exact Tree.noConfusion

/-- What is read for a field goes into its place. -/
theorem Fields.put_needed (name : String) {shape : Shape} {rest : Fields} (draft : rest.Draft)
    {t : Tree} {v : shape.Value} (h : shape.decode t = .ok v) :
    (Fields.needed name shape rest).put (none, draft) name t = .ok (some (some v, draft)) := by
  rw [put, if_pos rfl]
  simp only [h]
  rfl

theorem Fields.put_optional (name : String) {shape : Shape} {rest : Fields} (draft : rest.Draft)
    {t : Tree} (ht : t ≠ .null) {v : shape.Value} (h : shape.decode t = .ok v) :
    (Fields.optional name shape rest).put (none, draft) name t =
      .ok (some (some (some v), draft)) := by
  rw [put, if_pos rfl]
  · simp only [h]
    rfl
  · exact ht

/-- A member of another name passes a field by. -/
theorem Fields.put_needed_of_ne {name : String} {shape : Shape} {rest : Fields}
    (v : Option shape.Value) (draft : rest.Draft) {key : String} (hkey : key ≠ name) (t : Tree) :
    (Fields.needed name shape rest).put (v, draft) key t =
      (rest.put draft key t).map (Option.map fun draft => (v, draft)) := by
  rw [put.eq_def]
  exact if_neg hkey

theorem Fields.put_optional_of_ne {name : String} {shape : Shape} {rest : Fields}
    (v : Option (Option shape.Value)) (draft : rest.Draft) {key : String} (hkey : key ≠ name)
    (t : Tree) :
    (Fields.optional name shape rest).put (v, draft) key t =
      (rest.put draft key t).map (Option.map fun draft => (v, draft)) := by
  rw [put.eq_def]
  exact if_neg hkey

/-- The members of the later fields are read as if the first field, whose value is `v`, was not
there. -/
theorem Fields.decodeMembers_later {β : Type} {name : String} {rest : Fields} {vs : rest.Values}
    (hname : name ∉ rest.names)
    {put : β × rest.Draft → String → Tree → Except DecodeError (Option (β × rest.Draft))}
    (hput : ∀ v draft {key}, key ≠ name → ∀ t,
      put (v, draft) key t = (rest.put draft key t).map (Option.map fun draft => (v, draft)))
    (hrest : decodeMembers rest.put rest.blank (memberTrees (rest.encode vs)) true =
      .ok (rest.full vs)) (v : β) :
    decodeMembers put (v, rest.blank) (memberTrees (rest.encode vs)) true =
      .ok (v, rest.full vs) := by
  have hlater : decodeMembers put (v, rest.blank) (memberTrees (rest.encode vs)) true =
      (decodeMembers rest.put rest.blank (memberTrees (rest.encode vs)) true).map
        fun draft => (v, draft) := by
    refine decodeMembers_map (fun m hm draft t => ?_) rest.blank
    exact hput v draft (ne_of_mem_of_not_mem (rest.fst_mem_names vs m hm) hname) t
  rw [hlater, hrest]
  rfl

mutual

/-- **What is written in a lawful shape is read back.** -/
theorem Shape.decode_encode : ∀ (s : Shape), s.lawful = true → ∀ v : s.Value,
    s.decode (s.encode v).tree = .ok v
  | .text, _, v => Tree.asText_units v _
  | .whole limit name, h, v => Tree.asWhole_ofNat (of_decide_eq_true h) name v
  | .uuid, _, v => by
    rw [Shape.encode, tree, Shape.decode, Tree.asText_units]
    simp only [bind, Except.bind, Uuid.parse?_render]
  | .choice names, h, v => by
    rw [Shape.encode, tree, Shape.decode, decodeChoice, unitText?_units]
    exact choose_getElem (of_decide_eq_true h) v
  | .list item, h, vs => by
    rw [Shape.encode, tree, Shape.decode]
    exact decodeItems_map (item.decode_encode h) vs
  | .map item, h, m => by
    rw [Shape.encode, tree, Shape.decode]
    have hentries := decodeEntries_map (item.decode_encode h) m.entries {}
    rw [hentries]
    exact congrArg Except.ok m.ofList_entries
  | .record _ fields, h, vs => by
    rw [Shape.encode, tree, Shape.decode]
    simp only [fields.decodeMembers_encode h vs]
    exact fields.finish_full vs

/-- The members of a record are taken in one after the other. -/
theorem Fields.decodeMembers_encode : ∀ (fs : Fields), fs.lawful = true → ∀ vs : fs.Values,
    decodeMembers fs.put fs.blank (memberTrees (fs.encode vs)) true = .ok (fs.full vs)
  | .done, _, _ => rfl
  | .needed name shape rest, h, (v, vs) => by
    simp only [Fields.lawful, Bool.and_eq_true, decide_eq_true_eq] at h
    obtain ⟨⟨hname, hshape⟩, hrest⟩ := h
    have hput := Fields.put_needed name rest.blank (shape.decode_encode hshape v)
    rw [Fields.encode, memberTrees, decodeMembers]
    simp only [unitText?_units, Fields.blank, hput]
    exact Fields.decodeMembers_later hname Fields.put_needed_of_ne
      (rest.decodeMembers_encode hrest vs) (some v)
  | .optional name shape rest, h, (none, vs) => by
    simp only [Fields.lawful, Bool.and_eq_true, decide_eq_true_eq] at h
    obtain ⟨⟨hname, -⟩, hrest⟩ := h
    exact Fields.decodeMembers_later hname Fields.put_optional_of_ne
      (rest.decodeMembers_encode hrest vs) (none : Option (Option shape.Value))
  | .optional name shape rest, h, (some v, vs) => by
    simp only [Fields.lawful, Bool.and_eq_true, decide_eq_true_eq] at h
    obtain ⟨⟨hname, hshape⟩, hrest⟩ := h
    have hput := Fields.put_optional name rest.blank (shape.tree_encode_ne_null v)
      (shape.decode_encode hshape v)
    rw [Fields.encode, memberTrees, decodeMembers]
    simp only [unitText?_units, Fields.blank, hput]
    exact Fields.decodeMembers_later hname Fields.put_optional_of_ne
      (rest.decodeMembers_encode hrest vs) (some (some v))

end

/-- **What is written in a lawful shape is read back from the text, in every style**, whatever
blanks follow. -/
theorem Shape.ofText_render_append {st : Style} (hst : st.Lawful) {s : Shape}
    (hs : s.lawful = true) (v : s.Value) {blanks : String} (hblanks : Spaces blanks.toList) :
    s.ofText ((s.encode v).render st ++ blanks) = .ok v := by
  rw [ofText, readTree_render_append hst _ (s.intact_encode v) hblanks]
  simp only [s.decode_encode hs v]
  rfl

/-- The values of a type with a lawful shape are read back, as far as the shape keeps them. -/
theorem decode_render_append {st : Style} (hst : st.Lawful) {α : Type} [Shaped α]
    (h : (Shaped.shape α).lawful = true) (a : α) {blanks : String}
    (hblanks : Spaces blanks.toList) :
    decode α ((encode a).render st ++ blanks) = .ok (Shaped.ofValue (Shaped.toValue a)) := by
  rw [decode, encode, Shape.ofText_render_append hst h _ hblanks]
  rfl

theorem decode_render {st : Style} (hst : st.Lawful) {α : Type} [Shaped α]
    (h : (Shaped.shape α).lawful = true) (a : α) :
    decode α ((encode a).render st) = .ok (Shaped.ofValue (Shaped.toValue a)) := by
  have hread := @decode_render_append st hst α _ h a "" (List.forall_mem_nil _)
  rwa [String.append_empty] at hread

end Json
end CardInventory
