import CardInventory.Proofs.Json.Shape
import CardInventory.Proofs.Results
import Mathlib.Logic.Relation

/-
# The arrangement of a text

What is read does not depend on the order of the members of a record, on members that are none of
its fields, or on the order of the entries of a map with distinct keys, at whatever depth they
stand. `Rearranged` is one such change to a tree, after the shape that is read from it. One change
keeps what is read (`Rearranged.decode_eq`), and so does any number of them
(`Rearranges.decode_eq`).

Members and entries are taken in one after the other, each by a step that may fail. Where the steps
of two of them commute, their order does not matter (`foldlM_eq_of_perm`). The steps of a record
always do (`Fields.take_comm`): members of different fields fill different places, and two of one
field are refused in either order.
-/

namespace CardInventory
namespace Json

/-! ## Steps that may fail -/

section
variable {σ μ : Type} {take : σ → μ → Option σ}

/-- **Steps that commute may come in any order.** -/
theorem foldlM_eq_of_perm {ms ms' : List μ} (h : ms.Perm ms')
    (hcomm : ∀ m ∈ ms, ∀ m' ∈ ms, ∀ s,
      (take s m).bind (take · m') = (take s m').bind (take · m)) (s : σ) :
    ms.foldlM take s = ms'.foldlM take s := by
  induction h generalizing s with
  | nil => rfl
  | cons m _ ih =>
    rw [List.foldlM_cons, List.foldlM_cons]
    exact congrArg _ (funext fun s' => ih (fun m₁ h₁ m₂ h₂ =>
      hcomm m₁ (List.mem_cons_of_mem _ h₁) m₂ (List.mem_cons_of_mem _ h₂)) s')
  | swap m m' rest =>
    have hswap := hcomm m' (by simp) m (by simp) s
    simp only [List.foldlM_cons, Option.bind_eq_bind, ← Option.bind_assoc, hswap]
  | trans h _ ih ih' =>
    rw [ih hcomm s]
    exact ih' (fun m₁ h₁ m₂ h₂ => hcomm m₁ (h.mem_iff.2 h₁) m₂ (h.mem_iff.2 h₂)) s

/-- A step that changes nothing may be left out. -/
theorem foldlM_insert {m : μ} (h : ∀ s, take s m = some s) (before after : List μ) (s : σ) :
    (before ++ m :: after).foldlM take s = (before ++ after).foldlM take s := by
  simp only [List.foldlM_append, List.foldlM_cons, h]
  rfl

/-- A step may be replaced by one that does the same. -/
theorem foldlM_replace {m m' : μ} (h : ∀ s, take s m = take s m') (before after : List μ) (s : σ) :
    (before ++ m :: after).foldlM take s = (before ++ m' :: after).foldlM take s := by
  simp only [List.foldlM_append, List.foldlM_cons, h]

end

/-! ## Members and entries as steps -/

/-- What a draft becomes with a value under a key, where errors are not told apart. -/
def takeValue {δ : Type} (put : δ → String → Tree → Except DecodeError (Option δ)) (draft : δ)
    (key : String) (t : Tree) : Option δ :=
  (put draft key t).toOption.bind fun
    | some draft => some draft
    | none => if t.intact then some draft else none

/-- What a draft becomes with a member. -/
def takeMember {δ : Type} (put : δ → String → Tree → Except DecodeError (Option δ)) (draft : δ)
    (m : List TextUnit × Tree) : Option δ :=
  (unitText? m.1).bind fun key => takeValue put draft key m.2

/-- Members are taken in step by step. -/
theorem toOption_decodeMembers {δ : Type}
    (put : δ → String → Tree → Except DecodeError (Option δ)) (draft : δ)
    (ms : List (List TextUnit × Tree)) :
    (decodeMembers put draft ms true).toOption = ms.foldlM (takeMember put) draft := by
  induction ms generalizing draft with
  | nil => rfl
  | cons m rest ih =>
    obtain ⟨key, t⟩ := m
    rw [decodeMembers, List.foldlM_cons, takeMember]
    cases unitText? key with
    | none => rfl
    | some key =>
      simp only [Option.bind_some, takeValue, toOption_bind, Option.bind_eq_bind,
        Option.bind_assoc]
      refine congrArg _ (funext fun r => ?_)
      cases r with
      | some draft => exact ih draft
      | none =>
        simp only
        split_ifs
        · exact ih draft
        · rfl

/-- What a map becomes with an entry, where errors are not told apart. -/
def takeEntry {α : Type} (item : Tree → Except DecodeError α) (map : SortedMap α)
    (m : List TextUnit × Tree) : Option (SortedMap α) :=
  (unitText? m.1).bind fun key => (item m.2).toOption.map (map.insert key)

/-- Entries are taken in step by step. -/
theorem toOption_decodeEntries {α : Type} (item : Tree → Except DecodeError α)
    (map : SortedMap α) (ms : List (List TextUnit × Tree)) :
    (decodeEntries item map ms true).toOption = ms.foldlM (takeEntry item) map := by
  induction ms generalizing map with
  | nil => rfl
  | cons m rest ih =>
    obtain ⟨key, t⟩ := m
    rw [decodeEntries, List.foldlM_cons, takeEntry]
    cases unitText? key with
    | none => rfl
    | some key =>
      simp only [Option.bind_some, toOption_bind, Option.bind_eq_bind, Option.bind_map]
      exact congrArg _ (funext fun v => ih _)

/-- Entries under different keys may come in either order. -/
theorem takeEntry_comm {α : Type} (item : Tree → Except DecodeError α)
    {m m' : List TextUnit × Tree} (h : unitText? m.1 ≠ unitText? m'.1) (map : SortedMap α) :
    (takeEntry item map m).bind (takeEntry item · m') =
      (takeEntry item map m').bind (takeEntry item · m) := by
  simp only [takeEntry]
  cases hk : unitText? m.1 <;> cases hk' : unitText? m'.1 <;> cases (item m.2).toOption <;>
    cases (item m'.2).toOption <;> simp
  rw [hk, hk'] at h
  exact SortedMap.insert_comm (fun heq => h (congrArg some heq)) ..

/-- Items are read one by one. -/
theorem toOption_decodeItems {α : Type} (item : Tree → Except DecodeError α) (ts : List Tree) :
    (decodeItems item ts true).toOption = ts.mapM fun t => (item t).toOption := by
  induction ts with
  | nil => rfl
  | cons t rest ih =>
    rw [decodeItems, List.mapM_cons, toOption_bind]
    refine congrArg _ (funext fun v => ?_)
    rw [toOption_bind, ih]
    rfl

/-! ## The fields of a record -/

/-- The shape of the field of a name, if there is one. -/
def Fields.shape? : Fields → String → Option Shape
  | .done, _ => none
  | .needed name shape rest, key => if key = name then some shape else rest.shape? key
  | .optional name shape rest, key => if key = name then some shape else rest.shape? key

/-- The value of an optional field, errors not being told apart. -/
def readOptional? (shape : Shape) : Tree → Option (Option shape.Value)
  | .null => some none
  | t => (shape.decode t).toOption.map some

theorem readOptional?_of_ne_null {shape : Shape} {t : Tree} (h : t ≠ .null) :
    readOptional? shape t = (shape.decode t).toOption.map some := by
  rw [readOptional?]
  exact h

/-- What is taken in by two readers of which one does with images of drafts what the other does with
the drafts. -/
theorem takeValue_map {δ ε : Type} {put : δ → String → Tree → Except DecodeError (Option δ)}
    {put' : ε → String → Tree → Except DecodeError (Option ε)} {f : δ → ε} {draft : δ}
    {key : String} {t : Tree}
    (h : put' (f draft) key t = (put draft key t).map (Option.map f)) :
    takeValue put' (f draft) key t = (takeValue put draft key t).map f := by
  rw [takeValue, h, takeValue, toOption_map, Option.bind_map, Option.map_bind]
  refine congrArg _ (funext fun r => ?_)
  cases r with
  | some draft => rfl
  | none =>
    simp only [Function.comp, Option.map_none]
    split_ifs <;> rfl

/-- How a record is read by its first field, whose value is read by `read`: a value under its name
fills its place, once only, and any other value is left to the later fields. -/
structure TakesFirst {β ρ : Type} (take : Option β × ρ → String → Tree → Option (Option β × ρ))
    (name : String) (read : Tree → Option β) (rest : ρ → String → Tree → Option ρ) : Prop where
  filled : ∀ v draft t, take (some v, draft) name t = none
  own : ∀ draft t, take (none, draft) name t = (read t).map fun v => (some v, draft)
  other : ∀ v draft {key}, key ≠ name → ∀ t,
    take (v, draft) key t = (rest draft key t).map fun draft => (v, draft)

theorem takesFirst_needed (name : String) (shape : Shape) (rest : Fields) :
    TakesFirst (takeValue (Fields.needed name shape rest).put) name
      (fun t => (shape.decode t).toOption) (takeValue rest.put) where
  filled v draft t := by
    rw [takeValue, Fields.put.eq_def]
    simp only [if_true]
    rfl
  own draft t := by
    rw [takeValue, Fields.put.eq_def]
    simp only [if_true, toOption_map, Option.bind_map]
    cases (shape.decode t).toOption <;> rfl
  other v draft _ hkey t := takeValue_map (Fields.put_needed_of_ne v draft hkey t)

theorem takesFirst_optional (name : String) (shape : Shape) (rest : Fields) :
    TakesFirst (takeValue (Fields.optional name shape rest).put) name (readOptional? shape)
      (takeValue rest.put) where
  filled v draft t := by
    rw [takeValue, Fields.put, if_pos rfl]
    rfl
  own draft t := by
    by_cases ht : t = .null
    · subst ht
      rw [takeValue, Fields.put, if_pos rfl]
      rfl
    · rw [takeValue, Fields.put, if_pos rfl, readOptional?_of_ne_null ht]
      · simp only [toOption_map, Option.bind_map]
        cases (shape.decode t).toOption <;> rfl
      · exact ht
  other v draft _ hkey t := takeValue_map (Fields.put_optional_of_ne v draft hkey t)

/-- Do two values under keys have the same effect in either order? -/
def TakesCommute {δ : Type} (take : δ → String → Tree → Option δ) : Prop :=
  ∀ draft key t key' t', (take draft key t).bind (take · key' t') =
    (take draft key' t').bind (take · key t)

section
variable {β ρ : Type} {take : Option β × ρ → String → Tree → Option (Option β × ρ)} {name : String}
  {read : Tree → Option β} {rest : ρ → String → Tree → Option ρ}

/-- A value for the first field and one for a later field fill different places. -/
theorem TakesFirst.own_other (h : TakesFirst take name read rest) (v : Option β) (draft : ρ)
    {key : String} (hkey : key ≠ name) (t t' : Tree) :
    (take (v, draft) name t).bind (take · key t') =
      (take (v, draft) key t').bind (take · name t) := by
  cases v with
  | some v => cases hrest : rest draft key t' <;> simp [h.filled, h.other _ _ hkey, hrest]
  | none =>
    cases hread : read t <;> cases hrest : rest draft key t' <;>
      simp [h.own, h.other _ _ hkey, hread, hrest]

/-- **The values of a record commute** if those of the later fields do. -/
theorem TakesFirst.commute (h : TakesFirst take name read rest) (hrest : TakesCommute rest) :
    TakesCommute take := by
  rintro ⟨v, draft⟩ key t key' t'
  by_cases hkey : key = name <;> by_cases hkey' : key' = name
  · -- two values for the first field are refused
    subst hkey hkey'
    cases v with
    | some v => simp only [h.filled, Option.bind_none]
    | none =>
      cases hread : read t <;> cases hread' : read t' <;>
        simp [h.own, h.filled, hread, hread']
  · subst hkey
    exact h.own_other v draft hkey' t t'
  · subst hkey'
    exact (h.own_other v draft hkey t' t).symm
  · have hmap := congrArg (Option.map fun draft => (v, draft)) (hrest draft key t key' t')
    simpa only [h.other _ _ hkey, h.other _ _ hkey', Option.bind_map, Option.map_bind,
      Function.comp_def] using hmap

/-- A value under a name that the first field does not have. -/
theorem TakesFirst.unknown (h : TakesFirst take name read rest) {key : String} (hkey : key ≠ name)
    {t : Tree} (hrest : ∀ draft, rest draft key t = some draft) (d : Option β × ρ) :
    take d key t = some d := by
  rw [h.other d.1 d.2 hkey, hrest, Option.map_some]

/-- Two values that are the same for the field of a name. -/
theorem TakesFirst.congr (h : TakesFirst take name read rest) {key : String} {t t' : Tree}
    (hown : key = name → read t = read t')
    (hrest : key ≠ name → ∀ draft, rest draft key t = rest draft key t') (d : Option β × ρ) :
    take d key t = take d key t' := by
  obtain ⟨v, draft⟩ := d
  by_cases hkey : key = name
  · subst hkey
    cases v with
    | some v => rw [h.filled, h.filled]
    | none => rw [h.own, h.own, hown rfl]
  · rw [h.other v draft hkey, h.other v draft hkey, hrest hkey]

end

namespace Fields

/-- **Values for a record may come in either order.** -/
theorem take_comm : ∀ fs : Fields, TakesCommute (takeValue fs.put)
  | .done => by
    intro draft key t key' t'
    cases ht : t.intact <;> cases ht' : t'.intact <;>
      simp [takeValue, put, Except.toOption, ht, ht']
  | .needed name shape rest => (takesFirst_needed name shape rest).commute rest.take_comm
  | .optional name shape rest => (takesFirst_optional name shape rest).commute rest.take_comm

/-- **A value under a name that no field has changes nothing**, if only it is free of faults. -/
theorem take_unknown {key : String} {t : Tree} (ht : t.intact = true) : ∀ {fs : Fields},
    key ∉ fs.names → ∀ draft, takeValue fs.put draft key t = some draft
  | .done, _, draft => if_pos ht
  | .needed name shape rest, h, draft => by
    obtain ⟨hkey, hrest⟩ := not_or.1 (mt List.mem_cons.2 h)
    exact (takesFirst_needed name shape rest).unknown hkey (take_unknown ht hrest) draft
  | .optional name shape rest, h, draft => by
    obtain ⟨hkey, hrest⟩ := not_or.1 (mt List.mem_cons.2 h)
    exact (takesFirst_optional name shape rest).unknown hkey (take_unknown ht hrest) draft

/-- **A value may be replaced by one that its field reads alike.** -/
theorem take_congr {key : String} {shape : Shape} {t t' : Tree}
    (h : (shape.decode t).toOption = (shape.decode t').toOption) (ht : t ≠ .null)
    (ht' : t' ≠ .null) : ∀ {fs : Fields}, fs.shape? key = some shape →
      ∀ draft, takeValue fs.put draft key t = takeValue fs.put draft key t'
  | .done, hshape, _ => by cases hshape
  | .needed name shape' rest, hshape, draft => by
    refine (takesFirst_needed name shape' rest).congr (fun hkey => ?_) (fun hkey => ?_) draft
    · rw [shape?, if_pos hkey] at hshape
      obtain rfl := Option.some.inj hshape
      exact h
    · rw [shape?, if_neg hkey] at hshape
      exact take_congr h ht ht' hshape
  | .optional name shape' rest, hshape, draft => by
    refine (takesFirst_optional name shape' rest).congr (fun hkey => ?_) (fun hkey => ?_) draft
    · rw [shape?, if_pos hkey] at hshape
      obtain rfl := Option.some.inj hshape
      rw [readOptional?_of_ne_null ht, readOptional?_of_ne_null ht', h]
    · rw [shape?, if_neg hkey] at hshape
      exact take_congr h ht ht' hshape

end Fields

/-- A record is what its members make of a blank draft. -/
theorem toOption_decode_record (name : String) (fields : Fields)
    (ms : List (List TextUnit × Tree)) :
    ((Shape.record name fields).decode (.object ms true)).toOption =
      (ms.foldlM (takeMember fields.put) fields.blank).bind fun draft =>
        (fields.finish draft).toOption := by
  rw [Shape.decode, toOption_bind, toOption_decodeMembers]

/-! ## Changes of the arrangement -/

/-- One change of how a text is arranged, in the tree that a shape is read from. -/
inductive Rearranged : Shape → Tree → Tree → Prop
  /-- The members of a record stand in another order. -/
  | members {name : String} {fields : Fields} {ms ms' : List (List TextUnit × Tree)}
      (h : ms.Perm ms') : Rearranged (.record name fields) (.object ms true) (.object ms' true)
  /-- There is one more member, whose name is that of no field. -/
  | unknown {name : String} {fields : Fields} {before after : List (List TextUnit × Tree)}
      {key : List TextUnit} {value : Tree} {keyName : String}
      (hspelled : (Phrase.member (key, value)).Spelled) (hkey : unitText? key = some keyName)
      (hname : keyName ∉ fields.names) :
      Rearranged (.record name fields) (.object (before ++ after) true)
        (.object (before ++ (key, value) :: after) true)
  /-- The entries of a map, whose keys are distinct, stand in another order. -/
  | entries {item : Shape} {ms ms' : List (List TextUnit × Tree)}
      (hkeys : (ms.map fun m => unitText? m.1).Nodup) (h : ms.Perm ms') :
      Rearranged (.map item) (.object ms true) (.object ms' true)
  /-- There is a change in a field of a record. -/
  | inField {name : String} {fields : Fields} {before after : List (List TextUnit × Tree)}
      {key : List TextUnit} {keyName : String} {shape : Shape} {t t' : Tree}
      (hkey : unitText? key = some keyName) (hshape : fields.shape? keyName = some shape)
      (h : Rearranged shape t t') :
      Rearranged (.record name fields) (.object (before ++ (key, t) :: after) true)
        (.object (before ++ (key, t') :: after) true)
  /-- There is a change in an entry of a map. -/
  | inEntry {item : Shape} {before after : List (List TextUnit × Tree)} {key : List TextUnit}
      {t t' : Tree} (h : Rearranged item t t') :
      Rearranged (.map item) (.object (before ++ (key, t) :: after) true)
        (.object (before ++ (key, t') :: after) true)
  /-- There is a change in an item of a list. -/
  | inItem {item : Shape} {before after : List Tree} {t t' : Tree} (h : Rearranged item t t') :
      Rearranged (.list item) (.array (before ++ t :: after) true)
        (.array (before ++ t' :: after) true)

/-- Any number of changes. -/
def Rearranges (s : Shape) : Tree → Tree → Prop := Relation.ReflTransGen (Rearranged s)

namespace Rearranged

variable {s : Shape} {t t' : Tree}

theorem ne_null (h : Rearranged s t t') : t ≠ .null ∧ t' ≠ .null := by
  cases h <;> exact ⟨Tree.noConfusion, Tree.noConfusion⟩

/-- **One change keeps what is read.** The induction is on where it is made. -/
theorem decode_eq (h : Rearranged s t t') : (s.decode t).toOption = (s.decode t').toOption := by
  induction h with
  | @members name fields ms ms' h =>
    rw [toOption_decode_record, toOption_decode_record, foldlM_eq_of_perm h]
    intro m _ m' _ draft
    simp only [takeMember]
    cases unitText? m.1 with
    | none => simp
    | some key =>
      cases unitText? m'.1 with
      | none => simp
      | some key' => exact fields.take_comm ..
  | @unknown name fields before after key value keyName hspelled hkey hname =>
    have hvalue : value.intact = true := by
      obtain ⟨cs, hcs⟩ := hspelled
      exact hcs.intact
    rw [toOption_decode_record, toOption_decode_record, foldlM_insert]
    intro draft
    rw [takeMember, hkey]
    exact Fields.take_unknown hvalue hname draft
  | entries hkeys h =>
    rw [Shape.decode, Shape.decode, toOption_decodeEntries, toOption_decodeEntries,
      foldlM_eq_of_perm h]
    intro m hm m' hm' map
    by_cases heq : unitText? m.1 = unitText? m'.1
    · obtain rfl : m = m' := List.inj_on_of_nodup_map hkeys hm hm' heq
      rfl
    · exact takeEntry_comm _ heq map
  | inField hkey hshape h ih =>
    rw [toOption_decode_record, toOption_decode_record, foldlM_replace]
    intro draft
    rw [takeMember, takeMember, hkey]
    exact Fields.take_congr ih h.ne_null.1 h.ne_null.2 hshape draft
  | inEntry _ ih =>
    rw [Shape.decode, Shape.decode, toOption_decodeEntries, toOption_decodeEntries, foldlM_replace]
    intro map
    rw [takeEntry, takeEntry, ih]
  | inItem _ ih =>
    rw [Shape.decode, Shape.decode]
    simp only [toOption_decodeItems, List.mapM_append, List.mapM_cons, ih]

/-- The value of a member may be replaced by one that is spelled. -/
theorem spelled_of_replace {before after : List (List TextUnit × Tree)} {key : List TextUnit}
    (h : (Phrase.value t).Spelled → (Phrase.value t').Spelled)
    (ht : (Phrase.value (.object (before ++ (key, t) :: after) true)).Spelled) :
    (Phrase.value (.object (before ++ (key, t') :: after) true)).Spelled := by
  rw [spelled_object_iff, List.forall_mem_append, List.forall_mem_cons] at ht ⊢
  obtain ⟨hbefore, hmember, hafter⟩ := ht
  rw [spelled_member_iff] at hmember
  exact ⟨hbefore, spelled_member_iff.2 ⟨hmember.1, h hmember.2⟩, hafter⟩

/-- **A changed tree is spelled by some text** if the tree was. -/
theorem spelled (h : Rearranged s t t') (ht : (Phrase.value t).Spelled) :
    (Phrase.value t').Spelled := by
  induction h with
  | members h =>
    rw [spelled_object_iff] at ht ⊢
    exact fun m hm => ht m (h.mem_iff.2 hm)
  | unknown hspelled _ _ =>
    rw [spelled_object_iff, List.forall_mem_append] at ht ⊢
    exact ⟨ht.1, List.forall_mem_cons.2 ⟨hspelled, ht.2⟩⟩
  | entries _ h =>
    rw [spelled_object_iff] at ht ⊢
    exact fun m hm => ht m (h.mem_iff.2 hm)
  | inField _ _ _ ih => exact spelled_of_replace ih ht
  | inEntry _ ih => exact spelled_of_replace ih ht
  | inItem _ ih =>
    rw [spelled_array_iff, List.forall_mem_append, List.forall_mem_cons] at ht ⊢
    exact ⟨ht.1, ih ht.2.1, ht.2.2⟩

end Rearranged

namespace Rearranges

variable {s : Shape} {t t' : Tree}

/-- **Any number of changes keeps what is read.** -/
theorem decode_eq (h : Rearranges s t t') : (s.decode t).toOption = (s.decode t').toOption := by
  induction h with
  | refl => rfl
  | tail _ h ih => rw [ih, h.decode_eq]

theorem spelled (h : Rearranges s t t') (ht : (Phrase.value t).Spelled) :
    (Phrase.value t').Spelled := by
  induction h with
  | refl => exact ht
  | tail _ h ih => exact h.spelled ih

end Rearranges

/-! ## Texts -/

/-- **What is read from a text is read from the tree that it spells.** -/
theorem Shape.ofText_eq_ok_iff {s : Shape} {text : String} {v : s.Value} :
    s.ofText text = .ok v ↔ ∃ t, Spells text.toList (.item t) ∧ s.decode t = .ok v := by
  constructor
  · intro h
    rw [ofText] at h
    cases hread : readTree text with
    | mk t clean =>
      rw [hread] at h
      obtain ⟨v', hv', hclean⟩ := exists_of_bind_eq_ok h
      split_ifs at hclean with htrue
      obtain rfl := Except.ok.inj hclean
      subst htrue
      exact ⟨t, readTree_eq_iff.1 hread, hv'⟩
  · rintro ⟨t, ht, hv⟩
    rw [ofText, readTree_eq_iff.2 ht]
    simp only [hv]
    rfl

/-- A text spells one tree only. -/
theorem spells_unique {text : String} {t t' : Tree} (h : Spells text.toList (.item t))
    (h' : Spells text.toList (.item t')) : t = t' :=
  congrArg Prod.fst ((readTree_eq_iff.2 h).symm.trans (readTree_eq_iff.2 h'))

theorem Shape.toOption_ofText {s : Shape} {text : String} {t : Tree}
    (h : Spells text.toList (.item t)) : (s.ofText text).toOption = (s.decode t).toOption := by
  refine Option.ext fun v => ?_
  rw [toOption_eq_some_iff, toOption_eq_some_iff, Shape.ofText_eq_ok_iff]
  constructor
  · rintro ⟨t', ht', hv⟩
    rwa [spells_unique h ht']
  · exact fun hv => ⟨t, h, hv⟩

/-- Does what is read of a type ignore how a text is arranged? -/
structure IgnoresArrangement (α : Type) [Shaped α] : Prop where
  /-- A text from which a value is read spells one tree. -/
  existsUnique_spells : ∀ (text : String) (a : α), decode α text = .ok a →
    ∃! t, Spells text.toList (.item t)
  /-- After any changes there is a text that spells the tree. -/
  exists_spells : ∀ (text : String) (t t' : Tree), Spells text.toList (.item t) →
    Rearranges (Shaped.shape α) t t' → ∃ text' : String, Spells text'.toList (.item t')
  /-- From every such text the same is read as before. -/
  decode_eq_ok_iff : ∀ (text text' : String) (t t' : Tree), Spells text.toList (.item t) →
    Spells text'.toList (.item t') → Rearranges (Shaped.shape α) t t' →
      ∀ a : α, decode α text = .ok a ↔ decode α text' = .ok a

variable (α : Type) [Shaped α] in
/-- **What is read ignores how a text is arranged**, whatever the shape. -/
theorem ignoresArrangement : IgnoresArrangement α where
  existsUnique_spells text a h := by
    obtain ⟨v, hv, -⟩ := exists_of_map_eq_ok h
    obtain ⟨t, ht, -⟩ := Shape.ofText_eq_ok_iff.1 hv
    exact ⟨t, ht, fun t' ht' => spells_unique ht' ht⟩
  exists_spells text t t' ht h := by
    obtain ⟨cs, hcs⟩ := spelled_item_iff.2 (h.spelled (spelled_item_iff.1 ⟨_, ht⟩))
    refine ⟨String.ofList cs, ?_⟩
    rwa [String.toList_ofList]
  decode_eq_ok_iff text text' t t' ht ht' h a := by
    have hread : (decode α text).toOption = (decode α text').toOption := by
      rw [decode, decode, toOption_map, toOption_map, Shape.toOption_ofText ht,
        Shape.toOption_ofText ht', h.decode_eq]
    rw [← toOption_eq_some_iff, hread, toOption_eq_some_iff]

end Json
end CardInventory
