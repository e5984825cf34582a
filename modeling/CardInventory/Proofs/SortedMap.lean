import CardInventory.SortedMap
import Mathlib.Data.List.Sort
import Mathlib.Data.String.Basic

/-
# What a sorted map holds

A sorted map is known by what it has under each key. `get?_update` says so of the one operation
that changes a map: the value under the key is replaced, all others stay.
`flatMap_values_update` says it of what all values hold together. A list in strictly ascending
order is known by its members, so that `sortedNames` is the only such list of the names it is given
(`eq_sortedNames`), and a map is what its entries make (`ofList_entries`).
-/

namespace CardInventory

/-- Where no key comes twice, a value is found under its key. -/
theorem lookup_eq_some_iff_mem {α β : Type} [BEq α] [LawfulBEq α] {entries : List (α × β)}
    (hnodup : (entries.map Prod.fst).Nodup) {key : α} {value : β} :
    entries.lookup key = some value ↔ (key, value) ∈ entries := by
  rw [List.lookup_eq_some_iff]
  constructor
  · rintro ⟨before, after, rfl, -⟩
    simp
  · intro hmem
    obtain ⟨before, after, rfl⟩ := List.append_of_mem hmem
    refine ⟨before, after, rfl, fun e he => ?_⟩
    rw [List.map_append, List.map_cons] at hnodup
    rw [bne_iff_ne]
    intro heq
    have hbefore : key ∈ before.map Prod.fst := heq ▸ List.mem_map_of_mem he
    exact (List.nodup_middle.1 hnodup).notMem (List.mem_append_left _ hbefore)

theorem lookup_cons_eq_ite {α β : Type} [BEq α] [LawfulBEq α] [DecidableEq α] (j k : α) (v : β)
    (es : List (α × β)) : ((k, v) :: es).lookup j = if j = k then some v else es.lookup j := by
  by_cases h : j = k
  · simp [h]
  · simp [List.lookup_cons, beq_eq_false_iff_ne.2 h, h]

namespace SortedMap

variable {α : Type}

/-! ## Looking up -/

/-- Below the first key there is nothing. -/
theorem lookup_eq_none_of_lt {k : String} {es : List (String × α)} (h : ∀ e ∈ es, k < e.1) :
    es.lookup k = none := by
  rw [List.lookup_eq_none_iff]
  intro e he
  rw [bne_iff_ne]
  exact (h e he).ne

/-- The step of `get?_update` on the entries. -/
theorem lookup_updateEntries {k : String} {f : Option α → α} {es : List (String × α)}
    (h : es.Pairwise fun a b => a.1 < b.1) (j : String) :
    (updateEntries k f es).lookup j = if j = k then some (f (es.lookup k)) else es.lookup j := by
  induction es with
  | nil => simp [updateEntries, lookup_cons_eq_ite]
  | cons e rest ih =>
    obtain ⟨k', v⟩ := e
    obtain ⟨hhead, htail⟩ := List.pairwise_cons.1 h
    unfold updateEntries
    split
    case isTrue hlt =>
      have hnone : ((k', v) :: rest).lookup k = none := by
        refine lookup_eq_none_of_lt fun e he => ?_
        rcases List.mem_cons.1 he with rfl | he
        · exact hlt
        · exact hlt.trans (hhead e he)
      rw [hnone, lookup_cons_eq_ite]
    case isFalse hge =>
      split
      case isTrue hlt =>
        have hk : k ≠ k' := hlt.ne'
        simp only [lookup_cons_eq_ite, ih htail, if_neg hk]
        by_cases hj : j = k'
        · simp [hj, hk.symm]
        · simp [hj]
      case isFalse hle =>
        obtain rfl : k = k' := le_antisymm (not_lt.1 hle) (not_lt.1 hge)
        by_cases hj : j = k <;> simp [lookup_cons_eq_ite, hj]

/-- **An update is seen under its own key only.** -/
@[simp]
theorem get?_update (m : SortedMap α) (k : String) (f : Option α → α) (j : String) :
    (m.update k f).get? j = if j = k then some (f (m.get? k)) else m.get? j :=
  lookup_updateEntries m.ascending j

/-- The keys are those with a value. -/
theorem mem_keys_iff {m : SortedMap α} {k : String} : k ∈ m.keys ↔ ∃ v, m.get? k = some v := by
  rw [← Option.isSome_iff_exists, get?, List.lookup_isSome_iff, keys, List.mem_map]
  exact exists_congr fun e => and_congr_right fun _ => by rw [beq_iff_eq, eq_comm]

/-- The keys ascend strictly. -/
theorem keys_ascending (m : SortedMap α) : m.keys.Pairwise (· < ·) := by
  rw [keys, List.pairwise_map]
  exact m.ascending

/-- Maps with the same keys have the same keys in the same order. -/
theorem keys_eq_of_mem_iff {β : Type} {m : SortedMap α} {n : SortedMap β}
    (h : ∀ k, k ∈ m.keys ↔ k ∈ n.keys) : m.keys = n.keys :=
  m.keys_ascending.eq_of_mem_iff n.keys_ascending h

/-- **An entry is a key with its value.** -/
theorem mem_entries_iff {m : SortedMap α} {k : String} {v : α} :
    (k, v) ∈ m.entries ↔ m.get? k = some v := by
  have hnodup : (m.entries.map Prod.fst).Nodup := m.keys_ascending.imp ne_of_lt
  exact (lookup_eq_some_iff_mem hnodup).symm

/-- **A map is known by what it has under each key.** -/
theorem eq_of_get? {m n : SortedMap α} (h : ∀ k, m.get? k = n.get? k) : m = n := by
  have hasymm : Std.Asymm fun a b : String × α => a.1 < b.1 := ⟨fun _ _ => lt_asymm⟩
  have hirrefl : Std.Irrefl fun a b : String × α => a.1 < b.1 := ⟨fun a => lt_irrefl a.1⟩
  refine ext (m.ascending.eq_of_mem_iff n.ascending fun e => ?_)
  rw [mem_entries_iff (m := m), mem_entries_iff (m := n), h]

/-- Insertions under different keys commute. -/
theorem insert_comm {k k' : String} (h : k ≠ k') (m : SortedMap α) (v v' : α) :
    (m.insert k v).insert k' v' = (m.insert k' v').insert k v := by
  refine eq_of_get? fun j => ?_
  by_cases hj : j = k
  · simp [insert, hj, h]
  · simp [insert, hj]

/-- What stands under a key of one map corresponds to what stands under it in the other. -/
theorem keys_eq_of_rel {β : Type} {m : SortedMap α} {n : SortedMap β}
    {R : α → β → Prop} (h : ∀ k, Option.Rel R (m.get? k) (n.get? k)) :
    m.keys = n.keys ∧ ∀ k v w, m.get? k = some v → n.get? k = some w → R v w := by
  refine ⟨keys_eq_of_mem_iff fun k => ?_, fun k v w hv hw => ?_⟩
  · have hk := h k
    rw [mem_keys_iff, mem_keys_iff]
    generalize m.get? k = v at hk ⊢
    generalize n.get? k = w at hk ⊢
    cases hk with
    | some _ => simp
    | none => simp
  · have hk := h k
    rw [hv, hw] at hk
    cases hk with
    | some hvw => exact hvw

/-- Maps with the same keys have entries one for one. -/
theorem forall₂_entries {β : Type} {m : SortedMap α} {n : SortedMap β} {R : α → β → Prop}
    (hkeys : m.keys = n.keys) (h : ∀ k v w, m.get? k = some v → n.get? k = some w → R v w) :
    List.Forall₂ (fun e₁ e₂ => e₁.1 = e₂.1 ∧ R e₁.2 e₂.2) m.entries n.entries := by
  have hlength : m.entries.length = n.entries.length := by
    simpa [keys] using congrArg List.length hkeys
  refine List.forall₂_iff_get.2 ⟨hlength, fun i hm hn => ?_⟩
  have hkey : (m.entries.get ⟨i, hm⟩).1 = (n.entries.get ⟨i, hn⟩).1 := by
    have hi := congrArg (·[i]?) hkeys
    simpa [keys, hm, hn] using hi
  refine ⟨hkey, h _ _ _ (mem_entries_iff.1 (List.get_mem _ _)) ?_⟩
  rw [hkey]
  exact mem_entries_iff.1 (List.get_mem _ _)

/-! ## Images -/

theorem map_map {β γ : Type} (m : SortedMap α) (f : α → β) (g : β → γ) :
    (m.map f).map g = m.map fun v => g (f v) :=
  ext (List.map_map ..)

theorem values_map {β : Type} (m : SortedMap α) (f : α → β) :
    (m.map f).values = m.values.map f := by
  simp only [values, map, List.map_map]
  rfl

/-- The step of `map_update` on the entries. -/
theorem map_updateEntries {β : Type} {k : String} {f : Option α → α} {f' : Option β → β} {g : α → β}
    (h : ∀ v, g (f v) = f' (v.map g)) (es : List (String × α)) :
    (updateEntries k f es).map (fun e => (e.1, g e.2)) =
      updateEntries k f' (es.map fun e => (e.1, g e.2)) := by
  induction es with
  | nil => simp [updateEntries, h]
  | cons e rest ih =>
    obtain ⟨k', v⟩ := e
    rw [updateEntries, List.map_cons, updateEntries]
    split_ifs
    · rw [List.map_cons, List.map_cons, h]
      rfl
    · rw [List.map_cons, ih]
    · rw [List.map_cons, h]
      rfl

/-- **The image of an updated map is an update of the image**, by what the image of a new value is
made of. -/
theorem map_update {β : Type} {f : Option α → α} {f' : Option β → β} {g : α → β}
    (h : ∀ v, g (f v) = f' (v.map g)) (m : SortedMap α) (k : String) :
    (m.update k f).map g = (m.map g).update k f' :=
  ext (map_updateEntries h m.entries)

/-! ## Sizes -/

/-- The step of `size_update_le` on the entries. -/
theorem length_updateEntries_le (k : String) (f : Option α → α) (es : List (String × α)) :
    (updateEntries k f es).length ≤ es.length + 1 := by
  induction es with
  | nil => exact le_rfl
  | cons e rest ih =>
    obtain ⟨k', v⟩ := e
    unfold updateEntries
    split_ifs
    · exact le_rfl
    · exact Nat.succ_le_succ ih
    · exact Nat.le_succ _

/-- With an update a map has at most one entry more. -/
theorem size_update_le (m : SortedMap α) (k : String) (f : Option α → α) :
    (m.update k f).size ≤ m.size + 1 :=
  length_updateEntries_le k f m.entries

theorem size_map {β : Type} (m : SortedMap α) (f : α → β) : (m.map f).size = m.size :=
  List.length_map _

/-! ## Entries in ascending order -/

/-- A key beyond all others comes last. -/
theorem updateEntries_of_lt {k : String} {f : Option α → α} {es : List (String × α)}
    (h : ∀ e ∈ es, e.1 < k) : updateEntries k f es = es ++ [(k, f none)] := by
  induction es with
  | nil => rfl
  | cons e rest ih =>
    obtain ⟨hhead, htail⟩ := List.forall_mem_cons.1 h
    rw [updateEntries, if_neg hhead.asymm, if_pos hhead, ih htail, List.cons_append]

theorem entries_foldl_insert {es : List (String × α)} : ∀ {m : SortedMap α},
    (m.entries ++ es).Pairwise (fun a b => a.1 < b.1) →
      (es.foldl (fun m e => m.insert e.1 e.2) m).entries = m.entries ++ es := by
  induction es with
  | nil => exact fun _ => (List.append_nil _).symm
  | cons e rest ih =>
    intro m h
    have hlast : ∀ e' ∈ m.entries, e'.1 < e.1 := fun e' he' =>
      (List.pairwise_append.1 h).2.2 e' he' e List.mem_cons_self
    have hentries : (m.insert e.1 e.2).entries = m.entries ++ [e] := updateEntries_of_lt hlast
    rw [List.append_cons] at h ⊢
    rw [← hentries] at h ⊢
    exact ih h

/-- **A map is made of its entries, inserted one after the other.** -/
theorem ofList_entries (m : SortedMap α) : ofList m.entries = m :=
  ext (entries_foldl_insert m.ascending)

/-! ## What the values hold together -/

/-- The step of `flatMap_values_update` on the entries. -/
theorem flatMap_updateEntries {β : Type} {k : String} {f : Option α → α} {held : α → List β}
    {more : List β} (hnew : (held (f none)).Perm more)
    (hold : ∀ v, (held (f (some v))).Perm (held v ++ more)) (es : List (String × α)) :
    ((updateEntries k f es).flatMap fun e => held e.2).Perm
      ((es.flatMap fun e => held e.2) ++ more) := by
  induction es with
  | nil => simpa [updateEntries] using hnew
  | cons e rest ih =>
    obtain ⟨k', v⟩ := e
    unfold updateEntries
    split_ifs
    · rw [List.flatMap_cons]
      exact (hnew.append_right _).trans List.perm_append_comm
    · rw [List.flatMap_cons, List.flatMap_cons, List.append_assoc]
      exact ih.append_left _
    · rw [List.flatMap_cons, List.flatMap_cons]
      refine ((hold v).append_right _).trans ?_
      rw [List.append_assoc, List.append_assoc]
      exact List.perm_append_comm.append_left _

/-- **With an update the values hold more together by what the value under the key does.** -/
theorem flatMap_values_update {β : Type} (m : SortedMap α) {k : String} {f : Option α → α}
    {held : α → List β} {more : List β} (hnew : (held (f none)).Perm more)
    (hold : ∀ v, (held (f (some v))).Perm (held v ++ more)) :
    ((m.update k f).values.flatMap held).Perm (m.values.flatMap held ++ more) := by
  rw [values, values, List.flatMap_map, List.flatMap_map]
  exact flatMap_updateEntries hnew hold m.entries

end SortedMap

/-! ## Sorted names -/

/-- What each step of a fold may bring about holds in the end if a step did or if it held at the
start. -/
theorem foldl_iff {σ α : Type} {f : σ → α → σ} (holds : σ → Prop) {brings : α → Prop}
    (h : ∀ s a, holds (f s a) ↔ brings a ∨ holds s) (as : List α) (s : σ) :
    holds (as.foldl f s) ↔ (∃ a ∈ as, brings a) ∨ holds s := by
  induction as generalizing s with
  | nil => simp
  | cons a rest ih => rw [List.foldl_cons, ih, h, List.exists_mem_cons_iff, or_left_comm, or_assoc]

/-- Inserting adds a key. -/
theorem SortedMap.mem_keys_insert {α : Type} {m : SortedMap α} {k name : String} {v : α} :
    name ∈ (m.insert k v).keys ↔ name = k ∨ name ∈ m.keys := by
  rw [mem_keys_iff, mem_keys_iff, insert]
  by_cases h : name = k <;> simp [h]

@[simp]
theorem mem_sortedNames {names : List String} {name : String} :
    name ∈ sortedNames names ↔ name ∈ names := by
  have hstep : ∀ (m : SortedMap Unit) (e : String × Unit),
      name ∈ (m.insert e.1 e.2).keys ↔ name = e.1 ∨ name ∈ m.keys := fun _ _ =>
    SortedMap.mem_keys_insert
  refine (foldl_iff (name ∈ SortedMap.keys ·) hstep _ _).trans ?_
  simp [SortedMap.keys, SortedMap.empty]

theorem sortedNames_ascending (names : List String) : (sortedNames names).Pairwise (· < ·) :=
  SortedMap.keys_ascending _

/-- **There is one strictly ascending list of given names.** -/
theorem eq_sortedNames {names sorted : List String} (h : sorted.Pairwise (· < ·))
    (hmem : ∀ name, name ∈ sorted ↔ name ∈ names) : sorted = sortedNames names :=
  h.eq_of_mem_iff (sortedNames_ascending names) fun name => by rw [hmem, mem_sortedNames]

end CardInventory
