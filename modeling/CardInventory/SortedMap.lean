/-
# Maps with text keys in ascending order

A map is the list of its entries, keys strictly ascending by code point, which is also the order
of their UTF-8 bytes. So two maps with the same entries are equal, and a map is printed in one
order only.
-/

namespace CardInventory

/-- A map from texts to values, as its entries in ascending order of the keys. -/
structure SortedMap (α : Type) where
  entries : List (String × α)
  ascending : entries.Pairwise fun a b => a.1 < b.1

namespace SortedMap

variable {α : Type}

theorem ext {m n : SortedMap α} (h : m.entries = n.entries) : m = n := by
  cases m; cases n; cases h; rfl

instance [DecidableEq α] : DecidableEq (SortedMap α) := fun m n =>
  decidable_of_iff (m.entries = n.entries) ⟨ext, fun h => h ▸ rfl⟩

/-- The map without entries. -/
def empty : SortedMap α := ⟨[], .nil⟩

instance : EmptyCollection (SortedMap α) := ⟨empty⟩

instance : Inhabited (SortedMap α) := ⟨empty⟩

/-- How many entries there are. -/
def size (m : SortedMap α) : Nat := m.entries.length

/-- The keys in ascending order. -/
def keys (m : SortedMap α) : List String := m.entries.map (·.1)

/-- The values in ascending order of their keys. -/
def values (m : SortedMap α) : List α := m.entries.map (·.2)

/-- The value under a key. -/
def get? (m : SortedMap α) (k : String) : Option α := m.entries.lookup k

/-- The map with every value replaced by its image. -/
def map {β : Type} (f : α → β) (m : SortedMap α) : SortedMap β :=
  ⟨m.entries.map fun e => (e.1, f e.2), by
    simpa [List.pairwise_map] using m.ascending⟩

/-! ## Changing one entry -/

/-- The entries with the value under `k` replaced by what `f` makes of it. -/
def updateEntries (k : String) (f : Option α → α) : List (String × α) → List (String × α)
  | [] => [(k, f none)]
  | (k', v) :: rest =>
    if k < k' then (k, f none) :: (k', v) :: rest
    else if k' < k then (k', v) :: updateEntries k f rest
    else (k, f (some v)) :: rest

theorem fst_of_mem_updateEntries {k : String} {f : Option α → α} {es : List (String × α)}
    {e : String × α} (h : e ∈ updateEntries k f es) : e.1 = k ∨ e ∈ es := by
  induction es with
  | nil => simp_all [updateEntries]
  | cons e' rest ih => grind [updateEntries]

theorem ascending_updateEntries {k : String} {f : Option α → α} {es : List (String × α)}
    (h : es.Pairwise fun a b => a.1 < b.1) :
    (updateEntries k f es).Pairwise fun a b => a.1 < b.1 := by
  induction es with
  | nil => simp [updateEntries]
  | cons e rest ih =>
    obtain ⟨k', v⟩ := e
    obtain ⟨hhead, htail⟩ := List.pairwise_cons.1 h
    unfold updateEntries
    split
    case isTrue hlt =>
      refine List.pairwise_cons.2 ⟨fun e he => ?_, h⟩
      rcases List.mem_cons.1 he with rfl | he
      · exact hlt
      · exact String.lt_trans hlt (hhead e he)
    case isFalse hge =>
      split
      case isTrue hlt =>
        refine List.pairwise_cons.2 ⟨fun e he => ?_, ih htail⟩
        rcases fst_of_mem_updateEntries he with hk | he
        · exact hk ▸ hlt
        · exact hhead e he
      case isFalse hle =>
        have hk : k = k' := String.le_antisymm (String.not_lt.1 hle) (String.not_lt.1 hge)
        exact List.pairwise_cons.2 ⟨fun e he => hk ▸ hhead e he, htail⟩

/-- The map with the value under `k` replaced by what `f` makes of it; `f` is given nothing where
the key is new. -/
def update (m : SortedMap α) (k : String) (f : Option α → α) : SortedMap α :=
  ⟨updateEntries k f m.entries, ascending_updateEntries m.ascending⟩

/-- The map with `v` under `k`, whatever was there. -/
def insert (m : SortedMap α) (k : String) (v : α) : SortedMap α := m.update k fun _ => v

/-- The map of a list of entries, of which the last one with a key stays. -/
def ofList (es : List (String × α)) : SortedMap α :=
  es.foldl (fun m e => m.insert e.1 e.2) empty

end SortedMap

/-- The texts of a list in ascending order, each once. -/
def sortedNames (names : List String) : List String :=
  (SortedMap.ofList (names.map fun name => (name, ()))).keys

end CardInventory
