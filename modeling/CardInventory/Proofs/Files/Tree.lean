import CardInventory.Files.Reader
import CardInventory.Proofs.Path
import CardInventory.Proofs.SortedMap
import CardInventory.Text.Blank
import Mathlib.Data.List.Induction

/-
# File trees

What files and directories there are, apart from what holds them: in memory, on a disk, behind an
operating system. A tree says what a scan is to be told about each place, and a reader shows a
tree when it tells that (`Reader.Shows`). With which error it refuses a request is left open.
-/

namespace CardInventory

/-! ## Trees -/

/-- An entry of a tree. -/
inductive TreeEntry where
  | directory
  | file (content : String)
  deriving DecidableEq, Repr

/-- A finite tree of directories and files. An entry is under the names on the way to it from the
root directory, and every entry is in a directory of the tree. -/
structure FileTree where
  entries : List (List RawText × TreeEntry)
  nodup : (entries.map Prod.fst).Nodup
  root_mem : ([], .directory) ∈ entries
  parent_mem : ∀ e ∈ entries, (e.1.dropLast, .directory) ∈ entries
  isName : ∀ e ∈ entries, ∀ n ∈ e.1, IsName n

namespace FileTree

variable (tree : FileTree) (names : List RawText)

/-- What is at a place. -/
def entry? : Option TreeEntry := tree.entries.lookup names

/-- The names right below a place. -/
def children : List RawText :=
  (tree.entries.map Prod.fst).filterMap fun ns => if ns.dropLast = names then ns.getLast? else none

/-- The content of a file without the blanks at its ends. -/
def content? : Option String :=
  match tree.entry? names with
  | some (.file content) => some (Text.trim content)
  | _ => none

/-- The names in a directory, as they are shown, in ascending order. -/
def listing? : Option (List String) :=
  if tree.entry? names = some .directory then
    some (sortedNames ((tree.children names).map RawText.lossy))
  else none

variable {tree names} {entry : TreeEntry}

/-- A place has at most one entry. -/
theorem entry?_eq_some_iff : tree.entry? names = some entry ↔ (names, entry) ∈ tree.entries :=
  lookup_eq_some_iff_mem tree.nodup

@[simp]
theorem entry?_root : tree.entry? [] = some .directory := entry?_eq_some_iff.2 tree.root_mem

theorem content?_of_file {content : String} (h : tree.entry? names = some (.file content)) :
    tree.content? names = some (Text.trim content) := by
  rw [content?, h]

theorem content?_of_not_file (h : ∀ content, tree.entry? names ≠ some (.file content)) :
    tree.content? names = none := by
  unfold content?
  split
  · exact absurd ‹_› (h _)
  · rfl

/-- **Whatever is above an entry is a directory.** -/
theorem directory_of_above {below : List RawText} (h : (names ++ below, entry) ∈ tree.entries)
    (hbelow : below ≠ []) : (names, .directory) ∈ tree.entries := by
  induction below using List.reverseRecOn generalizing entry with
  | nil => exact absurd rfl hbelow
  | append_singleton init last ih =>
    have hparent := tree.parent_mem _ h
    rw [← List.append_assoc, List.dropLast_concat] at hparent
    rcases eq_or_ne init [] with rfl | hinit
    · rwa [List.append_nil] at hparent
    · exact ih hparent hinit

/-- Above an entry there are entries. -/
theorem exists_above {below : List RawText} (h : tree.entry? (names ++ below) = some entry) :
    ∃ above, tree.entry? names = some above := by
  rcases eq_or_ne below [] with rfl | hbelow
  · exact ⟨entry, by rwa [List.append_nil] at h⟩
  · exact ⟨.directory,
      entry?_eq_some_iff.2 (directory_of_above (entry?_eq_some_iff.1 h) hbelow)⟩

/-- What leads to a directory are directories. -/
theorem directory_of_prefix {ms : List RawText} (h : (names, .directory) ∈ tree.entries)
    (hms : ms <+: names) : (ms, .directory) ∈ tree.entries := by
  obtain ⟨below, rfl⟩ := hms
  rcases eq_or_ne below [] with rfl | hbelow
  · rwa [List.append_nil] at h
  · exact directory_of_above h hbelow

/-- The names below a place are those with an entry. -/
theorem mem_children {n : RawText} :
    n ∈ tree.children names ↔ ∃ entry, (names ++ [n], entry) ∈ tree.entries := by
  simp only [children, List.mem_filterMap, List.mem_map, Option.ite_none_right_eq_some]
  constructor
  · rintro ⟨-, ⟨⟨ns, entry⟩, he, rfl⟩, rfl, hlast⟩
    refine ⟨entry, ?_⟩
    rwa [List.dropLast_append_getLast? n hlast]
  · rintro ⟨entry, he⟩
    exact ⟨names ++ [n], ⟨_, he, rfl⟩, List.dropLast_concat, List.getLast?_concat⟩

theorem nodup_children : (tree.children names).Nodup := by
  refine tree.nodup.filterMap fun ms ns n hms hns => ?_
  simp only [Option.mem_def, Option.ite_none_right_eq_some] at hms hns
  rw [← List.dropLast_append_getLast? n hms.2, ← List.dropLast_append_getLast? n hns.2, hms.1,
    hns.1]

/-- Children are names. -/
theorem isName_of_mem_children {n : RawText} (h : n ∈ tree.children names) : IsName n := by
  obtain ⟨entry, he⟩ := mem_children.1 h
  exact tree.isName _ he n (by simp)

/-- What is listed of a directory are the names of its children. -/
theorem mem_listing {found : List String} (h : tree.listing? names = some found) {s : String} :
    s ∈ found ↔ .ofString s ∈ tree.children names := by
  rw [listing?, Option.ite_none_right_eq_some, Option.some.injEq] at h
  obtain ⟨-, rfl⟩ := h
  rw [mem_sortedNames, List.mem_map]
  constructor
  · rintro ⟨n, hn, rfl⟩
    rwa [(isName_of_mem_children hn).ofString_lossy]
  · exact fun hs => ⟨_, hs, RawText.lossy_ofString s⟩

end FileTree

/-! ## Readers that show a tree -/

/-- How many names below the directory of functions a scan goes: a function, a subsystem, a file. -/
def scanDepth : ℕ := 3

/-- The ways down from the directory of functions, as far as a scan goes. -/
structure IsWayDown (names : List RawText) : Prop where
  length_le : names.length ≤ scanDepth
  isName : ∀ n ∈ names, IsName n

instance (names : List RawText) : Decidable (IsWayDown names) :=
  decidable_of_iff (names.length ≤ scanDepth ∧ ∀ n ∈ names, IsName n)
    ⟨fun ⟨h₁, h₂⟩ => ⟨h₁, h₂⟩, fun ⟨h₁, h₂⟩ => ⟨h₁, h₂⟩⟩

theorem IsWayDown.nil : IsWayDown [] := ⟨Nat.zero_le _, List.forall_mem_nil _⟩

/-- The way down to an entry of a directory, unless it is too far. -/
theorem IsWayDown.concat {names : List RawText} {n : RawText} (h : IsWayDown names)
    (hlength : names.length < scanDepth) (hn : IsName n) : IsWayDown (names ++ [n]) where
  length_le := by
    rw [List.length_append, List.length_singleton]
    omega
  isName := by
    intro m hm
    rcases List.mem_append.1 hm with hm | hm
    · exact h.isName m hm
    · rwa [List.mem_singleton.1 hm]

theorem IsWayDown.isEntryName {names : List RawText} (h : IsWayDown names) :
    ∀ n ∈ names, IsEntryName n := fun n hn => (h.isName n hn).toIsEntryName

/-- A reader shows a tree below a root when it gives what is there, and refuses to give what is
not. -/
structure Reader.Shows (reader : Reader) (tree : FileTree) (root : Path) : Prop where
  read : ∀ names, IsWayDown names → names ≠ [] →
    (reader.read (root.descend names)).toOption = tree.content? (root.names ++ names)
  list : ∀ names, IsWayDown names →
    (reader.list (root.descend names)).toOption = tree.listing? (root.names ++ names)
  present : ∀ names, IsWayDown names → names ≠ [] →
    reader.present (root.descend names) = (tree.entry? (root.names ++ names)).isSome
  find : ∀ names, IsWayDown names → ∀ lead,
    (reader.find (root.descend names) lead).toOption =
      (tree.listing? (root.names ++ names)).map fun found => found.find? (beginsWith lead)

/-- A reader that looks names up in what it lists finds what it shows. -/
theorem Reader.Shows.ofListing {read : Path → Except FileError String}
    {list : Path → Except FileError (List String)} {present : Path → Bool} {tree : FileTree}
    {root : Path}
    (hread : ∀ names, IsWayDown names → names ≠ [] →
      (read (root.descend names)).toOption = tree.content? (root.names ++ names))
    (hlist : ∀ names, IsWayDown names →
      (list (root.descend names)).toOption = tree.listing? (root.names ++ names))
    (hpresent : ∀ names, IsWayDown names → names ≠ [] →
      present (root.descend names) = (tree.entry? (root.names ++ names)).isSome) :
    (Reader.ofListing read list present).Shows tree root where
  read := hread
  list := hlist
  present := hpresent
  find names hnames lead := by
    rw [← hlist names hnames]
    change ((list (root.descend names)).map fun found => found.find? (beginsWith lead)).toOption = _
    cases list (root.descend names) <;> rfl

end CardInventory
