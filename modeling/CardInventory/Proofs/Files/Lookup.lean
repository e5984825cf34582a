import CardInventory.Proofs.Files.Additions
import CardInventory.Proofs.Files.Names
import CardInventory.Proofs.Text.Bytes

/-
# Looking a name up by its beginning

A reader that looks names up finds, of the entries of a directory that begin with a text, the one
with the least bytes (`Reader.FindsLeast`). It takes the first name that fits in what it lists, and
that is the least one wherever the listing is in ascending order and has the names of the entries
and no others (`Reader.FindsLeast.ofListing`). A tree in memory lists so because it keeps the names
of a directory as a set, an operating system because the names are sorted, in whatever order they
came. So both find the least entry (`find_least_match`), and an entry that has the whole text for
its name comes before all others.
-/

namespace CardInventory

/-! ## The least name -/

/-- Of the entries whose names begin with a text, this is the one with the least bytes. -/
structure IsLeastMatch (isEntry : String → Prop) (lead name : String) : Prop where
  entry : isEntry name
  begins : Text.utf8 lead <+: Text.utf8 name
  lt_other : ∀ other, isEntry other → Text.utf8 lead <+: Text.utf8 other → other ≠ name →
    Text.utf8 name < Text.utf8 other

/-- Names are compared with a beginning by their bytes. -/
theorem beginsWith_iff {lead name : String} :
    beginsWith lead name = true ↔ Text.utf8 lead <+: Text.utf8 name := by
  rw [beginsWith, List.isPrefixOf_iff_prefix, Text.utf8_prefix_utf8_iff]

namespace IsLeastMatch

variable {isEntry : String → Prop} {lead m n : String}

theorem unique (hm : IsLeastMatch isEntry lead m) (hn : IsLeastMatch isEntry lead n) : m = n := by
  by_contra hne
  have hmn := hm.lt_other n hn.entry hn.begins (Ne.symm hne)
  have hnm := hn.lt_other m hm.entry hm.begins hne
  exact List.lt_asymm hmn hnm

/-- A name begins with itself, and all others that begin with it are longer. -/
theorem self (h : isEntry lead) : IsLeastMatch isEntry lead lead where
  entry := h
  begins := List.prefix_rfl
  lt_other other _ hother hne := by
    have hle : lead ≤ other := not_lt.1 fun hlt =>
      (Text.utf8_prefix_utf8_iff.1 hother).le (String.lt_iff_toList_lt.1 hlt)
    exact Text.utf8_lt_utf8_iff.2 (lt_of_le_of_ne hle hne.symm)

theorem congr {isEntry' : String → Prop} (h : ∀ n, isEntry n ↔ isEntry' n) :
    IsLeastMatch isEntry lead n ↔ IsLeastMatch isEntry' lead n := by
  rw [funext fun n => propext (h n)]

end IsLeastMatch

section
variable {names : List String} {lead n : String} (hascending : names.Pairwise (· ≤ ·))
include hascending

/-- What comes first among the names that fit has no lesser one after it. -/
theorem isLeastMatch_of_find?_eq_some (h : names.find? (beginsWith lead) = some n) :
    IsLeastMatch (· ∈ names) lead n := by
  obtain ⟨hbegins, before, after, rfl, hbefore⟩ := List.find?_eq_some_iff_append.1 h
  refine ⟨List.mem_append_right _ List.mem_cons_self, beginsWith_iff.1 hbegins, ?_⟩
  intro other hother hfits hne
  -- A name that fits cannot stand before the first one that does.
  have hafter : other ∈ after := by
    rcases List.mem_append.1 hother with hother | hother
    · have hno := hbefore other hother
      rw [beginsWith_iff.2 hfits] at hno
      cases hno
    · exact (List.mem_cons.1 hother).resolve_left hne
  have hle : n ≤ other :=
    List.rel_of_pairwise_cons (List.pairwise_append.1 hascending).2.1 hafter
  exact Text.utf8_lt_utf8_iff.2 (lt_of_le_of_ne hle hne.symm)

/-- **The first name that fits, in ascending order, is the least one.** -/
theorem find?_beginsWith_eq_some_iff :
    names.find? (beginsWith lead) = some n ↔ IsLeastMatch (· ∈ names) lead n := by
  refine ⟨isLeastMatch_of_find?_eq_some hascending, fun h => ?_⟩
  obtain ⟨m, hm⟩ := Option.isSome_iff_exists.1
    (List.find?_isSome.2 ⟨n, h.entry, beginsWith_iff.2 h.begins⟩)
  rw [hm, (isLeastMatch_of_find?_eq_some hascending hm).unique h]

end

/-! ## Readers -/

/-- A reader refuses to look names up in a directory just where it refuses to list it. It finds
nothing where no entry begins with the text, and else the least entry that does; an entry with the
text for its name is always that one. -/
structure Reader.FindsLeast (reader : Reader) (dir : Path) (isEntry : String → Prop) : Prop where
  error_iff : ∀ lead e, reader.find dir lead = .error e ↔ reader.list dir = .error e
  none_iff : ∀ lead, reader.find dir lead = .ok none ↔
    (∃ names, reader.list dir = .ok names) ∧
      ∀ name, isEntry name → ¬ Text.utf8 lead <+: Text.utf8 name
  some_iff : ∀ lead name, reader.find dir lead = .ok (some name) ↔ IsLeastMatch isEntry lead name
  whole : ∀ lead, isEntry lead → reader.find dir lead = .ok (some lead)

namespace Reader.FindsLeast

variable {reader : Reader} {dir : Path} {isEntry : String → Prop}

/-- There is nothing to find where a directory is not listed. -/
theorem of_error {e : FileError} (hlist : reader.list dir = .error e)
    (hfind : ∀ lead, reader.find dir lead = .error e) (hno : ∀ name, ¬ isEntry name) :
    reader.FindsLeast dir isEntry where
  error_iff lead e' := by simp [hfind, hlist]
  none_iff lead := by simp [hfind, hlist]
  some_iff lead name := iff_of_false (by simp [hfind]) fun h => hno name h.entry
  whole lead h := absurd h (hno lead)

/-- Where a directory is listed in ascending order, the least entry is found. -/
theorem of_ok {names : List String} (hlist : reader.list dir = .ok names)
    (hfind : ∀ lead, reader.find dir lead = .ok (names.find? (beginsWith lead)))
    (hascending : names.Pairwise (· ≤ ·)) (hmem : ∀ name, name ∈ names ↔ isEntry name) :
    reader.FindsLeast dir isEntry where
  error_iff lead e := by simp [hfind, hlist]
  none_iff lead := by simp [hfind, hlist, List.find?_eq_none, beginsWith_iff, hmem]
  some_iff lead name := by
    rw [hfind, Except.ok.injEq, find?_beginsWith_eq_some_iff hascending, IsLeastMatch.congr hmem]
  whole lead h := by
    have hmatch : IsLeastMatch (· ∈ names) lead lead := .self ((hmem lead).2 h)
    rw [hfind, (find?_beginsWith_eq_some_iff hascending).2 hmatch]

/-- **A reader that looks names up in what it lists, in ascending order, finds the least one.** -/
theorem ofListing {read : Path → Except FileError String}
    {list : Path → Except FileError (List String)} {present : Path → Bool}
    (hok : ∀ names, list dir = .ok names →
      names.Pairwise (· ≤ ·) ∧ ∀ name, name ∈ names ↔ isEntry name)
    (herror : ∀ e, list dir = .error e → ∀ name, ¬ isEntry name) :
    (Reader.ofListing read list present).FindsLeast dir isEntry := by
  cases hlist : list dir with
  | error e => exact of_error hlist (fun lead => congrArg (Except.map _) hlist) (herror e hlist)
  | ok names =>
    obtain ⟨hascending, hmem⟩ := hok names hlist
    exact of_ok hlist (fun lead => congrArg (Except.map _) hlist) hascending hmem

end Reader.FindsLeast

/-! ## Entries of a tree in memory -/

namespace MemoryTree

/-- There is a directory at a path, and right below it an entry that is shown under a name. -/
def HasEntry (tree : MemoryTree) (dir : Path) (name : String) : Prop :=
  dir.route ∈ tree.dirs ∧ ∃ n, dir.route.child n ∈ tree.routes ∧ n.lossy = name

/-- In a tree that was filled, the entries are what there is under the paths of their names, damaged
or not. Only the empty path may have something under it and be no directory. -/
theorem hasEntry_ofEntries_iff {adds : List (Path × TreeEntry)} {dir : Path} {name : String}
    (hne : dir.route.isEmpty = false) : (ofEntries adds).HasEntry dir name ↔
      ∃ n, IsEntryName n ∧ (ofEntries adds).present (dir.join n) = true ∧ n.lossy = name := by
  have hpresent : ∀ {n}, IsEntryName n → ((ofEntries adds).present (dir.join n) = true ↔
      dir.route.child n ∈ (ofEntries adds).routes) := fun hn => by
    rw [present, Path.route_join dir hn, decide_eq_true_iff]
  constructor
  · rintro ⟨-, n, hroute, hshown⟩
    have hn := isEntryName_of_child_mem_routes hroute
    exact ⟨n, hn, (hpresent hn).2 hroute, hshown⟩
  · rintro ⟨n, hn, hjoin, hshown⟩
    have hroute := (hpresent hn).1 hjoin
    obtain ⟨hparent, -⟩ := Route.eq_child_iff.2 (rfl : dir.route.child n = _)
    exact ⟨mem_dirs_iff.2 (addedDirectory_of_parent? hroute hparent hne), n, hroute, hshown⟩

/-- The names of a directory in memory are a set. -/
theorem findsLeast (tree : MemoryTree) (dir : Path) :
    tree.reader.FindsLeast dir (tree.HasEntry dir) := by
  refine .ofListing (fun names hlist => ?_) fun e hlist name hentry => ?_
  · unfold MemoryTree.list at hlist
    split_ifs at hlist with hdir
    obtain rfl := Except.ok.inj hlist
    refine ⟨children_ascending.imp le_of_lt, fun name => ?_⟩
    rw [mem_children, HasEntry, and_iff_right hdir]
  · rw [MemoryTree.list, if_pos hentry.1] at hlist
    cases hlist

end MemoryTree

/-! ## Entries behind an operating system -/

namespace System

/-- The names in a directory can be read, and there is an entry of a name among them. -/
def HasEntry (system : System) (dir : Path) (name : String) : Prop :=
  ∃ names, system.readNames dir = .ok names ∧ .ofString name ∈ names

/-- None of the names in a directory is damaged. -/
def Undamaged (system : System) (dir : Path) : Prop :=
  ∀ names, system.readNames dir = .ok names → ∀ n ∈ names, n = .ofString n.lossy

/-- The names that a system gives in any order are sorted. -/
theorem findsLeast {system : System} {dir : Path} (h : system.Undamaged dir) :
    system.reader.FindsLeast dir (system.HasEntry dir) := by
  refine .ofListing (fun names hlist => ?_) fun e hlist name hentry => ?_
  · obtain ⟨found, hfound, rfl⟩ := exists_of_map_eq_ok hlist
    refine ⟨List.pairwise_mergeSort' (· ≤ ·) _, fun name => ?_⟩
    rw [(List.mergeSort_perm _ _).mem_iff, List.mem_map]
    constructor
    · rintro ⟨n, hn, rfl⟩
      exact ⟨found, hfound, h found hfound n hn ▸ hn⟩
    · rintro ⟨found', hfound', hmem⟩
      obtain rfl := Except.ok.inj (hfound.symm.trans hfound')
      exact ⟨_, hmem, RawText.lossy_ofString name⟩
  · obtain ⟨found, hfound, -⟩ := hentry
    rw [System.list, hfound] at hlist
    cases hlist

end System

namespace Disk

/-- An entry of a disk is at the place of its name, in the directory that a path leads to. -/
theorem hasEntry_system_iff {d : Disk} {dir : Path} {name : String} :
    d.system.HasEntry dir name ↔ ∃ p e, d.locatePath dir = .ok p ∧ d.isDirectory p = true ∧
      d.entry? (p ++ [.ofString name]) = some e := by
  unfold System.HasEntry
  rw [system_readNames]
  constructor
  · rintro ⟨names, hnames, hmem⟩
    obtain ⟨p, hp, hnames⟩ := exists_of_bind_eq_ok hnames
    unfold namesAt at hnames
    split_ifs at hnames with hdir
    obtain rfl := Except.ok.inj hnames
    obtain ⟨e, he⟩ := mem_namesIn_iff.1 hmem
    exact ⟨p, e, hp, hdir, he⟩
  · rintro ⟨p, e, hp, hdir, he⟩
    refine ⟨d.namesIn p, ?_, mem_namesIn_iff.2 ⟨e, he⟩⟩
    rw [hp]
    exact if_pos hdir

end Disk

/-- **The least entry that begins with a text is found**, in memory and through an operating
system, in every directory and for every text. Lookup is refused where listing is, nothing is found
where no entry of a readable directory fits, and what is found is the entry with the least bytes
among those that fit: the one whose name is the text and no more, where there is one. The names
that a system gives come in any order, but are to be undamaged. -/
theorem find_least_match :
    (∀ (tree : MemoryTree) (dir : Path), tree.reader.FindsLeast dir (tree.HasEntry dir)) ∧
      ∀ (system : System) (dir : Path), system.Undamaged dir →
        system.reader.FindsLeast dir (system.HasEntry dir) :=
  ⟨MemoryTree.findsLeast, fun _ _ => System.findsLeast⟩

/-- Names that begin alike, in no order. -/
def sampleMatches : List String := ["rom.u.2", "xmc😀", "rom.u", "rom.u.10", "xmc\uff5e"]

/-- A directory on a disk with entries of these names. -/
def sampleMatchesOnDisk : Disk where
  entries := (["d"], .directory) ::
    sampleMatches.map fun name => (["d", name], .directory)

/-- A directory in memory with entries of these names. -/
def sampleMatchesInMemory : MemoryTree :=
  .ofEntries (sampleMatches.map fun name => ((Path.mk "/d").join name, .directory))

/-- A whole name, a beginning of names and what no name begins with are looked up in the sample. -/
theorem find_least_match_sample :
    sampleMatchesOnDisk.system.Undamaged ⟨"/d"⟩ ∧
      sampleMatchesOnDisk.reader.find ⟨"/d"⟩ "rom.u" = .ok (some "rom.u") ∧
      sampleMatchesOnDisk.reader.find ⟨"/d"⟩ "xmc" = .ok (some "xmc\uff5e") ∧
      sampleMatchesOnDisk.reader.find ⟨"/d"⟩ "drm" = .ok none ∧
      sampleMatchesInMemory.reader.find ⟨"/d/"⟩ "rom.u" = .ok (some "rom.u") := by
  have hnames : sampleMatchesOnDisk.system.readNames ⟨"/d"⟩ =
      .ok (sampleMatches.map RawText.ofString) := by decide +kernel
  have hundamaged : sampleMatchesOnDisk.system.Undamaged ⟨"/d"⟩ := by
    intro names h
    obtain rfl := Except.ok.inj (hnames.symm.trans h)
    decide +kernel
  have hentry : ∀ name, sampleMatchesOnDisk.system.HasEntry ⟨"/d"⟩ name ↔
      name ∈ sampleMatches := by
    intro name
    simp [System.HasEntry, hnames, RawText.ofString_injective.eq_iff]
  have hlist : ∃ names, sampleMatchesOnDisk.reader.list ⟨"/d"⟩ = .ok names := by
    change ∃ names, sampleMatchesOnDisk.system.list ⟨"/d"⟩ = .ok names
    rw [System.list, hnames]
    exact ⟨_, rfl⟩
  have honDisk : sampleMatchesOnDisk.system.HasEntry ⟨"/d"⟩ "rom.u" :=
    Disk.hasEntry_system_iff.2 ⟨["d"], .directory, by decide +kernel, by decide +kernel,
      by decide +kernel⟩
  have hmemory : sampleMatchesInMemory.HasEntry ⟨"/d/"⟩ "rom.u" :=
    (MemoryTree.hasEntry_ofEntries_iff (by decide)).2 ⟨"rom.u", by decide, by decide +kernel, rfl⟩
  have hdisk := find_least_match.2 sampleMatchesOnDisk.system ⟨"/d"⟩ hundamaged
  refine ⟨hundamaged, hdisk.whole _ honDisk, ?_, ?_,
    (find_least_match.1 sampleMatchesInMemory ⟨"/d/"⟩).whole _ hmemory⟩
  · refine (hdisk.some_iff _ _).2 ((IsLeastMatch.congr hentry).2 ⟨by decide, ?_, ?_⟩)
    · decide +kernel
    · decide +kernel
  · refine (hdisk.none_iff _).2 ⟨hlist, ?_⟩
    simp only [hentry]
    decide +kernel

end CardInventory
