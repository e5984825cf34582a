import CardInventory.Files.Disk
import CardInventory.Proofs.Files.System

/-
# What a disk shows

A disk that holds a file tree, without links, behaves as is relied on of an operating system
(`Disk.Holds.serves`). The walk along a plain path goes down the names of the path, past steps that
stay in place: it ends at the entry of the names or fails (`Disk.Holds.walk_eq_found`), and reaches
every entry whose path is spelled as one (`Disk.Holds.walk_of_entry`).
-/

namespace CardInventory

/-! ## Sizes -/

namespace RawText

theorem toString?_ofString (s : String) : (ofString s).toString? = some s := by
  have hpieces : ∀ cs : List Char, (cs.map Piece.char).mapM Piece.char? = some cs := fun cs => by
    induction cs with
    | nil => rfl
    | cons c rest ih => simp [Piece.char?, ih]
  rw [toString?, ofString, ofChars, hpieces, Option.map_some, String.ofList_toList]

theorem size_of_append {t : RawText} {ps qs : List Piece} (h : t.pieces = ps ++ qs) :
    t.size = (RawText.mk ps).size + (RawText.mk qs).size := by
  obtain ⟨pieces⟩ := t
  obtain rfl : pieces = ps ++ qs := h
  induction ps with
  | nil => simp [size]
  | cons p rest ih =>
    simp only [size, List.cons_append, List.foldr_cons] at ih ⊢
    omega

end RawText

namespace Path

/-- The bytes of what is joined come to those of the path, and those that are put between. -/
theorem size_join (p : Path) {name : RawText} (hname : .char '/' ∉ name.pieces) :
    (p.join name).raw.size = p.raw.size + ((RawText.mk p.junction).size + name.size) := by
  rw [RawText.size_of_append (p.pieces_join hname), RawText.size_of_append rfl]

/-- Joining a name adds its bytes and at most a slash. -/
theorem size_join_le {p : Path} {name : RawText} (hname : .char '/' ∉ name.pieces) :
    (p.join name).raw.size ≤ p.raw.size + (name.size + 1) := by
  have hjunction : (RawText.mk p.junction).size ≤ 1 := by
    unfold junction
    split_ifs <;> decide
  rw [size_join p hname]
  omega

/-- A name with more bytes makes a path with more bytes. -/
theorem size_join_le_size_join (p : Path) {m n : RawText} (hm : .char '/' ∉ m.pieces)
    (hn : .char '/' ∉ n.pieces) (h : m.size ≤ n.size) :
    (p.join m).raw.size ≤ (p.join n).raw.size := by
  rw [size_join p hm, size_join p hn]
  omega

/-- Going down a way of names adds as much for each of them. -/
theorem size_descend_le {root : Path} {names : List RawText} {limit : ℕ}
    (h : ∀ n ∈ names, IsEntryName n ∧ n.size ≤ limit) :
    (root.descend names).raw.size ≤ root.raw.size + names.length * (limit + 1) := by
  induction names generalizing root with
  | nil => simp [descend]
  | cons n rest ih =>
    obtain ⟨hn, hrest⟩ := List.forall_mem_cons.1 h
    have hjoin := size_join_le (p := root) hn.1.no_slash
    have hstep := @ih (root.join n) hrest
    rw [List.length_cons, Nat.succ_mul]
    unfold descend at hstep ⊢
    rw [List.foldl_cons]
    omega

end Path

/-! ## Holding a tree -/

/-- An entry of a tree as it is on a disk. -/
def TreeEntry.onDisk : TreeEntry → Entry
  | .directory => .directory
  | .file content => .file (.ofString content)

namespace Disk

/-- The place of the entry that a spelled path leads to. -/
def locatePath (d : Disk) (path : Path) : Except FileError Place :=
  routeOf path.raw >>= d.locate

/-- The names in the directory at a place. -/
def namesAt (d : Disk) (p : Place) : Except FileError (List RawText) :=
  if d.isDirectory p then .ok (d.namesIn p) else .error .notDirectory

/-- The text of the file at a place. -/
def textAt (d : Disk) (p : Place) : Except FileError String :=
  match d.entry? p with
  | some (.file content) => content.toString?.elim (.error .notUtf8) .ok
  | _ => .error .isDirectory

/-- The names in a directory are those at the place of its path. -/
theorem system_readNames (d : Disk) (path : Path) :
    d.system.readNames path = d.locatePath path >>= d.namesAt := by
  rw [locatePath, bind_assoc]
  rfl

/-- The text of a file is that at the place of its path. -/
theorem system_readText (d : Disk) (path : Path) :
    d.system.readText path = d.locatePath path >>= d.textAt := by
  have hsystem : d.system.readText path = routeOf path.raw >>= fun route =>
      d.content route >>= fun content => content.toString?.elim (.error .notUtf8) .ok := by
    simp only [system]
    refine congrArg _ (funext fun route => congrArg _ (funext fun content => ?_))
    cases content.toString? <;> rfl
  rw [hsystem, locatePath, bind_assoc]
  refine congrArg _ (funext fun route => ?_)
  unfold content
  rw [bind_assoc]
  refine congrArg _ (funext fun p => ?_)
  unfold textAt
  rcases d.entry? p with _ | _ | content | _ <;> rfl

/-- A disk holds a tree when it has the entries of the tree, in some order; the root directory,
which is always there, is not among them. No name is longer than a directory takes. -/
structure Holds (d : Disk) (tree : FileTree) : Prop where
  perm : (([], .directory) :: d.entries).Perm
    (tree.entries.map fun e => (e.1, e.2.onDisk))
  size_le : ∀ e ∈ tree.entries, ∀ n ∈ e.1, n.size ≤ nameLimit

namespace Holds

variable {d : Disk} {tree : FileTree} {p : Place}

/-- What is at a place is among the entries, with the root directory. -/
theorem entry?_eq_lookup (p : Place) :
    d.entry? p = (([], Entry.directory) :: d.entries).lookup p := by
  unfold entry?
  by_cases h : p = []
  · simp [h]
  · rw [if_neg h, List.lookup_cons, beq_eq_false_iff_ne.2 h]

/-- At a place is what the tree has there. -/
theorem entry?_eq (h : d.Holds tree) : d.entry? p = (tree.entry? p).map TreeEntry.onDisk := by
  have hkeys : ((([], Entry.directory) :: d.entries).map Prod.fst).Nodup := by
    rw [(h.perm.map Prod.fst).nodup_iff, List.map_map]
    exact tree.nodup
  refine Option.ext fun e => ?_
  rw [entry?_eq_lookup, lookup_eq_some_iff_mem hkeys, h.perm.mem_iff, List.mem_map,
    Option.map_eq_some_iff]
  simp only [FileTree.entry?_eq_some_iff, Prod.exists, Prod.mk.injEq]
  constructor
  · rintro ⟨_, entry, hentry, rfl, rfl⟩
    exact ⟨entry, hentry, rfl⟩
  · rintro ⟨entry, hentry, rfl⟩
    exact ⟨p, entry, hentry, rfl, rfl⟩

theorem isDirectory_iff (h : d.Holds tree) :
    d.isDirectory p = true ↔ tree.entry? p = some .directory := by
  rw [isDirectory, h.entry?_eq, decide_eq_true_iff]
  rcases tree.entry? p with _ | _ | content <;> simp [TreeEntry.onDisk]

/-- A file of the tree is read as it is there. -/
theorem textAt_of_file (h : d.Holds tree) {content : String}
    (hfile : tree.entry? p = some (.file content)) : d.textAt p = .ok content := by
  have hentry : d.entry? p = some (.file (.ofString content)) := by
    rw [h.entry?_eq, hfile]
    rfl
  simp only [textAt, hentry, RawText.toString?_ofString, Option.elim_some]

/-- What is no file of the tree is not read. -/
theorem textAt_of_not_file (h : d.Holds tree)
    (hno : ∀ content, tree.entry? p ≠ some (.file content)) :
    ∃ e, d.textAt p = .error e := by
  rw [textAt, h.entry?_eq]
  rcases hentry : tree.entry? p with _ | _ | content
  · exact ⟨_, rfl⟩
  · exact ⟨_, rfl⟩
  · exact absurd hentry (hno content)

/-! ## Walking -/

/-- The steps of stretches between slashes. -/
def steps (segments : List RawText) : List Step := segments.map Step.ofSegment

section
variable {segments : List RawText} {follow : Place → List Step → Except FileError Landing}

/-- A step along an empty stretch stays where it is. -/
theorem walk_here (d : Disk) (rest : List RawText) (p : Place) :
    d.walk follow p (steps (⟨[]⟩ :: rest)) =
      if d.isDirectory p then d.walk follow p (steps rest) else .error .notDirectory := rfl

/-- A step along a name goes to the entry of that name; where there is none the walk is lost. -/
theorem walk_name (h : d.Holds tree) {s : RawText} (hs : s.GoesDown) (hne : s ≠ ⟨[]⟩)
    (rest : List RawText) :
    (∃ entry, tree.entry? (p ++ [s]) = some entry) ∧
        d.walk follow p (steps (s :: rest)) = d.walk follow (p ++ [s]) (steps rest) ∨
      tree.entry? (p ++ [s]) = none ∧
        ∀ q, d.walk follow p (steps (s :: rest)) ≠ .ok (.found q) := by
  have hstep : steps (s :: rest) = .name s :: steps rest := by
    rw [steps, List.map_cons, Step.ofSegment_of_goesDown hs, if_neg hne]
    rfl
  rw [hstep, walk, h.entry?_eq]
  cases hentry : tree.entry? (p ++ [s]) with
  | none =>
    refine .inr ⟨rfl, fun q => ?_⟩
    split_ifs <;> simp
  | some entry =>
    have hmem := FileTree.entry?_eq_some_iff.1 hentry
    have hdir := FileTree.directory_of_above hmem (List.cons_ne_nil _ _)
    rw [if_pos (h.isDirectory_iff.2 (FileTree.entry?_eq_some_iff.2 hdir)),
      if_neg (not_lt.2 (h.size_le _ hmem _ (by simp)))]
    refine .inl ⟨⟨entry, rfl⟩, ?_⟩
    cases entry <;> rfl

/-- **A walk ends at the entry of its names.** -/
theorem walk_eq_found (h : d.Holds tree) (hsegments : ∀ s ∈ segments, s.GoesDown) {q : Place}
    (hwalk : d.walk follow p (steps segments) = .ok (.found q))
    (hp : ∃ entry, tree.entry? p = some entry) :
    q = p ++ namesAmong segments ∧
      ∃ entry, tree.entry? (p ++ namesAmong segments) = some entry := by
  induction segments generalizing p with
  | nil =>
    obtain rfl : p = q := by simpa [steps, walk] using hwalk
    simpa [namesAmong] using hp
  | cons s rest ih =>
    obtain ⟨hs, hrest⟩ := List.forall_mem_cons.1 hsegments
    -- A stretch is empty and the walk stays where it is, or it is a name and the walk goes on.
    rcases eq_or_ne s ⟨[]⟩ with rfl | hne
    · rw [walk_here] at hwalk
      split_ifs at hwalk
      exact ih hrest hwalk hp
    · rcases h.walk_name hs hne rest with ⟨hentry, heq⟩ | ⟨-, hlost⟩
      · rw [heq] at hwalk
        have hfound := ih hrest hwalk hentry
        rwa [List.append_assoc, List.singleton_append, ← namesAmong_cons hne] at hfound
      · exact absurd hwalk (hlost q)

/-- Above a stretch between slashes there is a directory: at the end of a path, nothing but slashes
is left, which only a directory may have behind it. -/
theorem directory_of_here {rest : List RawText} {entry : TreeEntry}
    (hentry : tree.entry? (p ++ namesAmong rest) = some entry)
    (hend : entry = .directory ∨ (⟨[]⟩ :: rest).getLast? ≠ some ⟨[]⟩) :
    tree.entry? p = some .directory := by
  rcases eq_or_ne (namesAmong rest) [] with hnone | hsome
  · have hall : ∀ s ∈ ⟨[]⟩ :: rest, s = ⟨[]⟩ :=
      List.forall_mem_cons.2 ⟨rfl, namesAmong_eq_nil.1 hnone⟩
    have hlast : ((⟨[]⟩ : RawText) :: rest).getLast? = some ⟨[]⟩ := by
      rw [List.getLast?_eq_some_getLast (List.cons_ne_nil _ _), hall _ (List.getLast_mem _)]
    obtain rfl := hend.resolve_right (not_not.2 hlast)
    rwa [hnone, List.append_nil] at hentry
  · exact FileTree.entry?_eq_some_iff.2
      (FileTree.directory_of_above (FileTree.entry?_eq_some_iff.1 hentry) hsome)

/-- **A walk reaches every entry.** A path to a file has a name at its end. -/
theorem walk_of_entry (h : d.Holds tree) (hsegments : ∀ s ∈ segments, s.GoesDown)
    {entry : TreeEntry} (hentry : tree.entry? (p ++ namesAmong segments) = some entry)
    (hend : entry = .directory ∨ segments.getLast? ≠ some ⟨[]⟩) :
    d.walk follow p (steps segments) = .ok (.found (p ++ namesAmong segments)) := by
  induction segments generalizing p with
  | nil => simp [steps, walk, namesAmong]
  | cons s rest ih =>
    obtain ⟨hs, hrest⟩ := List.forall_mem_cons.1 hsegments
    have hend' : entry = .directory ∨ rest.getLast? ≠ some ⟨[]⟩ := by
      refine hend.imp_right fun hlast hrest => hlast ?_
      rw [List.getLast?_cons, hrest]
      rfl
    rcases eq_or_ne s ⟨[]⟩ with rfl | hne
    · rw [namesAmong_cons_nil] at hentry ⊢
      rw [walk_here, if_pos (h.isDirectory_iff.2 (directory_of_here hentry hend))]
      exact ih hrest hentry hend'
    · have hassoc : p ++ namesAmong (s :: rest) = (p ++ [s]) ++ namesAmong rest := by
        rw [namesAmong_cons hne, List.append_assoc, List.singleton_append]
      rw [hassoc] at hentry ⊢
      rcases h.walk_name hs hne rest with ⟨-, heq⟩ | ⟨hnone, -⟩
      · rw [heq]
        exact ih hrest hentry hend'
      · obtain ⟨above, habove⟩ := FileTree.exists_above hentry
        rw [hnone] at habove
        cases habove

end

/-! ## Paths -/

section
variable {path : Path}

/-- A path of names that are in the tree can be asked for, if it is not too long. -/
theorem routeOf_of_entry {entry : TreeEntry} (hsize : path.raw.size ≤ pathLimit)
    (hentry : tree.entry? path.names = some entry) :
    routeOf path.raw = .ok (Route.ofText path.raw) := by
  have hnul : .char '\x00' ∉ path.raw.pieces :=
    path.notMem_of_names (by decide) fun n hn =>
      (tree.isName _ (FileTree.entry?_eq_some_iff.1 hentry) n hn).no_nul
  rw [routeOf, if_neg hnul, if_neg (not_lt.2 hsize)]

/-- Where a plain path leads is found by a walk from the root directory. How many links may still
be followed does not matter, since none is met. -/
theorem locate_plain (d : Disk) (hpath : path.Plain) : d.locate (Route.ofText path.raw) =
    match d.walk (d.walkLinks 39) [] (steps path.segments.tail) with
    | .ok (.found p) => .ok p
    | .ok (.vacant _) => .error .missing
    | .error e => .error e := by
  rw [Path.ofText_raw hpath.absolute]
  rfl

/-- **A plain path leads to the entry of its names, if to any.** -/
theorem locatePath_eq_ok (h : d.Holds tree) (hpath : path.Plain)
    (hp : d.locatePath path = .ok p) :
    p = path.names ∧ ∃ entry, tree.entry? path.names = some entry := by
  have hlocate : d.locate (Route.ofText path.raw) = .ok p := by
    unfold locatePath routeOf at hp
    split_ifs at hp
    · cases hp
    · cases hp
    · exact hp
  rw [locate_plain d hpath] at hlocate
  have hwalk : d.walk (d.walkLinks 39) [] (steps path.segments.tail) = .ok (.found p) := by
    split at hlocate
    · rename_i found hfound
      rw [hfound, Except.ok.inj hlocate]
    · cases hlocate
    · cases hlocate
  have hfound := h.walk_eq_found hpath.downwards_tail hwalk ⟨.directory, FileTree.entry?_root⟩
  rwa [List.nil_append, hpath.namesAmong_tail] at hfound

/-- **A plain path leads to every entry that it spells.** -/
theorem locatePath_of_entry (h : d.Holds tree) (hpath : path.Plain)
    (hsize : path.raw.size ≤ pathLimit) {entry : TreeEntry}
    (hentry : tree.entry? path.names = some entry)
    (hend : entry = .directory ∨ path.segments.getLast? ≠ some ⟨[]⟩) :
    d.locatePath path = .ok path.names := by
  have htail : path.segments.tail.getLast? = some ⟨[]⟩ → path.segments.getLast? = some ⟨[]⟩ :=
    fun hlast => by
      rw [Path.segments_eq_cons hpath.absolute] at hlast ⊢
      rw [List.tail_cons] at hlast
      rw [List.getLast?_cons, hlast]
      rfl
  have hwalk := @walk_of_entry d tree [] path.segments.tail (d.walkLinks 39) h
    hpath.downwards_tail entry
  rw [List.nil_append, hpath.namesAmong_tail] at hwalk
  have hlocate := locate_plain d hpath
  rw [hwalk hentry (hend.imp_right fun hlast => mt htail hlast)] at hlocate
  rw [locatePath, routeOf_of_entry hsize hentry]
  exact hlocate

end

/-! ## Calls -/

/-- The names in a directory are those of its entries. -/
theorem namesIn_perm (h : d.Holds tree) : (d.namesIn p).Perm (tree.children p) := by
  have hroot : d.namesIn p = (([], Entry.directory) :: d.entries).filterMap
      fun e => if e.1.dropLast = p then e.1.getLast? else none := by
    rw [List.filterMap_cons, List.getLast?_nil, ite_self]
    rfl
  have hchildren : tree.children p = (tree.entries.map fun e => (e.1, e.2.onDisk)).filterMap
      fun e => if e.1.dropLast = p then e.1.getLast? else none := by
    rw [FileTree.children, List.filterMap_map, List.filterMap_map]
    rfl
  rw [hroot, hchildren]
  exact h.perm.filterMap _

section
variable {root : Path} {names : List RawText}

/-- A path of a scan leads to the entry of its names, if to any. -/
theorem locatePath_descend_eq_ok (h : d.Holds tree) (hroot : root.Plain) (hnames : IsWayDown names)
    (hp : d.locatePath (root.descend names) = .ok p) :
    p = root.names ++ names ∧ ∃ entry, tree.entry? (root.names ++ names) = some entry := by
  obtain ⟨hplain, hdescend⟩ := hroot.descend hnames.isEntryName
  have hentry := h.locatePath_eq_ok hplain hp
  rwa [hdescend] at hentry

/-- A path of a scan is not too long when the root is short enough, and so leads to every entry
that it spells. -/
theorem locatePath_descend_of_entry (h : d.Holds tree) (hroot : root.Plain)
    (hsize : root.raw.size + scanDepth * (nameLimit + 1) ≤ pathLimit) (hnames : IsWayDown names)
    {entry : TreeEntry} (hentry : tree.entry? (root.names ++ names) = some entry)
    (hend : entry = .directory ∨ names ≠ []) :
    d.locatePath (root.descend names) = .ok (root.names ++ names) := by
  obtain ⟨hplain, hdescend⟩ := hroot.descend hnames.isEntryName
  rw [← hdescend] at hentry ⊢
  refine h.locatePath_of_entry hplain ?_ hentry
    (hend.imp_right (hroot.getLast?_segments_descend hnames.isEntryName))
  have hshort : ∀ n ∈ names, IsEntryName n ∧ n.size ≤ nameLimit := fun n hn => by
    refine ⟨hnames.isEntryName n hn, h.size_le _ (FileTree.entry?_eq_some_iff.1 hentry) n ?_⟩
    rw [hdescend]
    exact List.mem_append_right _ hn
  have hpath := @Path.size_descend_le root _ _ hshort
  have hlength := Nat.mul_le_mul_right (nameLimit + 1) hnames.length_le
  omega

/-- **A disk that holds a tree is a system that serves it.** -/
theorem serves (h : d.Holds tree) (hroot : root.Plain)
    (hsize : root.raw.size + scanDepth * (nameLimit + 1) ≤ pathLimit) :
    d.system.Serves tree root := by
  constructor
  case readNames_directory =>
    intro names hnames hdir
    refine ⟨_, ?_, h.namesIn_perm⟩
    rw [system_readNames, h.locatePath_descend_of_entry hroot hsize hnames hdir (.inl rfl)]
    exact if_pos (h.isDirectory_iff.2 hdir)
  case readNames_other =>
    intro names hnames hdir
    rw [system_readNames]
    cases hp : d.locatePath (root.descend names) with
    | error e => exact ⟨e, rfl⟩
    | ok p =>
      obtain ⟨rfl, -⟩ := h.locatePath_descend_eq_ok hroot hnames hp
      exact ⟨_, if_neg (mt h.isDirectory_iff.1 hdir)⟩
  case readText_file =>
    intro names hnames hne content hfile
    rw [system_readText, h.locatePath_descend_of_entry hroot hsize hnames hfile (.inr hne)]
    exact h.textAt_of_file hfile
  case readText_other =>
    intro names hnames hne hno
    rw [system_readText]
    cases hp : d.locatePath (root.descend names) with
    | error e => exact ⟨e, rfl⟩
    | ok p =>
      obtain ⟨rfl, -⟩ := h.locatePath_descend_eq_ok hroot hnames hp
      exact h.textAt_of_not_file hno
  case present_iff =>
    intro names hnames hne
    change (d.locatePath (root.descend names)).isOk = true ↔ _
    constructor
    · intro hok
      cases hp : d.locatePath (root.descend names) with
      | error e =>
        rw [hp] at hok
        cases hok
      | ok p => exact (h.locatePath_descend_eq_ok hroot hnames hp).2
    · rintro ⟨entry, hsome⟩
      rw [h.locatePath_descend_of_entry hroot hsize hnames hsome (.inr hne)]
      rfl

end

end Holds
end Disk
end CardInventory
