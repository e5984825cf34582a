import CardInventory.Files.Memory
import CardInventory.Proofs.Files.Tree

/-
# What a tree in memory shows

A tree in memory keeps routes, and directories that were only implied by an entry below them.
Filled with the entries of a file tree, in any order and under any plain spelling of their places,
it holds that tree and nothing else (`mem_routes`), so that its reader shows it
(`FileTree.FilledBy.shows`).
-/

namespace CardInventory

/-! ## Routes of names -/

namespace Route

variable {names : List RawText}

theorem parent?_ofNames_concat (n : RawText) :
    (ofNames (names ++ [n])).parent? = some (ofNames names) := by
  simp [ofNames, parent?]

theorem fileName?_ofNames_concat (n : RawText) :
    (ofNames (names ++ [n])).fileName? = some n := by
  simp [ofNames, fileName?]

/-- The lineage of a route of names has the routes of what leads to it. -/
theorem mem_lineage_ofNames {r : Route} :
    r ∈ (ofNames names).lineage ↔ ∃ ms, ms <+: names ∧ r = ofNames ms := by
  have htake : ∀ k, { ofNames names with steps := (ofNames names).steps.take k } =
      ofNames (names.take k) := fun k => by rw [ofNames, ofNames, List.map_take]
  have hnonempty : ∀ ms, (ofNames ms).isEmpty = false := fun ms => rfl
  simp only [lineage, htake, List.mem_filter, List.mem_map, List.mem_range]
  constructor
  · rintro ⟨⟨k, -, rfl⟩, -⟩
    exact ⟨names.take k, List.take_prefix k names, rfl⟩
  · rintro ⟨ms, hms, rfl⟩
    have hlength : (ofNames names).steps.length = names.length := List.length_map _
    refine ⟨⟨ms.length, ?_, ?_⟩, by rw [hnonempty]; rfl⟩
    · have := hms.length_le
      omega
    · rw [← List.prefix_iff_eq_take.1 hms]

end Route

/-! ## Filling -/

namespace MemoryTree

/-- Adds an entry under a path. -/
def add (memory : MemoryTree) (path : Path) : TreeEntry → MemoryTree
  | .directory => memory.addDir path
  | .file content => memory.addFile path content

/-- The tree in memory that has entries added to it one after the other. -/
def ofEntries (adds : List (Path × TreeEntry)) : MemoryTree :=
  adds.foldl (fun memory e => memory.add e.1 e.2) {}

/-- The directories that come with an entry. -/
def impliedDirs (path : Path) : TreeEntry → List Route
  | .directory => path.route.lineage
  | .file _ => (path.route.parent?.map Route.lineage).getD []

variable {adds : List (Path × TreeEntry)} {r : Route}

/-- The step of `mem_dirs_ofEntries`. -/
theorem mem_dirs_add (memory : MemoryTree) (e : Path × TreeEntry) :
    r ∈ (memory.add e.1 e.2).dirs ↔ r ∈ impliedDirs e.1 e.2 ∨ r ∈ memory.dirs := by
  obtain ⟨path, entry⟩ := e
  cases entry <;> simp [add, impliedDirs, addDir, addFile]

/-- The step of `mem_files_ofEntries`. -/
theorem mem_files_add {content : String} (memory : MemoryTree) (e : Path × TreeEntry) :
    (r, content) ∈ (memory.add e.1 e.2).files ↔
      (e.1.route = r ∧ e.2 = .file content) ∨ (r, content) ∈ memory.files := by
  obtain ⟨path, entry⟩ := e
  cases entry <;> simp [add, addDir, addFile, eq_comm]

/-- The directories are those that come with the entries. -/
theorem mem_dirs_ofEntries :
    r ∈ (ofEntries adds).dirs ↔ ∃ e ∈ adds, r ∈ impliedDirs e.1 e.2 := by
  have hnone : r ∉ ({} : MemoryTree).dirs := List.not_mem_nil
  exact (foldl_iff (r ∈ dirs ·) mem_dirs_add adds {}).trans (or_iff_left hnone)

/-- The files are those that were added. -/
theorem mem_files_ofEntries {content : String} :
    (r, content) ∈ (ofEntries adds).files ↔
      ∃ e ∈ adds, e.1.route = r ∧ e.2 = .file content := by
  have hnone : (r, content) ∉ ({} : MemoryTree).files := List.not_mem_nil
  exact (foldl_iff ((r, content) ∈ files ·) mem_files_add adds {}).trans
    (or_iff_left hnone)

end MemoryTree

/-- The entries of a tree, each once, in some order and each under some plain spelling. -/
structure FileTree.FilledBy (tree : FileTree) (adds : List (Path × TreeEntry)) : Prop where
  plain : ∀ e ∈ adds, e.1.Plain
  perm : (adds.map fun e => (e.1.names, e.2)).Perm tree.entries

/-- The entries in any order, each under the path from the root directory to it. -/
theorem FileTree.filledBy_of_perm {tree : FileTree} {order : List (List RawText × TreeEntry)}
    (h : order.Perm tree.entries) :
    tree.FilledBy (order.map fun e => (Path.descend ⟨"/"⟩ e.1, e.2)) := by
  have hroot : Path.Plain ⟨"/"⟩ := ⟨by decide, by decide⟩
  have hdescend : ∀ e ∈ order,
      (Path.descend ⟨"/"⟩ e.1).Plain ∧ (Path.descend ⟨"/"⟩ e.1).names = e.1 := fun e he =>
    hroot.descend fun n hn => (tree.isName e (h.mem_iff.1 he) n hn).toIsEntryName
  constructor
  · intro e he
    obtain ⟨e', he', rfl⟩ := List.mem_map.1 he
    exact (hdescend e' he').1
  · have hnames : order.map (fun e => ((Path.descend ⟨"/"⟩ e.1).names, e.2)) = order.map id :=
      List.map_congr_left fun e he => Prod.ext (hdescend e he).2 rfl
    rw [List.map_map]
    exact (List.Perm.of_eq (hnames.trans (List.map_id order))).trans h

/-! ## What is shown -/

namespace FileTree.FilledBy

variable {tree : FileTree} {adds : List (Path × TreeEntry)} {names : List RawText}

/-- What is added is in the tree, under the route of its names. -/
theorem mem_entries (h : tree.FilledBy adds) {e : Path × TreeEntry} (he : e ∈ adds) :
    (e.1.names, e.2) ∈ tree.entries ∧ e.1.route = .ofNames e.1.names :=
  ⟨h.perm.mem_iff.1 (List.mem_map_of_mem he), (h.plain e he).route_eq⟩

/-- What is in the tree is added. -/
theorem exists_mem (h : tree.FilledBy adds) {entry : TreeEntry}
    (hentry : (names, entry) ∈ tree.entries) :
    ∃ path, (path, entry) ∈ adds ∧ path.route = .ofNames names := by
  obtain ⟨e, he, heq⟩ := List.mem_map.1 (h.perm.mem_iff.2 hentry)
  obtain ⟨rfl, rfl⟩ := Prod.mk.inj heq
  exact ⟨e.1, he, (h.plain e he).route_eq⟩

/-- **The directories in memory are those of the tree.** -/
theorem mem_dirs (h : tree.FilledBy adds) {r : Route} : r ∈ (MemoryTree.ofEntries adds).dirs ↔
    ∃ names, (names, .directory) ∈ tree.entries ∧ r = .ofNames names := by
  rw [MemoryTree.mem_dirs_ofEntries]
  constructor
  · rintro ⟨⟨path, entry⟩, he, hr⟩
    obtain ⟨hentry, hroute⟩ := h.mem_entries he
    cases entry with
    | directory =>
      rw [MemoryTree.impliedDirs, hroute, Route.mem_lineage_ofNames] at hr
      obtain ⟨ms, hms, rfl⟩ := hr
      exact ⟨ms, directory_of_prefix hentry hms, rfl⟩
    | file content =>
      rcases List.eq_nil_or_concat' path.names with hnil | ⟨init, last, hlast⟩
      · rw [MemoryTree.impliedDirs, hroute, hnil] at hr
        simp [Route.ofNames, Route.parent?] at hr
      · rw [MemoryTree.impliedDirs, hroute, hlast, Route.parent?_ofNames_concat, Option.map_some,
          Option.getD_some, Route.mem_lineage_ofNames] at hr
        obtain ⟨ms, hms, rfl⟩ := hr
        have hinit := tree.parent_mem _ hentry
        rw [hlast, List.dropLast_concat] at hinit
        exact ⟨ms, directory_of_prefix hinit hms, rfl⟩
  · rintro ⟨ms, hms, rfl⟩
    obtain ⟨path, hpath, hroute⟩ := h.exists_mem hms
    refine ⟨_, hpath, ?_⟩
    rw [MemoryTree.impliedDirs, hroute, Route.mem_lineage_ofNames]
    exact ⟨ms, List.prefix_rfl, rfl⟩

/-- **The files in memory are those of the tree.** -/
theorem lookup_files (h : tree.FilledBy adds) {content : String} :
    (MemoryTree.ofEntries adds).files.lookup (.ofNames names) = some content ↔
      (names, .file content) ∈ tree.entries := by
  have hmem : ∀ c, (Route.ofNames names, c) ∈ (MemoryTree.ofEntries adds).files ↔
      (names, .file c) ∈ tree.entries := fun c => by
    rw [MemoryTree.mem_files_ofEntries]
    constructor
    · rintro ⟨⟨path, _⟩, he, hr, rfl⟩
      obtain ⟨hentry, hroute⟩ := h.mem_entries he
      rwa [Route.ofNames_injective (hr.symm.trans hroute)]
    · intro hentry
      obtain ⟨path, hpath, hroute⟩ := h.exists_mem hentry
      exact ⟨_, hpath, hroute, rfl⟩
  have hlookup : ∀ c, (MemoryTree.ofEntries adds).files.lookup (.ofNames names) = some c →
      (names, .file c) ∈ tree.entries := fun c hc => by
    obtain ⟨before, after, hfiles, -⟩ := List.lookup_eq_some_iff.1 hc
    rw [← hmem, hfiles]
    simp
  refine ⟨hlookup content, fun hentry => ?_⟩
  obtain ⟨c, hc⟩ : ∃ c, (MemoryTree.ofEntries adds).files.lookup (.ofNames names) = some c := by
    rw [← Option.isSome_iff_exists, List.lookup_isSome_iff]
    exact ⟨_, (hmem content).2 hentry, beq_self_eq_true _⟩
  have hsame := (entry?_eq_some_iff.2 (hlookup c hc)).symm.trans (entry?_eq_some_iff.2 hentry)
  rw [hc]
  simpa using hsame

/-- The routes in memory are those of the entries. -/
theorem mem_routes (h : tree.FilledBy adds) {r : Route} :
    r ∈ (MemoryTree.ofEntries adds).routes ↔
      ∃ names entry, (names, entry) ∈ tree.entries ∧ r = .ofNames names := by
  rw [MemoryTree.routes, List.mem_append, h.mem_dirs]
  constructor
  · rintro (⟨names, hnames, rfl⟩ | hr)
    · exact ⟨names, _, hnames, rfl⟩
    · obtain ⟨⟨_, content⟩, hfile, rfl⟩ := List.mem_map.1 hr
      obtain ⟨⟨path, _⟩, he, rfl, rfl⟩ := MemoryTree.mem_files_ofEntries.1 hfile
      obtain ⟨hentry, hroute⟩ := h.mem_entries he
      exact ⟨_, _, hentry, hroute⟩
  · rintro ⟨names, entry, hentry, rfl⟩
    cases entry with
    | directory => exact .inl ⟨names, hentry, rfl⟩
    | file content =>
      obtain ⟨path, hpath, hroute⟩ := h.exists_mem hentry
      exact .inr (List.mem_map.2
        ⟨(_, content), MemoryTree.mem_files_ofEntries.2 ⟨_, hpath, hroute, rfl⟩, rfl⟩)

/-- The children in memory are those in the tree. -/
theorem children_eq (h : tree.FilledBy adds) :
    (MemoryTree.ofEntries adds).children (.ofNames names) =
      sortedNames ((tree.children names).map RawText.lossy) := by
  refine eq_sortedNames (sortedNames_ascending _) fun s => ?_
  rw [MemoryTree.children, mem_sortedNames]
  simp only [List.mem_filterMap, List.mem_filter, h.mem_routes, decide_eq_true_eq, List.mem_map,
    mem_children]
  constructor
  · rintro ⟨_, ⟨⟨ns, entry, hentry, rfl⟩, hparent⟩, hs⟩
    rcases List.eq_nil_or_concat' ns with rfl | ⟨init, last, rfl⟩
    · simp [Route.ofNames, Route.parent?] at hparent
    · rw [Route.parent?_ofNames_concat, Option.some.injEq] at hparent
      rw [Route.fileName?_ofNames_concat, Option.map_some, Option.some.injEq] at hs
      obtain rfl := Route.ofNames_injective hparent
      exact ⟨last, ⟨entry, hentry⟩, hs⟩
  · rintro ⟨n, ⟨entry, hentry⟩, rfl⟩
    refine ⟨_, ⟨⟨_, entry, hentry, rfl⟩, Route.parent?_ofNames_concat n⟩, ?_⟩
    rw [Route.fileName?_ofNames_concat, Option.map_some]

/-- **A tree in memory shows the tree that it was filled with.** -/
theorem shows (h : tree.FilledBy adds) {root : Path} (hroot : root.Plain) :
    (MemoryTree.ofEntries adds).reader.Shows tree root := by
  refine .ofListing (fun names hnames _ => ?_) (fun names hnames => ?_) fun names hnames _ => ?_
  · rw [MemoryTree.read, hroot.route_descend hnames.isEntryName]
    cases hfile : (MemoryTree.ofEntries adds).files.lookup (.ofNames (root.names ++ names)) with
    | some content =>
      rw [content?_of_file (entry?_eq_some_iff.2 (h.lookup_files.1 hfile))]
      rfl
    | none =>
      rw [content?_of_not_file fun content hentry => ?_]
      · rfl
      · rw [h.lookup_files.2 (entry?_eq_some_iff.1 hentry)] at hfile
        cases hfile
  · have hdir : Route.ofNames (root.names ++ names) ∈ (MemoryTree.ofEntries adds).dirs ↔
        tree.entry? (root.names ++ names) = some .directory := by
      rw [h.mem_dirs, entry?_eq_some_iff]
      simp [Route.ofNames_injective.eq_iff]
    rw [MemoryTree.list, hroot.route_descend hnames.isEntryName, h.children_eq, listing?]
    simp only [hdir]
    split_ifs <;> rfl
  · rw [MemoryTree.present, hroot.route_descend hnames.isEntryName, Bool.eq_iff_iff,
      decide_eq_true_iff, h.mem_routes, Option.isSome_iff_exists]
    simp [Route.ofNames_injective.eq_iff, entry?_eq_some_iff]

end FileTree.FilledBy
end CardInventory
