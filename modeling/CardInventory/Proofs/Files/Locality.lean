import CardInventory.Proofs.Files.Memory
import CardInventory.Proofs.Route

/-
# Answers of a tree in memory are local

A tree in memory answers a request about a path from the entries at the route of the path and right
below it. So trees that hold the same entries outside a directory (`MemoryTree.SameOutside`) give
the same answers at every path that has nothing in common with that directory
(`SameOutside.read_eq`, `SameOutside.present_eq`, `SameOutside.list_eq`). No spelling of a path is
excluded: only routes count. What the files hold is seen by reading them only
(`MemoryTree.SameEntries.reader_eq`).
-/

namespace CardInventory
namespace MemoryTree

variable {tree t₁ t₂ : MemoryTree} {adds : List (Path × TreeEntry)} {dir r : Route} {name : String}

/-! ## Names in a tree -/

theorem mem_routes_iff : r ∈ tree.routes ↔ r ∈ tree.dirs ∨ (tree.files.lookup r).isSome := by
  rw [routes, List.mem_append, List.lookup_isSome_iff, List.mem_map]
  exact or_congr_right (exists_congr fun e => and_congr_right fun _ => by rw [beq_iff_eq, eq_comm])

/-- The steps of a directory that comes with an entry are steps of its path. -/
theorem mem_steps_of_mem_impliedDirs {path : Path} {entry : TreeEntry} {step : Step}
    (hr : r ∈ impliedDirs path entry) (h : step ∈ r.steps) : step ∈ path.route.steps := by
  cases entry with
  | directory => exact Route.mem_steps_of_mem_lineage hr h
  | file content =>
    cases hparent : path.route.parent? with
    | none => simp [impliedDirs, hparent] at hr
    | some parent =>
      rw [impliedDirs, hparent, Option.map_some, Option.getD_some] at hr
      have hstep := Route.mem_steps_of_mem_lineage hr h
      unfold Route.parent? at hparent
      split_ifs at hparent
      obtain rfl := Option.some.inj hparent
      exact (List.dropLast_sublist _).mem hstep

/-- All steps in a tree are steps of paths that were added. -/
theorem exists_mem_steps_of_mem_routes {step : Step} (hr : r ∈ (ofEntries adds).routes)
    (h : step ∈ r.steps) : ∃ e ∈ adds, step ∈ e.1.route.steps := by
  rcases List.mem_append.1 hr with hr | hr
  · obtain ⟨e, he, hr⟩ := mem_dirs_ofEntries.1 hr
    exact ⟨e, he, mem_steps_of_mem_impliedDirs hr h⟩
  · obtain ⟨⟨_, content⟩, hfile, rfl⟩ := List.mem_map.1 hr
    obtain ⟨e, he, rfl, -⟩ := mem_files_ofEntries.1 hfile
    exact ⟨e, he, h⟩

/-- **What is right below a directory has the name of an entry.** -/
theorem isEntryName_of_child_mem_routes {n : RawText}
    (hr : dir.child n ∈ (ofEntries adds).routes) : IsEntryName n := by
  obtain ⟨e, -, hstep⟩ := exists_mem_steps_of_mem_routes hr
    (List.mem_append_right _ List.mem_cons_self : Step.name n ∈ (dir.child n).steps)
  exact Path.isEntryName_of_mem_route hstep

/-- The names in a directory are shown as those of the routes right below it. -/
theorem mem_children : name ∈ tree.children dir ↔
    ∃ n, dir.child n ∈ tree.routes ∧ n.lossy = name := by
  simp only [children, mem_sortedNames, List.mem_filterMap, List.mem_filter, decide_eq_true_eq,
    Option.map_eq_some_iff]
  constructor
  · rintro ⟨r, ⟨hr, hparent⟩, n, hn, rfl⟩
    exact ⟨n, Route.eq_child_iff.1 ⟨hparent, hn⟩ ▸ hr, rfl⟩
  · rintro ⟨n, hr, rfl⟩
    obtain ⟨hparent, hn⟩ := Route.eq_child_iff.2 (rfl : dir.child n = dir.child n)
    exact ⟨dir.child n, ⟨hr, hparent⟩, n, hn, rfl⟩

/-- What is listed in a tree is a name, though it need not be that of an entry. -/
theorem isEntryName_of_mem_children (h : name ∈ (ofEntries adds).children dir) :
    IsEntryName name := by
  obtain ⟨n, hr, rfl⟩ := mem_children.1 h
  exact (isEntryName_of_child_mem_routes hr).lossy

/-- The names in a directory come in ascending order. -/
theorem children_ascending : (tree.children dir).Pairwise (· < ·) := sortedNames_ascending _

/-- What is listed are the children of a directory. -/
theorem list_eq_ok_iff {path : Path} {names : List String} : tree.list path = .ok names ↔
    path.route ∈ tree.dirs ∧ names = tree.children path.route := by
  unfold list
  split_ifs with hdir <;> simp [hdir, eq_comm]

/-- So every listing is ascending. -/
theorem list_ascending {path : Path} {names : List String} (h : tree.reader.list path = .ok names) :
    names.Pairwise (· < ·) := by
  obtain ⟨-, rfl⟩ := list_eq_ok_iff.1 h
  exact children_ascending

/-! ## Trees that differ in one directory -/

/-- Two trees have the same entries, but for a directory and what is below it. -/
structure SameOutside (t₁ t₂ : MemoryTree) (dir : Route) : Prop where
  dirs : ∀ r : Route, ¬ r.IsUnder dir → (r ∈ t₁.dirs ↔ r ∈ t₂.dirs)
  files : ∀ r : Route, ¬ r.IsUnder dir → t₁.files.lookup r = t₂.files.lookup r

/-- Where neither tree has an entry there is nothing to compare. -/
theorem sameOutside_iff_forall_mem : t₁.SameOutside t₂ dir ↔
    ∀ r ∈ t₁.routes ++ t₂.routes, ¬ r.IsUnder dir →
      (r ∈ t₁.dirs ↔ r ∈ t₂.dirs) ∧ t₁.files.lookup r = t₂.files.lookup r := by
  constructor
  · exact fun h r _ hr => ⟨h.dirs r hr, h.files r hr⟩
  · intro h
    have hall : ∀ r : Route, ¬ r.IsUnder dir →
        (r ∈ t₁.dirs ↔ r ∈ t₂.dirs) ∧ t₁.files.lookup r = t₂.files.lookup r := fun r hr => by
      by_cases hmem : r ∈ t₁.routes ++ t₂.routes
      · exact h r hmem hr
      · simp only [List.mem_append, mem_routes_iff, not_or, Option.not_isSome_iff_eq_none] at hmem
        obtain ⟨⟨hdir₁, hfile₁⟩, hdir₂, hfile₂⟩ := hmem
        exact ⟨iff_of_false hdir₁ hdir₂, hfile₁.trans hfile₂.symm⟩
    exact ⟨fun r hr => (hall r hr).1, fun r hr => (hall r hr).2⟩

instance (t₁ t₂ : MemoryTree) (dir : Route) : Decidable (t₁.SameOutside t₂ dir) :=
  decidable_of_iff _ sameOutside_iff_forall_mem.symm

namespace SameOutside

theorem mem_routes (h : t₁.SameOutside t₂ dir) (hr : ¬ r.IsUnder dir) :
    r ∈ t₁.routes ↔ r ∈ t₂.routes := by
  rw [mem_routes_iff, mem_routes_iff, h.dirs r hr, h.files r hr]

theorem children_eq (h : t₁.SameOutside t₂ dir) (hr : ∀ s : Route, s.IsUnder r → ¬ s.IsUnder dir) :
    t₁.children r = t₂.children r :=
  children_ascending.eq_of_mem_iff children_ascending fun name => by
    rw [mem_children, mem_children]
    exact exists_congr fun n =>
      and_congr_left fun _ => h.mem_routes (hr _ (Route.isUnder_child r n))

section
variable {path : Path}

/-- A request for a file is answered alike outside the directory. -/
theorem read_eq (h : t₁.SameOutside t₂ dir) (hpath : ¬ path.route.IsUnder dir) :
    t₁.read path = t₂.read path := by
  unfold read
  rw [h.files _ hpath]

/-- So is the question whether there is something. -/
theorem present_eq (h : t₁.SameOutside t₂ dir) (hpath : ¬ path.route.IsUnder dir) :
    t₁.present path = t₂.present path := by
  unfold present
  simp only [h.mem_routes hpath]

/-- **A directory is listed alike where nothing in it is shared with the other directory.** -/
theorem list_eq (h : t₁.SameOutside t₂ dir)
    (hpath : ∀ r : Route, r.IsUnder path.route → ¬ r.IsUnder dir) :
    t₁.list path = t₂.list path := by
  unfold list
  rw [h.children_eq hpath]
  simp only [h.dirs _ (hpath _ (.refl _))]

end

end SameOutside

/-! ## Trees with the same entries -/

/-- Two trees have the same directories and files, whatever the files hold. -/
structure SameEntries (t₁ t₂ : MemoryTree) : Prop where
  dirs : ∀ r, r ∈ t₁.dirs ↔ r ∈ t₂.dirs
  isFile : ∀ r, (t₁.files.lookup r).isSome = (t₂.files.lookup r).isSome

namespace SameEntries

theorem mem_routes_iff (h : SameEntries t₁ t₂) : r ∈ t₁.routes ↔ r ∈ t₂.routes := by
  rw [MemoryTree.mem_routes_iff, MemoryTree.mem_routes_iff, h.dirs, h.isFile]

theorem children_eq (h : SameEntries t₁ t₂) (dir : Route) : t₁.children dir = t₂.children dir := by
  refine children_ascending.eq_of_mem_iff children_ascending fun name => ?_
  rw [mem_children, mem_children]
  exact exists_congr fun n => and_congr_left fun _ => h.mem_routes_iff

/-- **What there is in a tree is seen alike**, by its list, by its name or by how that begins. -/
theorem reader_eq (h : SameEntries t₁ t₂) :
    t₁.reader.list = t₂.reader.list ∧ t₁.reader.present = t₂.reader.present ∧
      t₁.reader.find = t₂.reader.find := by
  have hlist : t₁.list = t₂.list := by
    funext path
    unfold list
    simp only [h.dirs, h.children_eq]
  have hpresent : t₁.present = t₂.present := by
    funext path
    unfold present
    simp only [h.mem_routes_iff]
  refine ⟨hlist, hpresent, ?_⟩
  rw [reader, reader, hlist]
  rfl

end SameEntries
end MemoryTree
end CardInventory
