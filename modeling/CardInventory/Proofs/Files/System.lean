import CardInventory.Files.System
import CardInventory.Proofs.Files.Tree

/-
# What an operating system shows

An operating system gives the names in a directory in any order, and refuses requests with errors
of its own. Neither is seen in what a scan is given: the names are sorted, and a tree leaves the
errors open. So a system that has the entries of a tree shows that tree (`System.Serves.shows`).
-/

namespace CardInventory

/-- What is relied on of an operating system that has the entries of a tree, at the paths of a
scan. A directory that is read gives each of its entries once. -/
structure System.Serves (system : System) (tree : FileTree) (root : Path) : Prop where
  readNames_directory : ∀ names, IsWayDown names →
    tree.entry? (root.names ++ names) = some .directory →
    ∃ found, system.readNames (root.descend names) = .ok found ∧
      found.Perm (tree.children (root.names ++ names))
  readNames_other : ∀ names, IsWayDown names →
    tree.entry? (root.names ++ names) ≠ some .directory →
    ∃ e, system.readNames (root.descend names) = .error e
  readText_file : ∀ names, IsWayDown names → names ≠ [] →
    ∀ content, tree.entry? (root.names ++ names) = some (.file content) →
    system.readText (root.descend names) = .ok content
  readText_other : ∀ names, IsWayDown names → names ≠ [] →
    (∀ content, tree.entry? (root.names ++ names) ≠ some (.file content)) →
    ∃ e, system.readText (root.descend names) = .error e
  present_iff : ∀ names, IsWayDown names → names ≠ [] →
    (system.present (root.descend names) = true ↔
      ∃ entry, tree.entry? (root.names ++ names) = some entry)

/-- Different names that come in any order are sorted into the one ascending list of them, if none
is damaged. -/
theorem mergeSort_lossy_eq_sortedNames {names found : List RawText} (hnodup : names.Nodup)
    (hundamaged : ∀ n ∈ names, n.Undamaged) (hfound : found.Perm names) :
    ((found.map RawText.lossy).mergeSort fun a b => decide (a ≤ b)) =
      sortedNames (names.map RawText.lossy) := by
  have hshown : (names.map RawText.lossy).Nodup :=
    hnodup.map_on fun m hm n hn h => by rw [hundamaged m hm, h, ← hundamaged n hn]
  have hperm : ((found.map RawText.lossy).mergeSort fun a b => decide (a ≤ b)).Perm
      (names.map RawText.lossy) := (List.mergeSort_perm _ _).trans (hfound.map _)
  refine eq_sortedNames ?_ fun name => hperm.mem_iff
  have hle : ((found.map RawText.lossy).mergeSort fun a b => decide (a ≤ b)).Pairwise (· ≤ ·) :=
    List.pairwise_mergeSort' (· ≤ ·) _
  have hne := hperm.nodup_iff.2 hshown
  exact (hle.and hne).imp fun h => lt_of_le_of_ne h.1 h.2

/-- **A system that has the entries of a tree shows the tree.** -/
theorem System.Serves.shows {system : System} {tree : FileTree} {root : Path}
    (h : system.Serves tree root) : system.reader.Shows tree root := by
  refine .ofListing (fun names hnames hne => ?_) (fun names hnames => ?_)
    fun names hnames hne => ?_
  · by_cases hfile : ∃ content, tree.entry? (root.names ++ names) = some (.file content)
    · obtain ⟨content, hcontent⟩ := hfile
      rw [System.read, h.readText_file names hnames hne content hcontent,
        FileTree.content?_of_file hcontent]
      rfl
    · have hno := not_exists.1 hfile
      obtain ⟨e, he⟩ := h.readText_other names hnames hne hno
      rw [System.read, he, FileTree.content?_of_not_file hno]
      rfl
  · by_cases hdir : tree.entry? (root.names ++ names) = some .directory
    · obtain ⟨found, hfound, hperm⟩ := h.readNames_directory names hnames hdir
      rw [System.list, hfound, FileTree.listing?, if_pos hdir,
        ← mergeSort_lossy_eq_sortedNames FileTree.nodup_children
          (fun n hn => (FileTree.isName_of_mem_children hn).undamaged) hperm]
      rfl
    · obtain ⟨e, he⟩ := h.readNames_other names hnames hdir
      rw [System.list, he, FileTree.listing?, if_neg hdir]
      rfl
  · rw [Bool.eq_iff_iff, h.present_iff names hnames hne, Option.isSome_iff_exists]

end CardInventory
