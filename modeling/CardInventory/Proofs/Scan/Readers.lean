import CardInventory.Failure
import CardInventory.Proofs.Files.Disk
import CardInventory.Proofs.Files.Memory
import CardInventory.Proofs.Scan.Agreement

/-
# Scans of one tree

What a scan finds depends on the tree that its reader shows and on nothing else: all paths that it
asks about are ways down from the directory of functions (`Reader.Shows.asked`), where two readers
of one tree agree. So a tree in memory gives the same scan as an operating system or a disk with the
same entries (`Reader.Shows.scan_eq`).
-/

namespace CardInventory

namespace Reader.Shows

variable {r₁ r₂ : Reader} {tree : FileTree} {root : Path} {names : List RawText} {lead : String}

/-- Readers that show one tree agree on the ways down. -/
theorem agreesAt (h₁ : r₁.Shows tree root) (h₂ : r₂.Shows tree root) (hnames : IsWayDown names)
    (hne : names ≠ []) : r₁.AgreesAt r₂ (root.descend names) where
  read := (h₁.read names hnames hne).trans (h₂.read names hnames hne).symm
  present := (h₁.present names hnames hne).trans (h₂.present names hnames hne).symm
  find lead := (h₁.find names hnames lead).trans (h₂.find names hnames lead).symm

/-- What is listed are names. -/
theorem isName_of_list (h : r₁.Shows tree root) (hnames : IsWayDown names) {ids : List String}
    (hlist : r₁.list (root.descend names) = .ok ids) : ∀ id ∈ ids, IsName id := by
  have hlisting := h.list names hnames
  rw [hlist] at hlisting
  exact fun id hid =>
    FileTree.isName_of_mem_children ((FileTree.mem_listing hlisting.symm).1 hid)

/-- What is found is a name, in a directory that can be searched for anything. -/
theorem of_found? (h : r₁.Shows tree root) (hnames : IsWayDown names) {name : String}
    (hentry : r₁.found? (root.descend names) lead = some name) :
    IsName name ∧ ∀ lead', (r₁.find (root.descend names) lead').toOption.isSome := by
  rw [Reader.found?, h.find names hnames lead] at hentry
  cases hlisting : tree.listing? (root.names ++ names) with
  | none =>
    rw [hlisting] at hentry
    cases hentry
  | some found =>
    rw [hlisting] at hentry
    have hname := (FileTree.mem_listing hlisting).1 (List.mem_of_find?_eq_some hentry)
    refine ⟨FileTree.isName_of_mem_children hname, fun lead' => ?_⟩
    rw [h.find names hnames lead', hlisting]
    rfl

/-- **All that is asked about a function are ways down.** -/
theorem asked (h : r₁.Shows tree root) {id : String} (hid : IsName id) {path : Path}
    (hpath : Asked r₁ (.withRoot root) id path) :
    ∃ names, IsWayDown names ∧ names ≠ [] ∧ path = root.descend names := by
  obtain ⟨hfiles, hserial, hshell, htimestamp⟩ := Layout.isName_withRoot root
  have hdir : IsWayDown [id] := IsWayDown.nil.concat (by decide) hid
  have hbelow : ∀ {n}, IsName n → IsWayDown [id, n] := hdir.concat (by simp [scanDepth])
  have hbottom : ∀ {m n}, IsName m → IsName n → IsWayDown [id, m, n] := fun hm =>
    (hbelow hm).concat (by simp [scanDepth])
  cases hpath with
  | dir => exact ⟨[id], hdir, by simp, rfl⟩
  | file hname => exact ⟨[id, _], hbelow (hfiles _ hname), by simp, rfl⟩
  | serialNumber hentry =>
    exact ⟨[id, _, _], hbottom (h.of_found? hdir hentry).1 hserial, by simp, rfl⟩
  | shellVersion hentry =>
    exact ⟨[id, _, _], hbottom (h.of_found? hdir hentry).1 hshell, by simp, rfl⟩
  | timestamp hentry =>
    exact ⟨[id, _, _], hbottom (h.of_found? hdir hentry).1 htimestamp, by simp, rfl⟩
  | graphics hentry => exact ⟨[id, _], hbelow (h.of_found? hdir hentry).1, by simp, rfl⟩

/-- Readers that show one tree examine its functions alike. -/
theorem examine_eq (h₁ : r₁.Shows tree root) (h₂ : r₂.Shows tree root) {id : String}
    (hid : IsName id) : examine r₁ (.withRoot root) id =
      examine r₂ (.withRoot root) id := by
  refine examine_congr (fun path hpath => ?_) fun hcontroller => ?_
  · obtain ⟨names, hnames, hne, rfl⟩ := h₁.asked hid hpath
    exact h₁.agreesAt h₂ hnames hne
  · have hdir : IsWayDown [id] := IsWayDown.nil.concat (by decide) hid
    obtain ⟨name, hname⟩ := Option.isSome_iff_exists.1 hcontroller
    exact (h₁.of_found? hdir hname).2 _

/-- **What a scan finds is decided by the tree that is shown.** Only the cause of a listing that
fails may differ, which the message on top does not tell. -/
theorem scan_eq (h₁ : r₁.Shows tree root) (h₂ : r₂.Shows tree root) :
    (scan r₁ (.withRoot root)).mapError Failure.message =
      (scan r₂ (.withRoot root)).mapError Failure.message := by
  refine scan_congr ((h₁.list [] .nil).trans (h₂.list [] .nil).symm) ?_
  exact fun ids hids id hid => h₁.examine_eq h₂ (h₁.isName_of_list .nil hids id hid)

end Reader.Shows

/-- **A scan in memory is a scan through the operating system.** A tree in memory that was filled
with the entries of a file tree, in any order, and an operating system that has these entries give
the same devices, left-out functions and events; and where one of the scans fails the other does,
with the same message on top. -/
theorem scan_memory_eq_scan_system {tree : FileTree} {adds : List (Path × TreeEntry)}
    {system : System} {root : Path} (hroot : root.Plain) (hadds : tree.FilledBy adds)
    (hsystem : system.Serves tree root) :
    (scan (MemoryTree.ofEntries adds).reader (.withRoot root)).mapError Failure.message =
      (scan system.reader (.withRoot root)).mapError Failure.message :=
  (hadds.shows hroot).scan_eq hsystem.shows

/-- A ready card function, a function whose vendor is a directory, and a file among the
functions. -/
def sampleTree : FileTree where
  entries :=
    [([], .directory), (["d"], .directory), (["d", "a"], .directory),
      (["d", "a", "vendor"], .file "0x10EE\n"), (["d", "a", "user_pf"], .directory),
      (["d", "a", "ready"], .file "0x1\n"), (["d", "a", "device"], .file "0x5000\n"),
      (["d", "a", "xmc.u.1"], .directory), (["d", "a", "xmc.u.1", "serial_num"], .file "S1\n"),
      (["d", "a", "rom.u.2"], .directory), (["d", "a", "rom.u.2", "VBNV"], .file "shell\n"),
      (["d", "a", "rom.u.2", "timestamp"], .file "0x5\n"), (["d", "a", "drm"], .directory),
      (["d", "a", "drm", "renderD128"], .file ""), (["d", "b"], .directory),
      (["d", "b", "vendor"], .directory), (["d", "c"], .file "0x10ee")]
  nodup := by decide
  root_mem := by decide
  parent_mem := by decide
  isName := by decide

/-- The sample in memory, its entries added from the last to the first. -/
def sampleMemory : MemoryTree :=
  .ofEntries (sampleTree.entries.reverse.map fun e => (Path.descend ⟨"/"⟩ e.1, e.2))

/-- The sample on a disk, its entries from the last to the first. -/
def sampleDisk : Disk where
  entries := sampleTree.entries.tail.reverse.map fun e => (e.1, e.2.onDisk)

theorem sampleDisk_holds : sampleDisk.Holds sampleTree where
  perm := ((List.reverse_perm sampleTree.entries.tail).map
    fun e => (e.1, e.2.onDisk)).cons ([], .directory)
  size_le := by decide

/-- The card of the sample is found both ways, and the two others are told as left out. -/
theorem scan_memory_eq_scan_system_sample :
    (scan sampleMemory.reader (.withRoot "/d")).mapError Failure.message =
      (scan sampleDisk.system.reader (.withRoot "/d")).mapError Failure.message ∧
    (scan sampleMemory.reader (.withRoot "/d")).result.toOption.map
        (fun outcome => outcome.devices.keys) = some ["S1"] ∧
    (scan sampleMemory.reader (.withRoot "/d")).events.length = 4 := by
  have hroot : Path.Plain "/d" := ⟨by decide, by decide⟩
  have hadds := FileTree.filledBy_of_perm (List.reverse_perm sampleTree.entries)
  have hsystem := sampleDisk_holds.serves hroot (by decide)
  exact ⟨scan_memory_eq_scan_system hroot hadds hsystem, by decide +kernel, by decide +kernel⟩

/-- A disk with the same entries gives the same scan. -/
theorem scan_memory_eq_scan_disk {tree : FileTree} {adds : List (Path × TreeEntry)} {d : Disk}
    {root : Path} (hroot : root.Plain) (hadds : tree.FilledBy adds) (hdisk : d.Holds tree)
    (hsize : root.raw.size + scanDepth * (Disk.nameLimit + 1) ≤ Disk.pathLimit) :
    (scan (MemoryTree.ofEntries adds).reader (.withRoot root)).mapError Failure.message =
      (scan d.reader (.withRoot root)).mapError Failure.message :=
  (hadds.shows hroot).scan_eq (hdisk.serves hroot hsize).shows

end CardInventory
