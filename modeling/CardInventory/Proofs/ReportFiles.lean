import CardInventory.Proofs.Files.Growing
import CardInventory.Proofs.Report

/-
# Reports leave other files alone

To write a report is to make a directory of its own, with those above it, and to put two files in
it. The directory is new where the directory of reports, be it there already
(`Disk.reportsPlace_eq`) or not yet (`Disk.IsTree.lacksReport`), has no entry of the name of the run
(`Report.exists_bundle`), and so are the files. So all files that were on the disk are there
afterwards with what they held, and where the directory cannot be made no file is new either
(`writing_leaves_files_alone`).
-/

namespace CardInventory

/-! ## The directory of reports -/

namespace Disk

/-- Where the directory of reports under a base is. It is made first, with those above it, as far as
they are missing: the base may go up again from a directory that is not there yet. -/
def reportsPlace (d : Disk) (base : Path) : Except FileError Place :=
  (d.makeDirectories (base.join "reports").raw).1.locatePath (base.join "reports")

/-- The directory of reports has no entry of the name of a run. -/
def LacksReport (d : Disk) (base : Path) (runId : Uuid) : Prop :=
  ∀ p, d.reportsPlace base = .ok p → d.entry? (p ++ [.ofString runId.render]) = none

/-- What is reached by a path with a name at its end is what the path leads to. -/
theorem Reaches.locatePath_join {d : Disk} {dir : Path} {name : String} {p : Place}
    (hname : IsEntryName name)
    (hroute : routeOf (dir.join name).raw = .ok (Route.ofText (dir.join name).raw))
    (h : d.Reaches (Route.ofText (dir.join name).raw) p) :
    d.locatePath (dir.join name) = .ok p := by
  obtain ⟨init, hsteps⟩ := dir.exists_steps_ofText_join hname
  have hne : (Route.ofText (dir.join name).raw).steps ≠ [] := by simp [hsteps]
  rw [locatePath, hroute]
  simp only [bind, Except.bind, locate, (land_eq_ok_iff hne).2 h.walks]

/-- A directory of reports that is there already is where it is. -/
theorem reportsPlace_eq {d : Disk} {base : Path} {p : Place}
    (h : d.locatePath (base.join "reports") = .ok p) (hdir : d.isDirectory p = true) :
    d.reportsPlace base = .ok p := by
  obtain ⟨route, hroute, hlocate⟩ := exists_of_bind_eq_ok h
  obtain rfl := routeOf_eq_ok hroute
  have hreaches : d.Reaches (Route.ofText (base.join "reports").raw) p :=
    ⟨walks_of_locate_eq_ok hlocate, hdir⟩
  exact ((d.grows_makeDirectories _).reaches hreaches).locatePath_join (by decide) hroute

/-- A directory of reports that is not there yet has no entries. -/
theorem IsTree.lacksReport {d : Disk} {base : Path} (h : d.IsTree)
    (hmissing : ∀ p, d.reportsPlace base = .ok p → d.entry? p = none) (runId : Uuid) :
    d.LacksReport base runId :=
  fun p hp => h.entry?_concat_eq_none (hmissing p hp) _

end Disk

/-- A run id that is new to a disk is new to the directory of reports. -/
theorem FreshRun.lacksReport {runId : Uuid} {base : Path} {d : Disk} (h : FreshRun runId base d) :
    d.LacksReport base runId :=
  fun p _ => h.notOnDisk.entry?_concat p

/-! ## Writing -/

namespace Report

variable {report : Report} {base : Path} {d d' : Disk} {paths : ReportPaths} {root : Path}
  {e : FileError} {events : List Event}

/-- **The directory of a report is new**, where there was no entry of its name. -/
theorem exists_bundle {runId : Uuid} (hnew : d.LacksReport base runId)
    (h : d.makeDirectories (bundlePath base runId).raw = (d', .ok ())) :
    ∃ bundle, d'.HasDirectory (bundlePath base runId) bundle ∧ d.entry? bundle = none := by
  have hid := runId.isEntryName_render
  obtain ⟨hroute, p, hreaches, hbefore, hsize, hmade⟩ := Disk.exists_of_makeDirectories_join hid h
  obtain ⟨init, hsteps⟩ := base.exists_steps_ofText_join (by decide : IsEntryName "reports")
  have hplace : d.reportsPlace base = .ok p :=
    (Disk.Reaches.of_normal hsteps hbefore).locatePath_join (by decide)
      (Disk.routeOf_of_routeOf_join hid.no_slash hroute)
  have hvacant := hnew p hplace
  exact ⟨_, .of_reaches hid hroute hreaches hsize (hmade hvacant), hvacant⟩

/-- A report whose directory cannot be made leaves the directories above it. -/
theorem eq_of_write_eq_makeBundle
    (h : report.write base d = (d', ⟨events, .error (.makeBundle root e)⟩)) :
    d' = (d.makeDirectories (bundlePath base report.runId).raw).1 := by
  rw [← root_paths]
  unfold write at h
  dsimp only at h
  split at h
  · next hmake =>
    rw [hmake]
    exact (Prod.mk.inj h).1.symm
  · split at h
    · cases h
    · split at h <;> cases h

theorem write_of_makeDirectories_eq_error
    (h : (d.makeDirectories (bundlePath base report.runId).raw).2 = .error e) :
    ∃ d', report.write base d =
      (d', ⟨[], .error (.makeBundle (bundlePath base report.runId) e)⟩) := by
  rw [← root_paths] at h ⊢
  unfold write
  dsimp only
  generalize d.makeDirectories (report.paths base).root.raw = result at h
  obtain ⟨d₁, result⟩ := result
  obtain rfl : result = .error e := h
  exact ⟨d₁, rfl⟩

end Report

/-- **Writing a report leaves all other files alone.** On a disk that is a tree the directory of
reports under a base has no entry of the name of the run. If the report is written, there are all
entries that were there, and all files with what they held; and there are two new files, the
inventory and the record of the run, in the directory of the report, in which nothing was before.
If the directory of the report cannot be made, there are all entries that were there and the files
are the same, on any disk. -/
theorem writing_leaves_files_alone (report : Report) (base : Path) (d : Disk) :
    (d.IsTree → d.LacksReport base report.runId →
      ∀ d' events paths, report.write base d = (d', ⟨events, .ok paths⟩) →
        ∃ bundle, d'.locatePath ((base.join "reports").join report.runId.render) = .ok bundle ∧
          (∀ name, d.entry? (bundle ++ [name]) = none) ∧
          (∀ p e, d.entry? p = some e → d'.entry? p = some e) ∧
          ∀ p, d'.fileAt? p =
            if p = bundle ++ [.ofString "inventory.json"] then
              some (.ofString report.inventoryText)
            else if p = bundle ++ [.ofString "run.json"] then some (.ofString report.runText)
            else d.fileAt? p) ∧
    ∀ d' events root e, report.write base d = (d', ⟨events, .error (.makeBundle root e)⟩) →
      (∀ p e, d.entry? p = some e → d'.entry? p = some e) ∧ ∀ p, d'.fileAt? p = d.fileAt? p := by
  constructor
  · intro htree hnew d' events paths hwrite
    obtain ⟨rfl, -, d₁, d₂, hmake, hinventory, hrun⟩ := Report.exists_of_write_eq_ok hwrite
    rw [Report.root_paths] at hmake
    rw [Report.inventoryFile_paths, Report.root_paths] at hinventory
    rw [Report.runFile_paths, Report.root_paths] at hrun
    obtain ⟨bundle, hdir, hvacant⟩ := Report.exists_bundle hnew hmake
    have hgrows : d.Grows d₁ := by
      have hgrows := d.grows_makeDirectories (bundlePath base report.runId).raw
      rwa [hmake] at hgrows
    have hbelow : ∀ name, d.entry? (bundle ++ [name]) = none :=
      htree.entry?_concat_eq_none hvacant
    have hplaces : bundle ++ [RawText.ofString "run.json"] ≠
        bundle ++ [.ofString "inventory.json"] := by
      simp [RawText.ofString_injective.eq_iff]
    obtain ⟨hvacant₁, rfl⟩ := hdir.eq_set_of_writeFile (by decide) (by decide)
      (fun e he => hgrows.eq_directory (hbelow _) he) hinventory
    have hne₁ := Disk.ne_nil_of_entry?_eq_none hvacant₁
    have hdir₁ := hdir.set hvacant₁ (rfl : (Entry.file (.ofString report.inventoryText)).isLink = _)
    obtain ⟨hvacant₂, rfl⟩ := hdir₁.eq_set_of_writeFile (by decide) (by decide)
      (fun e he => by
        rw [Disk.entry?_set d₁ hne₁, if_neg hplaces] at he
        exact hgrows.eq_directory (hbelow _) he) hrun
    have hne₂ := Disk.ne_nil_of_entry?_eq_none hvacant₂
    have hdir₂ := hdir₁.set hvacant₂ (rfl : (Entry.file (.ofString report.runText)).isLink = _)
    refine ⟨bundle, ?_, hbelow, fun p e hp => ?_, fun p => ?_⟩
    · exact hdir₂.reaches.locatePath_join report.runId.isEntryName_render hdir₂.routeOf_eq
    · exact Disk.entry?_set_of_some hvacant₂
        (Disk.entry?_set_of_some hvacant₁ (hgrows.entry?_of_some hp))
    · rw [Disk.fileAt?_set_file _ hne₂, Disk.fileAt?_set_file _ hne₁, hgrows.fileAt?_eq]
      by_cases hp : p = bundle ++ [.ofString "inventory.json"]
      · rw [if_neg (hp ▸ hplaces.symm), if_pos hp, if_pos hp]
      · rw [if_neg hp, if_neg hp]
  · intro d' events root e hwrite
    have hgrows := d.grows_makeDirectories (bundlePath base report.runId).raw
    rw [← Report.eq_of_write_eq_makeBundle hwrite] at hgrows
    exact ⟨fun p e => hgrows.entry?_of_some, hgrows.fileAt?_eq⟩

/-- A disk with an older report in a directory that a link leads to as well, and a file. -/
def sampleReports : Disk where
  entries := [
    (["b"], .directory),
    (["b", "reports"], .directory),
    (["b", "reports", "old"], .directory),
    (["b", "reports", "old", "run.json"], .file (.ofString "x")),
    (["l"], .link (.ofString "b")),
    (["f"], .file (.ofString "y"))]

/-- Through the link the sample takes a report next to the older one, which is kept. Under the file,
which is reached by way of a directory that has to be made first, it takes none and keeps the
file. -/
theorem writing_leaves_files_alone_sample :
    (∃ d' events bundle, sampleReport.write ⟨"/l"⟩ sampleReports =
        (d', ⟨events, .ok (sampleReport.paths ⟨"/l"⟩)⟩) ∧
      d'.locatePath (bundlePath ⟨"/l"⟩ sampleReport.runId) = .ok bundle ∧
      d'.entry? (["b", "reports", "old", "run.json"]) = some (.file (.ofString "x")) ∧
      d'.fileAt? (bundle ++ [.ofString "run.json"]) = some (.ofString sampleReport.runText)) ∧
    ∃ d' e, sampleReport.write ⟨"/n/../f"⟩ sampleReports =
        (d', ⟨[], .error (.makeBundle (bundlePath ⟨"/n/../f"⟩ sampleReport.runId) e)⟩) ∧
      d'.entry? (["f"]) = some (.file (.ofString "y")) := by
  constructor
  · have htakes : sampleReports.TakesReport ⟨"/l"⟩ sampleReport.runId :=
      ⟨by decide +kernel, by decide +kernel, by decide +kernel⟩
    have htree : sampleReports.IsTree := by decide +kernel
    obtain ⟨d', hwrite, -⟩ := sampleReport.exists_write htakes
    obtain ⟨bundle, hlocate, -, hkept, hfiles⟩ :=
      (writing_leaves_files_alone sampleReport ⟨"/l"⟩ sampleReports).1 htree
        htakes.fresh.lacksReport d' _ _ hwrite
    refine ⟨d', _, bundle, hwrite, hlocate, hkept _ _ (by decide +kernel), ?_⟩
    rw [hfiles, if_neg, if_pos rfl]
    simp [RawText.ofString_injective.eq_iff]
  · have herror : (sampleReports.makeDirectories
        (bundlePath ⟨"/n/../f"⟩ sampleReport.runId).raw).2 = .error .alreadyExists := by
      decide +kernel
    obtain ⟨d', hwrite⟩ := Report.write_of_makeDirectories_eq_error herror
    refine ⟨d', _, hwrite, ?_⟩
    exact ((writing_leaves_files_alone sampleReport ⟨"/n/../f"⟩ sampleReports).2 d' _ _ _ hwrite).1
      _ _ (by decide +kernel)

end CardInventory
