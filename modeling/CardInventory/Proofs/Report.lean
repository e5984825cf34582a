import CardInventory.Proofs.Card.Json
import CardInventory.Proofs.Files.Writing
import CardInventory.Proofs.Json.Value
import CardInventory.Proofs.Uuid
import CardInventory.Report

/-
# A report is a record of its run

What a report writes can be read back: the inventory but for the device ids of its nodes, and a
record of the run that tells the functions that were left out one by one
(`report_on_record`). A run id that is new to the disk makes sure that the two files are new and do
not stand in each other's way (`Report.exists_stored`).
-/

namespace CardInventory

open Json

/-! ## Run ids -/

/-- A written UUID may be the name of an entry. -/
theorem Uuid.isEntryName_render (u : Uuid) : IsEntryName u.render := by
  have hchars : u.render.toList = u.chars := String.toList_ofList
  have hshort : ∀ cs : List Char, cs.length ≠ 36 → u.chars ≠ cs := fun cs hlength heq =>
    hlength (heq ▸ u.length_chars)
  refine isEntryName_ofString ?_ ?_ ?_ ?_
  · rw [hchars]
    exact hshort [] (by decide)
  · rw [hchars]
    intro hmem
    rcases mem_chars hmem with hslash | ⟨d, hd⟩
    · cases hslash
    · exact Text.Hex.ne_digit_of_value?_eq_none (by decide) d hd
  · rw [hchars]
    exact hshort ['.'] (by decide)
  · rw [hchars]
    exact hshort ['.', '.'] (by decide)

/-- A run id that is new to a disk and to the path of a base, as one drawn at random is. -/
structure FreshRun (runId : Uuid) (base : Path) (d : Disk) : Prop where
  notOnDisk : d.LacksName (.ofString runId.render)
  notInBase : .name (.ofString runId.render) ∉ base.route.steps

instance (runId : Uuid) (base : Path) (d : Disk) : Decidable (FreshRun runId base d) :=
  decidable_of_iff (d.LacksName (.ofString runId.render) ∧
      .name (.ofString runId.render) ∉ base.route.steps)
    ⟨fun ⟨h₁, h₂⟩ => ⟨h₁, h₂⟩, fun ⟨h₁, h₂⟩ => ⟨h₁, h₂⟩⟩

/-- The directory of a report. -/
def bundlePath (base : Path) (runId : Uuid) : Path := (base.join "reports").join runId.render

/-- A report can be made under a base: its run id is new, its directory can be made, and the paths
of its files are not too long. -/
structure Disk.TakesReport (d : Disk) (base : Path) (runId : Uuid) : Prop where
  fresh : FreshRun runId base d
  made : (d.makeDirectories (bundlePath base runId).raw).2 = .ok ()
  short : ((bundlePath base runId).join "inventory.json").raw.size ≤ pathLimit

namespace Report

variable {report : Report} {base : Path} {d d' d₁ : Disk} {paths : ReportPaths}
  {events : List Event}

/-! ## What is written -/

/-- A report that was written has made its directory, then its two files, and is told of. -/
theorem exists_of_write_eq_ok (h : report.write base d = (d', ⟨events, .ok paths⟩)) :
    paths = report.paths base ∧ events = [.reportWritten paths.runId paths.root] ∧
      ∃ d₁ d₂, d.makeDirectories paths.root.raw = (d₁, .ok ()) ∧
        d₁.writeFile paths.inventoryFile.raw (.ofString report.inventoryText) = .ok d₂ ∧
        d₂.writeFile paths.runFile.raw (.ofString report.runText) = .ok d' := by
  unfold write at h
  dsimp only at h
  split at h
  · cases h
  · next d₁ hmake =>
    split at h
    · cases h
    · next d₂ hinventory =>
      split at h
      · cases h
      · next d₃ hrun =>
        obtain ⟨rfl, hpaths⟩ := Prod.mk.inj h
        obtain ⟨rfl, hresult⟩ := Logged.mk.inj hpaths
        obtain rfl := Except.ok.inj hresult
        exact ⟨rfl, rfl, d₁, d₂, hmake, hinventory, hrun⟩

theorem root_paths (report : Report) (base : Path) :
    (report.paths base).root = bundlePath base report.runId := by
  dsimp only [paths, bundlePath]

theorem inventoryFile_paths (report : Report) (base : Path) :
    (report.paths base).inventoryFile = (report.paths base).root.join "inventory.json" := by
  dsimp only [paths]

theorem runFile_paths (report : Report) (base : Path) :
    (report.paths base).runFile = (report.paths base).root.join "run.json" := by
  dsimp only [paths]

/-- The files of a report are in its directory, which has the run id for its name. -/
theorem route_paths (report : Report) (base : Path) :
    (report.paths base).root.route =
        (base.route.child (.ofString "reports")).child (.ofString report.runId.render) ∧
      (report.paths base).inventoryFile.route =
        (report.paths base).root.route.child (.ofString "inventory.json") ∧
      (report.paths base).runFile.route =
        (report.paths base).root.route.child (.ofString "run.json") := by
  have hreports : IsEntryName "reports" := by decide
  have hinventory : IsEntryName "inventory.json" := by decide
  have hrun : IsEntryName "run.json" := by decide
  refine ⟨?_, ?_, ?_⟩
  · rw [root_paths, bundlePath, Path.route_join _ report.runId.isEntryName_render,
      Path.route_join base hreports]
  · rw [inventoryFile_paths, Path.route_join _ hinventory]
  · rw [runFile_paths, Path.route_join _ hrun]

/-- **A new run id keeps its files.** Once the directory of the report is made, both files are
written and read back, if their paths are not too long. -/
theorem exists_stored (hfresh : FreshRun report.runId base d)
    (hmake : d.makeDirectories (report.paths base).root.raw = (d₁, .ok ()))
    (hsize : (report.paths base).inventoryFile.raw.size ≤ Disk.pathLimit) :
    ∃ d₂ d₃ : Disk,
      d₁.writeFile (report.paths base).inventoryFile.raw (.ofString report.inventoryText) = .ok d₂ ∧
      d₂.writeFile (report.paths base).runFile.raw (.ofString report.runText) = .ok d₃ ∧
      d₃.system.readText (report.paths base).inventoryFile = .ok report.inventoryText ∧
      d₃.system.readText (report.paths base).runFile = .ok report.runText := by
  have hid := report.runId.isEntryName_render
  have hreports : IsEntryName "reports" := by decide
  have hbase : .name (.ofString report.runId.render) ∉ (base.join "reports").route.steps := by
    rw [Path.route_join base hreports, Route.child, List.mem_append, List.mem_singleton]
    rintro (hmem | heq)
    · exact hfresh.notInBase hmem
    · -- A run id is longer than `reports`.
      have hlength := congrArg (fun s => s.toList.length)
        (RawText.ofString_injective (Step.name.inj heq))
      rw [Uuid.render, String.toList_ofList, report.runId.length_chars] at hlength
      cases hlength
  rw [root_paths] at hmake
  obtain ⟨p, hdir, hempty⟩ := Disk.makeDirectories_join hid hfresh.notOnDisk hbase hmake
  rw [← bundlePath, ← root_paths] at hdir
  rw [inventoryFile_paths] at hsize
  have hinventory : Disk.FileName (report.paths base).root "inventory.json" :=
    ⟨by decide, by decide, hsize⟩
  have hrun : Disk.FileName (report.paths base).root "run.json" :=
    ⟨by decide, by decide, (Path.size_join_le_size_join _ (by decide) (by decide)
      (by decide)).trans hsize⟩
  rw [inventoryFile_paths, runFile_paths]
  exact hdir.exists_writeFile_writeFile hinventory hrun (by decide) hempty _ _

/-- **A report that can be made is made**, and both its texts are on the disk then. -/
theorem exists_write (report : Report) (h : d.TakesReport base report.runId) :
    ∃ d', report.write base d = (d',
        ⟨[.reportWritten report.runId.render (bundlePath base report.runId)],
          .ok (report.paths base)⟩) ∧
      d'.system.readText ((bundlePath base report.runId).join "inventory.json") =
        .ok report.inventoryText ∧
      d'.system.readText ((bundlePath base report.runId).join "run.json") = .ok report.runText := by
  have hmade := h.made
  have hshort := h.short
  rw [← root_paths] at hmade hshort ⊢
  rw [← inventoryFile_paths, ← runFile_paths] at *
  obtain ⟨d₁, hmake⟩ : ∃ d₁, d.makeDirectories (report.paths base).root.raw = (d₁, .ok ()) := by
    generalize d.makeDirectories (report.paths base).root.raw = result at hmade
    exact ⟨result.1, by rw [← hmade]⟩
  obtain ⟨d₂, d₃, hinventory, hrun, hread⟩ := exists_stored h.fresh hmake hshort
  refine ⟨d₃, ?_, hread⟩
  unfold write
  dsimp only
  rw [hmake]
  simp only [hinventory, hrun]
  rfl

/-- **The record of the run is read back**, whatever its other fields are. -/
theorem exists_parse?_runText (hextra : ∀ value ∈ report.extra, value.regular = true)
    (hcards : report.inventory.devices.size < Nat.pow 2 64)
    (hnodes : report.inventory.nodeCount < Nat.pow 2 64) :
    ∃ record : SortedMap Json, parse? report.runText = some (.object record.entries) ∧
      record.get? "run_id" = some (.text report.runId.render) ∧
      record.get? "cards" = some (.number (.natural report.inventory.devices.size)) ∧
      record.get? "nodes" = some (.number (.natural report.inventory.nodeCount)) ∧
      record.get? "skipped" = some (.array (report.skipped.map encodeSkipped)) ∧
      record.get? "meta" = some (report.extra.getD .null) := by
  have hskipped : (Json.array (report.skipped.map encodeSkipped)).regular = true := by
    rw [regular, itemsRegular_iff]
    intro item hitem
    obtain ⟨f, -, rfl⟩ := List.mem_map.1 hitem
    have hkeys : [("pci_id", Json.text f.id), ("reason", .text f.reason.message)].Pairwise
        fun a b => a.1 < b.1 := by
      have hlt : "pci_id" < "reason" := by decide
      exact List.pairwise_pair.2 hlt
    rw [encodeSkipped, regular, decide_eq_true hkeys]
    rfl
  have hmeta : (report.extra.getD .null).regular = true := by
    cases hvalue : report.extra with
    | none => rfl
    | some value => exact hextra value hvalue
  refine ⟨_, parse?_render_object Style.lawful_pretty ?_, ?_⟩
  · simp only [List.forall_mem_cons]
    exact ⟨rfl, rfl, rfl, decide_eq_true hcards, decide_eq_true hnodes, hskipped, hmeta,
      List.forall_mem_nil _⟩
  · simp [SortedMap.ofList, SortedMap.insert]

/-- The inventory is read back but for the device ids. -/
theorem decode_inventoryText (report : Report) :
    decode Inventory report.inventoryText = .ok report.inventory.withoutDeviceIds := by
  rw [← report.inventory.ofValue_toValue]
  exact decode_render Style.lawful_pretty (by decide) report.inventory

end Report

/-- **A report that was written is a faithful record.** Of its two files, which are in the directory
`reports/<run id>` under the base, the one is read as the inventory without the device ids of its
nodes. The other is read as an object with the run id, with as many cards and nodes as there are in
what is read of the inventory, with all functions that were left out, in their order, and with
whatever else was to be put on record. Both texts are on the disk when the run id was new to it.
One event tells of the run id and the directory. Numbers of cards and nodes are machine words. -/
theorem report_on_record {report : Report} {base : Path} {d d' : Disk} {paths : ReportPaths}
    {events : List Event}
    (hextra : ∀ value ∈ report.extra, value.regular = true)
    (hcards : report.inventory.devices.size < Nat.pow 2 64)
    (hnodes : report.inventory.nodeCount < Nat.pow 2 64)
    (hwrite : report.write base d = (d', ⟨events, .ok paths⟩)) :
    ∃ (inventoryText runText : String) (decoded : Inventory) (record : SortedMap Json),
      (∃ d₁ d₂ : Disk, d.makeDirectories paths.root.raw = (d₁, .ok ()) ∧
        d₁.writeFile paths.inventoryFile.raw (.ofString inventoryText) = .ok d₂ ∧
        d₂.writeFile paths.runFile.raw (.ofString runText) = .ok d') ∧
      (FreshRun report.runId base d → d'.system.readText paths.inventoryFile = .ok inventoryText ∧
        d'.system.readText paths.runFile = .ok runText) ∧
      paths.root.route =
        (base.route.child (.ofString "reports")).child (.ofString paths.runId) ∧
      paths.inventoryFile.route = paths.root.route.child (.ofString "inventory.json") ∧
      paths.runFile.route = paths.root.route.child (.ofString "run.json") ∧
      events = [.reportWritten paths.runId paths.root] ∧
      decode Inventory inventoryText = .ok decoded ∧
      decoded = report.inventory.withoutDeviceIds ∧
      parse? runText = some (.object record.entries) ∧
      record.get? "run_id" = some (.text paths.runId) ∧
      record.get? "cards" = some (.number (.natural decoded.devices.size)) ∧
      record.get? "nodes" = some (.number (.natural decoded.nodeCount)) ∧
      record.get? "skipped" = some (.array (report.skipped.map fun f =>
        .object [("pci_id", .text f.id), ("reason", .text f.reason.message)])) ∧
      record.get? "meta" = some (report.extra.getD .null) := by
  obtain ⟨rfl, rfl, d₁, d₂, hmake, hinventory, hrun⟩ := Report.exists_of_write_eq_ok hwrite
  obtain ⟨hroot, hinventoryFile, hrunFile⟩ := report.route_paths base
  obtain ⟨record, hparse, hid, hcards, hnodes, hskipped, hmeta⟩ :=
    report.exists_parse?_runText hextra hcards hnodes
  have hdevices : report.inventory.withoutDeviceIds.devices.size =
      report.inventory.devices.size := SortedMap.size_map _ _
  have hstored : FreshRun report.runId base d →
      d'.system.readText (report.paths base).inventoryFile = .ok report.inventoryText ∧
        d'.system.readText (report.paths base).runFile = .ok report.runText := fun hfresh => by
    -- That the first file was written tells that its path is short enough for `exists_stored`.
    obtain ⟨route, hroute, -⟩ := exists_of_bind_eq_ok hinventory
    obtain ⟨d₂', d₃', hinventory', hrun', hread⟩ :=
      Report.exists_stored hfresh hmake (Disk.routeOf_bounds hroute).2
    obtain rfl := Except.ok.inj (hinventory.symm.trans hinventory')
    obtain rfl := Except.ok.inj (hrun.symm.trans hrun')
    exact hread
  refine ⟨report.inventoryText, report.runText, _, record, ⟨d₁, d₂, hmake, hinventory, hrun⟩,
    hstored, hroot, hinventoryFile, hrunFile, rfl, report.decode_inventoryText, rfl, hparse, hid,
    ?_, ?_, hskipped, hmeta⟩
  · rw [hdevices, hcards]
  · rw [Inventory.nodeCount_withoutDeviceIds, hnodes]

/-- The UUID with one digit throughout. -/
def Uuid.ofDigit (d : Fin 16) : Uuid := ⟨List.replicate 32 d, List.length_replicate⟩

/-- A report of a card with one node and of two functions that were left out. -/
def sampleReport : Report where
  runId := .ofDigit (Fin.last 15)
  createdAt := "2024-05-01T10:00:00Z"
  inventory := .ofDevices (.ofDigit (Fin.last 15)) "2024-05-01T10:00:00Z" (.ofList [
    ("S", .ofNode "S" "v1" "0x5" ⟨"/dev/dri/r1", "/dev/xfpga", none, "0:3:0.1", "0x5001"⟩)])
  skipped := [⟨"0:4:0.1", .notReady⟩, ⟨"0:3:0.0", .management⟩]
  extra := some (.object [("a", .number (.negative 3)), ("b", .array [.text "\"", .null])])

/-- On an empty disk the sample is written; the record of the run has one card and one node, tells
the two functions and keeps what else there is. -/
theorem report_on_record_sample : ∃ (d : Disk) (text : String) (record : SortedMap Json)
      (events : List Event),
    sampleReport.write ⟨"/b"⟩ {} = (d, ⟨events, .ok (sampleReport.paths ⟨"/b"⟩)⟩) ∧
    events.map Event.message = ["wrote inventory report"] ∧
    d.system.readText (sampleReport.paths ⟨"/b"⟩).runFile = .ok text ∧
    parse? text = some (.object record.entries) ∧
    record.get? "cards" = some (.number (.natural 1)) ∧
    record.get? "nodes" = some (.number (.natural 1)) ∧
    record.get? "skipped" = some (.array [
      .object [("pci_id", .text "0:4:0.1"), ("reason", .text "function not ready")],
      .object [("pci_id", .text "0:3:0.0"), ("reason", .text "management function")]]) ∧
    record.get? "meta" = some (.object [
      ("a", .number (.negative 3)), ("b", .array [.text "\"", .null])]) := by
  have htakes : Disk.TakesReport {} ⟨"/b"⟩ sampleReport.runId :=
    ⟨by decide +kernel, by decide +kernel, by decide +kernel⟩
  have hextra : ∀ value ∈ sampleReport.extra, value.regular = true := fun value hvalue => by
    rw [← Option.some.inj hvalue]
    decide +kernel
  have hcount : sampleReport.inventory.withoutDeviceIds.devices.size = 1 ∧
      sampleReport.inventory.withoutDeviceIds.nodeCount = 1 := by decide +kernel
  obtain ⟨d, hwrite, -⟩ := sampleReport.exists_write htakes
  obtain ⟨_, text, decoded, record, -, hstored, -, -, -, -, -, rfl, hparse, -, hcards, hnodes,
    hskipped, hmeta⟩ := report_on_record hextra (by decide +kernel) (by decide +kernel) hwrite
  rw [hcount.1] at hcards
  rw [hcount.2] at hnodes
  exact ⟨d, text, record, _, hwrite, rfl, (hstored htakes.fresh).2, hparse, hcards, hnodes,
    hskipped, hmeta⟩

end CardInventory
