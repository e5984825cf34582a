import CardInventory.Command.Run
import CardInventory.Proofs.Report
import CardInventory.Proofs.Scan.Grouping
import CardInventory.Proofs.Scan.Readers

/-
# The commands agree

Three commands survey the machine, and each gives what it finds in a form of its own: as an
inventory, as the units that the inventory hands out, or as a report. From one disk they tell the
same (`commands_tell_one_story`): what is left of the survey in one form is what is left of it in
the others, and a survey that fails ends all three with one text.
-/

namespace CardInventory

open Json

namespace Command

/-! ## Texts -/

/-- What is printed is the text of a value in some style, and the end of the line. -/
theorem exists_renderJson_eq (pretty : Bool) :
    ∃ st : Style, st.Lawful ∧ ∀ j, renderJson pretty j = j.render st ++ "\n" := by
  cases pretty with
  | true => exact ⟨.pretty, Style.lawful_pretty, fun _ => rfl⟩
  | false => exact ⟨.compact, Style.lawful_compact, fun _ => rfl⟩

/-- **A printed inventory is read back** but for the device ids. -/
theorem decode_renderJson (pretty : Bool) (inventory : Inventory) :
    decode Inventory (renderJson pretty (encode inventory)) = .ok inventory.withoutDeviceIds := by
  obtain ⟨st, hst, hrender⟩ := exists_renderJson_eq pretty
  have hblanks : Spaces "\n".toList := by simp [Spaces, isSpace]
  rw [hrender, ← inventory.ofValue_toValue]
  exact decode_render_append hst (by decide) inventory hblanks

/-! ## Calls -/

/-- A call of the program: what it draws from outside, and its words. -/
structure Call where
  stamp : Stamp
  environment : Option String
  words : List String

namespace Call

/-- What a call gives on a disk. -/
def result (call : Call) (d : Disk) : Result := run call.stamp call.environment d call.words

/-- A call asks for an action under the names of a layout. -/
def Asks (call : Call) (layout : Layout) (action : Action) : Prop :=
  ∃ line, Line.parse call.environment call.words = .ok line ∧ line.layout = layout ∧
    line.action = action

variable {call : Call} {layout : Layout} {action : Action} {d d' : Disk} {events : List Event}

theorem Asks.result_of_ok (h : call.Asks layout action) {output : String}
    (hrun : action.run call.stamp layout d = (d', ⟨events, .ok output⟩)) :
    call.result d = { code := 0, output, events, disk := d' } := by
  obtain ⟨line, hparse, rfl, rfl⟩ := h
  simp only [result, run, hparse, hrun]

theorem Asks.result_of_error (h : call.Asks layout action) {e : Failure}
    (hrun : action.run call.stamp layout d = (d', ⟨events, .error e⟩)) :
    call.result d = { code := 1, failureText := e.report, events, disk := d' } := by
  obtain ⟨line, hparse, rfl, rfl⟩ := h
  simp only [result, run, hparse, hrun]

end Call

/-! ## Surveys -/

/-- The actions that survey the machine. -/
def Action.surveys : Action → Bool
  | .number _ => false
  | _ => true

section
variable {stamp : Stamp} {layout : Layout} {d : Disk}

/-- A survey that fails ends an action before it has told or done anything. -/
theorem Action.run_of_error {action : Action} (haction : action.surveys = true) {e : FileError}
    (h : d.list layout.functions = .error e) :
    action.run stamp layout d = (d, ⟨[], .error (.listFunctions layout.functions e)⟩) := by
  have hsurvey : survey stamp layout d = ⟨[], .error (.listFunctions layout.functions e)⟩ := by
    rw [survey, scan_eq_of_list_error d.reader layout h]
    rfl
  cases action with
  | scan pretty | resources pretty => rw [run, hsurvey, Logged.bind_of_error rfl]
  | report base => simp only [run, hsurvey]
  | number address => cases haction

/-- A survey that succeeds gives what the scan found, and tells what it told. -/
theorem survey_of_scan {outcome : ScanOutcome} (h : (scan d.reader layout).result = .ok outcome) :
    survey stamp layout d = ⟨(scan d.reader layout).events,
      .ok (.ofDevices stamp.inventoryId stamp.generatedAt outcome.devices, outcome.skipped)⟩ := by
  rw [survey, Logged.bind_of_ok h, Logged.events_pure, List.append_nil]
  rfl

end

section
variable {call : Call} {layout : Layout} {d : Disk} {outcome : ScanOutcome}

/-- The inventory that a call makes of the cards it finds. -/
def Call.inventoryOf (call : Call) (devices : DeviceMap) : Inventory :=
  .ofDevices call.stamp.inventoryId call.stamp.generatedAt devices

theorem Call.result_scan {pretty : Bool} (h : call.Asks layout (.scan pretty))
    (hscan : (scan d.reader layout).result = .ok outcome) : call.result d =
      { code := 0, output := renderJson pretty (encode (call.inventoryOf outcome.devices)),
        events := (scan d.reader layout).events, disk := d } := by
  refine h.result_of_ok ?_
  rw [Action.run, survey_of_scan hscan, Logged.bind_of_ok rfl, Logged.events_pure, List.append_nil]
  rfl

theorem Call.result_resources {pretty : Bool} (h : call.Asks layout (.resources pretty))
    (hscan : (scan d.reader layout).result = .ok outcome) : call.result d =
      { code := 0
        output := renderJson pretty (encode (call.inventoryOf outcome.devices).allocatable)
        events := (scan d.reader layout).events
        disk := d } := by
  refine h.result_of_ok ?_
  rw [Action.run, survey_of_scan hscan, Logged.bind_of_ok rfl, Logged.events_pure, List.append_nil]
  rfl

/-- The report that a call writes of what it finds. -/
def Call.reportOf (call : Call) (outcome : ScanOutcome) : Report where
  runId := call.stamp.runId
  createdAt := call.stamp.createdAt
  inventory := call.inventoryOf outcome.devices
  skipped := outcome.skipped

variable {d' : Disk} {events : List Event}

theorem Call.result_report {base : Path} (h : call.Asks layout (.report base))
    (hscan : (scan d.reader layout).result = .ok outcome) {paths : ReportPaths}
    (hwrite : (call.reportOf outcome).write base d = (d', ⟨events, .ok paths⟩)) :
    call.result d = {
      code := 0
      output := renderPaths paths
      events := (scan d.reader layout).events ++ events
      disk := d' } := by
  refine h.result_of_ok ?_
  unfold reportOf inventoryOf at hwrite
  simp only [Action.run, survey_of_scan hscan, hwrite, Except.map]

theorem Call.result_report_of_error {base : Path} (h : call.Asks layout (.report base))
    (hscan : (scan d.reader layout).result = .ok outcome) {e : Failure}
    (hwrite : (call.reportOf outcome).write base d = (d', ⟨events, .error e⟩)) :
    call.result d = {
      code := 1
      failureText := e.report
      events := (scan d.reader layout).events ++ events
      disk := d' } := by
  refine h.result_of_error ?_
  unfold reportOf inventoryOf at hwrite
  simp only [Action.run, survey_of_scan hscan, hwrite, Except.map]

/-- A report that ends well has written its two texts into its directory. -/
theorem Call.exists_of_result_report {base : Path} (h : call.Asks layout (.report base))
    (hscan : (scan d.reader layout).result = .ok outcome) (hcode : (call.result d).code = 0) :
    ∃ d₁ d₂ : Disk,
      d.makeDirectories (bundlePath base call.stamp.runId).raw = (d₁, .ok ()) ∧
      d₁.writeFile ((bundlePath base call.stamp.runId).join "inventory.json").raw
          (.ofString (call.reportOf outcome).inventoryText) = .ok d₂ ∧
      d₂.writeFile ((bundlePath base call.stamp.runId).join "run.json").raw
          (.ofString (call.reportOf outcome).runText) = .ok (call.result d).disk := by
  cases hwrite : (call.reportOf outcome).write base d with
  | mk d' written =>
    obtain ⟨events, e | paths⟩ := written
    · rw [result_report_of_error h hscan hwrite] at hcode
      cases hcode
    · obtain ⟨rfl, -, hstored⟩ := Report.exists_of_write_eq_ok hwrite
      rw [Report.inventoryFile_paths, Report.runFile_paths, Report.root_paths] at hstored
      rw [result_report h hscan hwrite]
      exact hstored

end

/-! ## The three commands -/

section
variable {layout : Layout} {base : Path} {d : Disk} {scanPretty resourcesPretty : Bool}
  {scanCall resourcesCall reportCall : Call}

/-- **Three commands tell one story.** Where the functions cannot be listed, all three calls end
with code 1 and one text of the failure, print and tell nothing and leave the disk as it is. Else
they tell what the scan told, and a report that it was written. The inventory that is printed and
that of the report have the same cards, which are those that the scan found but for the device ids;
the units that are printed are those that the inventory of the report hands out; and the record of
the run has as many cards and nodes as the scan found and tells the functions that the scan left
out. A report that ends well has written these texts, and one that can be made under its base ends
well, with both texts to be read. The number of functions is a machine word. -/
theorem commands_tell_one_story (hscan : scanCall.Asks layout (.scan scanPretty))
    (hresources : resourcesCall.Asks layout (.resources resourcesPretty))
    (hreport : reportCall.Asks layout (.report base)) :
    (∀ e, d.list layout.functions = .error e → ∀ call ∈ [scanCall, resourcesCall, reportCall],
      call.result d = {
        code := 1
        output := ""
        failureText := (Failure.listFunctions layout.functions e).report
        events := []
        disk := d }) ∧
    ∀ ids, d.list layout.functions = .ok ids → ids.length < Nat.pow 2 64 →
      ∃ (outcome : ScanOutcome) (printed reported : Inventory) (inventoryText runText : String)
        (record : SortedMap Json),
        (scan d.reader layout).result = .ok outcome ∧
        (∀ call ∈ [scanCall, resourcesCall],
          (call.result d).code = 0 ∧ (call.result d).failureText = "" ∧
            (call.result d).events = (scan d.reader layout).events) ∧
        decode Inventory (scanCall.result d).output = .ok printed ∧
        decode Inventory inventoryText = .ok reported ∧
        printed.devices = reported.devices ∧
        reported.devices = outcome.devices.map Device.withoutDeviceIds ∧
        (resourcesCall.result d).output =
          renderJson resourcesPretty (encode reported.allocatable) ∧
        parse? runText = some (.object record.entries) ∧
        record.get? "cards" = some (.number (.natural outcome.devices.size)) ∧
        record.get? "nodes" = some (.number (.natural outcome.devices.nodeCount)) ∧
        record.get? "skipped" = some (.array (outcome.skipped.map fun f =>
          .object [("pci_id", .text f.id), ("reason", .text f.reason.message)])) ∧
        ((reportCall.result d).code = 0 → ∃ d₁ d₂ : Disk,
          d.makeDirectories (bundlePath base reportCall.stamp.runId).raw = (d₁, .ok ()) ∧
          d₁.writeFile ((bundlePath base reportCall.stamp.runId).join "inventory.json").raw
              (.ofString inventoryText) = .ok d₂ ∧
          d₂.writeFile ((bundlePath base reportCall.stamp.runId).join "run.json").raw
              (.ofString runText) = .ok (reportCall.result d).disk) ∧
        (d.TakesReport base reportCall.stamp.runId →
          (reportCall.result d).code = 0 ∧ (reportCall.result d).failureText = "" ∧
          (reportCall.result d).events = (scan d.reader layout).events ++
            [.reportWritten reportCall.stamp.runId.render
              (bundlePath base reportCall.stamp.runId)] ∧
          (reportCall.result d).disk.system.readText
              ((bundlePath base reportCall.stamp.runId).join "inventory.json") =
            .ok inventoryText ∧
          (reportCall.result d).disk.system.readText
              ((bundlePath base reportCall.stamp.runId).join "run.json") = .ok runText) := by
  refine ⟨fun e hlist => ?_, fun ids hlist hids => ?_⟩
  · have hfail : ∀ {call : Call} {action : Action}, call.Asks layout action →
        action.surveys = true → call.result d = {
          code := 1
          failureText := (Failure.listFunctions layout.functions e).report
          disk := d } :=
      fun h haction => h.result_of_error (Action.run_of_error haction hlist)
    simp only [List.forall_mem_cons]
    exact ⟨hfail hscan rfl, hfail hresources rfl, hfail hreport rfl, List.forall_mem_nil _⟩
  · have hfound := scan_of_list d.reader layout hlist
    obtain ⟨hcards, hnodes⟩ := size_devices_ofListed_le d.reader layout ids
    -- Of what was found only the counts matter, which are bounded by the listing.
    generalize ScanOutcome.ofListed d.reader layout ids = outcome at *
    obtain ⟨record, hparse, -, hrecordCards, hrecordNodes, hskipped, -⟩ :=
      (reportCall.reportOf outcome).exists_parse?_runText (fun _ h => by cases h)
        (hcards.trans_lt hids) (hnodes.trans_lt hids)
    have hscanResult := Call.result_scan hscan hfound
    have hresourcesResult := Call.result_resources hresources hfound
    refine ⟨outcome, (scanCall.inventoryOf outcome.devices).withoutDeviceIds,
      (reportCall.inventoryOf outcome.devices).withoutDeviceIds,
      (reportCall.reportOf outcome).inventoryText, (reportCall.reportOf outcome).runText, record,
      hfound, ?_, ?_, Report.decode_inventoryText _, rfl, rfl, ?_, hparse, hrecordCards,
      hrecordNodes, hskipped, Call.exists_of_result_report hreport hfound, fun htakes => ?_⟩
    · simp only [List.forall_mem_cons, hscanResult, hresourcesResult, and_self, List.not_mem_nil,
        false_imp_iff, implies_true]
    · rw [hscanResult]
      exact decode_renderJson scanPretty _
    · rw [hresourcesResult, Inventory.allocatable_withoutDeviceIds]
      rfl
    · obtain ⟨d', hwrite, hread⟩ := (reportCall.reportOf outcome).exists_write htakes
      rw [Call.result_report hreport hfound hwrite]
      exact ⟨rfl, rfl, rfl, hread⟩

end

/-- A call under the root `/d`, which the environment gives. -/
def sampleCall (words : List String) : Call where
  stamp := {
    inventoryId := .ofDigit (Fin.last 15)
    generatedAt := "2024-05-01T10:00:00Z"
    runId := .ofDigit (Fin.last 15)
    createdAt := "2024-05-01T10:00:01Z" }
  environment := some "/d"
  words

/-- On an empty disk all three calls fail alike. On the sample disk the two inventories and the
record of the run tell its one card, and its units are printed. -/
theorem commands_tell_one_story_sample :
    (∀ words ∈ [["scan"], ["resources", "--pretty"], ["report", "--base", "/out"]],
      (sampleCall words).result {} = {
        code := 1
        output := ""
        failureText := (Failure.listFunctions ⟨"/d"⟩ .missing).report
        events := []
        disk := {} }) ∧
    ∃ (printed reported : Inventory) (inventoryText runText : String) (record : SortedMap Json),
      decode Inventory ((sampleCall ["scan"]).result sampleDisk).output = .ok printed ∧
      printed.devices = reported.devices ∧ reported.devices.keys = ["S1"] ∧
      ((sampleCall ["resources", "--pretty"]).result sampleDisk).output =
        renderJson true (encode reported.allocatable) ∧
      ((sampleCall ["report", "--base", "/out"]).result sampleDisk).disk.system.readText
          ⟨"/out/reports/ffffffff-ffff-ffff-ffff-ffffffffffff/inventory.json"⟩ =
        .ok inventoryText ∧
      decode Inventory inventoryText = .ok reported ∧
      ((sampleCall ["report", "--base", "/out"]).result sampleDisk).disk.system.readText
          ⟨"/out/reports/ffffffff-ffff-ffff-ffff-ffffffffffff/run.json"⟩ = .ok runText ∧
      parse? runText = some (.object record.entries) ∧
      record.get? "cards" = some (.number (.natural 1)) ∧
      record.get? "nodes" = some (.number (.natural 1)) := by
  have hscan : (sampleCall ["scan"]).Asks (.withRoot "/d") (.scan false) :=
    ⟨⟨some "/d", .scan false⟩, by decide +kernel, rfl, rfl⟩
  have hresources :
      (sampleCall ["resources", "--pretty"]).Asks (.withRoot "/d") (.resources true) :=
    ⟨⟨some "/d", .resources true⟩, by decide +kernel, rfl, rfl⟩
  have hreport :
      (sampleCall ["report", "--base", "/out"]).Asks (.withRoot "/d") (.report ⟨"/out"⟩) :=
    ⟨⟨some "/d", .report ⟨"/out"⟩⟩, by decide +kernel, rfl, rfl⟩
  constructor
  · have hlist : ({} : Disk).list ⟨"/d"⟩ = .error .missing := rfl
    have hfail := (commands_tell_one_story hscan hresources hreport).1 _ hlist
    simp only [List.forall_mem_cons] at hfail ⊢
    obtain ⟨hscanFails, hresourcesFails, hreportFails, -⟩ := hfail
    exact ⟨hscanFails, hresourcesFails, hreportFails, List.forall_mem_nil _⟩
  · have hroot : Path.Plain "/d" := ⟨by decide, by decide⟩
    have hadds := FileTree.filledBy_of_perm (List.reverse_perm sampleTree.entries)
    have hshows := (sampleDisk_holds.serves hroot (by decide)).shows
    have hlist : sampleDisk.list ⟨"/d"⟩ = .ok ["a", "b", "c"] := by
      rw [← toOption_eq_some_iff]
      exact (hshows.list [] .nil).trans (by decide +kernel)
    have htakes : sampleDisk.TakesReport ⟨"/out"⟩ (.ofDigit (Fin.last 15)) :=
      ⟨by decide +kernel, by decide +kernel, by decide +kernel⟩
    obtain ⟨outcome, printed, reported, inventoryText, runText, record, hfound, -, hprinted,
      hreported, hsame, hcards, hunits, hparse, hcardCount, hnodeCount, -, -, hmade⟩ :=
      (commands_tell_one_story hscan hresources hreport).2 _ hlist (by decide)
    obtain ⟨-, -, -, hinventoryText, hrunText⟩ := hmade htakes
    -- What is found is computed in memory, where listings need no sorting.
    have hmemory : (scan sampleMemory.reader (.withRoot "/d")).result.toOption = some outcome := by
      have hscans := congrArg (fun told => told.result.toOption)
        ((hadds.shows hroot).scan_eq hshows)
      simp only [Logged.mapError, toOption_mapError] at hscans
      exact hscans.trans (toOption_eq_some_iff.2 hfound)
    have hfacts : (outcome.devices.map Device.withoutDeviceIds).keys = ["S1"] ∧
        outcome.devices.size = 1 ∧ outcome.devices.nodeCount = 1 := by
      have hmapped : ((scan sampleMemory.reader (.withRoot "/d")).result.toOption.map fun outcome =>
          ((outcome.devices.map Device.withoutDeviceIds).keys, outcome.devices.size,
            outcome.devices.nodeCount)) = some (["S1"], 1, 1) := by decide +kernel
      rw [hmemory] at hmapped
      obtain ⟨hkeys, hcounts⟩ := Prod.mk.inj (Option.some.inj hmapped)
      exact ⟨hkeys, Prod.mk.inj hcounts⟩
    obtain ⟨hkeys, hsize, hnodes⟩ := hfacts
    rw [← hcards] at hkeys
    rw [hsize] at hcardCount
    rw [hnodes] at hnodeCount
    exact ⟨printed, reported, inventoryText, runText, record, hprinted, hsame, hkeys, hunits,
      hinventoryText, hreported, hrunText, hparse, hcardCount, hnodeCount⟩

end Command
end CardInventory
