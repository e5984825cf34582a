import CardInventory.Proofs.Card.NormalForm
import CardInventory.Proofs.Files.Locality
import CardInventory.Proofs.Report
import CardInventory.Proofs.Scan.Agreement
import CardInventory.Proofs.Scan.Grouping

/-
# Device ids stay inside

A scan reads the device id of a function and keeps it in the node, and there it stays. Two trees
that differ only in what the device files hold are seen alike but for these files
(`MemoryTree.SameButDeviceIds.reader`), a scan of either passes the same checks and tells the same,
and the cards differ in the device ids at most (`Reader.SameButDeviceIds.scan_cases`). No text is
made of a device id, so that all texts and reports are the same (`Report.looksLike`). Nor does a
text bring one in: what is read from JSON has none.
-/

namespace CardInventory

open Json

/-! ## Trees that differ in device files -/

/-- Is this the route of the device file of a function, under whatever name? -/
def Layout.IsDeviceFile (layout : Layout) (r : Route) : Prop :=
  ∃ id : RawText, ((layout.functions.join id).join layout.deviceFile).route = r

/-- The other files of which a scan takes the content. -/
def Layout.contentFiles (layout : Layout) : List String :=
  [layout.vendorFile, layout.readyFile, layout.serialFile, layout.shellVersionFile,
    layout.timestampFile]

/-- Two trees have the same files and directories, and all files but the device files of functions
hold the same. -/
structure MemoryTree.SameButDeviceIds (layout : Layout) (t₁ t₂ : MemoryTree) : Prop where
  dirs : ∀ r, r ∈ t₁.dirs ↔ r ∈ t₂.dirs
  isFile : ∀ r, (t₁.files.lookup r).isSome = (t₂.files.lookup r).isSome
  content : ∀ r, ¬ layout.IsDeviceFile r → t₁.files.lookup r = t₂.files.lookup r

/-- Two readers show the same, but for what files of the name of device files hold. -/
structure Reader.SameButDeviceIds (layout : Layout) (r₁ r₂ : Reader) : Prop where
  list : r₁.list = r₂.list
  present : r₁.present = r₂.present
  find : r₁.find = r₂.find
  content : ∀ name ∈ layout.contentFiles, ∀ dir : Path,
    r₁.content? (dir.join name) = r₂.content? (dir.join name)
  isFile : ∀ dir : Path, (r₁.content? (dir.join layout.deviceFile)).isSome =
    (r₂.content? (dir.join layout.deviceFile)).isSome

namespace MemoryTree

/-- A file of another name is no device file. -/
theorem not_isDeviceFile {root : Path} {name : String}
    (h : name ∈ (Layout.withRoot root).contentFiles) (dir : Path) :
    ¬ (Layout.withRoot root).IsDeviceFile (dir.join name).route := by
  have hnames : IsEntryName ({} : Layout).deviceFile ∧
      ∀ name ∈ ({} : Layout).contentFiles, IsEntryName name ∧ name ≠ ({} : Layout).deviceFile := by
    decide
  obtain ⟨hdevice, hcontent⟩ := hnames
  obtain ⟨hname, hne⟩ := hcontent name h
  rintro ⟨id, hroute⟩
  rw [Path.route_join dir hname] at hroute
  have hchild := (Path.route_join (root.join id) hdevice).symm.trans hroute
  exact hne (RawText.ofString_injective (Route.child_inj hchild).2).symm

namespace SameButDeviceIds

variable {layout : Layout} {t₁ t₂ : MemoryTree}

theorem sameEntries (h : SameButDeviceIds layout t₁ t₂) : t₁.SameEntries t₂ := ⟨h.dirs, h.isFile⟩

/-- **Readers of such trees show the same but for the device files.** -/
theorem reader {root : Path} (h : SameButDeviceIds (.withRoot root) t₁ t₂) :
    t₁.reader.SameButDeviceIds (.withRoot root) t₂.reader := by
  obtain ⟨hlist, hpresent, hfind⟩ := h.sameEntries.reader_eq
  refine ⟨hlist, hpresent, hfind, fun name hname dir => ?_, fun dir => ?_⟩
  · rw [content?_reader, content?_reader, h.content _ (not_isDeviceFile hname dir)]
  · rw [content?_reader, content?_reader, Option.isSome_map, Option.isSome_map, h.isFile]

end SameButDeviceIds
end MemoryTree

/-! ## What is found -/

namespace Observations

variable {layout : Layout} {id : String} {seen : Observations} {deviceId : Option String}

/-- Checks ask whether there is a device id, not which. -/
theorem checks_withDeviceId (h : deviceId.isSome = seen.deviceId.isSome) :
    { seen with deviceId }.checks layout id = seen.checks layout id := by
  simp only [checks, admissionChecks, identityChecks, h]

/-- A device id goes into the node and nowhere else. -/
theorem map_function?_withDeviceId (h : deviceId.isSome = seen.deviceId.isSome)
    (streamingDmaPath : Option String) :
    ({ seen with deviceId }.function? layout id streamingDmaPath).map
        (IdentifiedFunction.mapNode Node.withoutDeviceId) =
      (seen.function? layout id streamingDmaPath).map
        (IdentifiedFunction.mapNode Node.withoutDeviceId) := by
  obtain ⟨_, _, _, _, _, serialNumber, _, shellVersion, buildTimestamp, seenId, _, render⟩ := seen
  cases deviceId <;> cases seenId <;> cases h
  · rfl
  · cases serialNumber <;> cases shellVersion <;> cases buildTimestamp <;> cases render <;> rfl

end Observations

namespace Reader.SameButDeviceIds

variable {layout : Layout} {r₁ r₂ : Reader}

/-- All that is observed of a function is the same, but for which device id there is. -/
theorem ofReader_eq (h : r₁.SameButDeviceIds layout r₂) (id : String) :
    Observations.ofReader r₂ layout id =
      { Observations.ofReader r₁ layout id with
        deviceId := (Observations.ofReader r₂ layout id).deviceId } := by
  have hfound : r₁.found? = r₂.found? := by
    funext dir lead
    rw [found?, found?, h.find]
  have hcontent := h.content
  simp only [Layout.contentFiles, List.forall_mem_cons] at hcontent
  obtain ⟨hvendor, hready, hserial, hshell, htimestamp, -⟩ := hcontent
  simp only [Observations.ofReader, h.present, hfound, hvendor, hready, hserial, hshell, htimestamp]

/-- **A function is found alike, but for the device id in its node.** -/
theorem map_result_examine_eq (h : r₁.SameButDeviceIds layout r₂) (id : String) :
    (examine r₁ layout id).result.map (IdentifiedFunction.mapNode Node.withoutDeviceId) =
      (examine r₂ layout id).result.map (IdentifiedFunction.mapNode Node.withoutDeviceId) := by
  have hsome : (Observations.ofReader r₂ layout id).deviceId.isSome =
      (Observations.ofReader r₁ layout id).deviceId.isSome := (h.isFile _).symm
  have h₁ := (examine_decided r₁ layout id).map (IdentifiedFunction.mapNode Node.withoutDeviceId)
  have h₂ := (examine_decided r₂ layout id).map (IdentifiedFunction.mapNode Node.withoutDeviceId)
  rw [h.ofReader_eq, Observations.checks_withDeviceId hsome,
    Observations.map_function?_withDeviceId hsome,
    ← IdentifiedFunction.streamingDma_eq h.find] at h₂
  exact h₁.unique h₂ fun _ => rfl

/-- The same is told of it. -/
theorem eventsOf_eq (h : r₁.SameButDeviceIds layout r₂) (id : String) :
    eventsOf r₁ layout id = eventsOf r₂ layout id := by
  have hmap := h.map_result_examine_eq id
  rcases h₁ : (examine r₁ layout id).result with reason₁ | f₁ <;>
    rcases h₂ : (examine r₂ layout id).result with reason₂ | f₂ <;> rw [h₁, h₂] at hmap
  · rw [eventsOf_of_error r₁ layout h₁, eventsOf_of_error r₂ layout h₂, Except.error.inj hmap]
  · cases hmap
  · cases hmap
  · rw [eventsOf_of_ok r₁ layout h₁, eventsOf_of_ok r₂ layout h₂,
      IdentifiedFunction.streamingDma_eq h.find]

/-- **Scans of readers that show the same but for device ids tell the same and find the same**, but
for these ids in the nodes; or both cannot list the functions. -/
theorem scan_cases (h : r₁.SameButDeviceIds layout r₂) :
    (scan r₁ layout).events = (scan r₂ layout).events ∧
    ((∃ failure, (scan r₁ layout).result = .error failure ∧
        (scan r₂ layout).result = .error failure) ∨
      ∃ outcome₁ outcome₂, (scan r₁ layout).result = .ok outcome₁ ∧
        (scan r₂ layout).result = .ok outcome₂ ∧ outcome₁.skipped = outcome₂.skipped ∧
        outcome₁.devices.map Device.withoutDeviceIds =
          outcome₂.devices.map Device.withoutDeviceIds) := by
  have hlist : r₁.list layout.functions = r₂.list layout.functions := by rw [h.list]
  rcases scan_cases_of_list_eq hlist with ⟨failure, h₁, h₂⟩ | ⟨ids, hlist₁, hlist₂⟩
  · rw [h₁, h₂]
    exact ⟨rfl, .inl ⟨failure, rfl, rfl⟩⟩
  · obtain ⟨hidentified, hleftOut⟩ := gathered_eq_of_map ids _ h.map_result_examine_eq
    have hdevices : (ScanOutcome.ofListed r₁ layout ids).devices.map Device.withoutDeviceIds =
        (ScanOutcome.ofListed r₂ layout ids).devices.map Device.withoutDeviceIds := by
      change DeviceMap.mapNodes _ _ = DeviceMap.mapNodes _ _
      rw [devices_ofListed, devices_ofListed, DeviceMap.mapNodes_foldl_addFunction,
        DeviceMap.mapNodes_foldl_addFunction, hidentified]
    have hsummary : (ScanOutcome.ofListed r₁ layout ids).summary =
        (ScanOutcome.ofListed r₂ layout ids).summary := by
      unfold ScanOutcome.summary
      rw [skipped_ofListed, skipped_ofListed, hleftOut,
        ← SortedMap.size_map _ Device.withoutDeviceIds, ← DeviceMap.nodeCount_withoutDeviceIds,
        hdevices, SortedMap.size_map, DeviceMap.nodeCount_withoutDeviceIds]
    have hevents : eventsOf r₁ layout = eventsOf r₂ layout := funext h.eventsOf_eq
    rw [scan_eq_of_list r₁ layout hlist₁, scan_eq_of_list r₂ layout hlist₂, hevents, hsummary]
    exact ⟨rfl, .inr ⟨_, _, rfl, rfl, hleftOut, hdevices⟩⟩

end Reader.SameButDeviceIds

/-! ## What is written -/

/-- The report of an outcome under given identifiers and times, with whatever else is to be put on
record. -/
def ScanOutcome.report (outcome : ScanOutcome) (runId inventoryId : Uuid)
    (createdAt generatedAt : String) (extra : Option Json) : Report where
  runId
  createdAt
  inventory := .ofDevices inventoryId generatedAt outcome.devices
  skipped := outcome.skipped
  extra

/-- Two reports cannot be told apart: neither the texts of the inventory and of what may be handed
out, nor the files of the report, nor what is on a disk that they are written to. -/
structure Report.LooksLike (r₁ r₂ : Report) : Prop where
  compact : (encode r₁.inventory).compact = (encode r₂.inventory).compact
  pretty : (encode r₁.inventory).pretty = (encode r₂.inventory).pretty
  allocatable_compact : (encode r₁.inventory.allocatable).compact =
    (encode r₂.inventory.allocatable).compact
  allocatable_pretty : (encode r₁.inventory.allocatable).pretty =
    (encode r₂.inventory.allocatable).pretty
  inventoryText : r₁.inventoryText = r₂.inventoryText
  runText : r₁.runText = r₂.runText
  write : ∀ base d, r₁.write base d = r₂.write base d

namespace Report

/-- The report with empty device ids. -/
def withoutDeviceIds (report : Report) : Report :=
  { report with inventory := report.inventory.withoutDeviceIds }

theorem inventoryText_withoutDeviceIds (report : Report) :
    report.withoutDeviceIds.inventoryText = report.inventoryText := by
  rw [inventoryText, inventoryText, withoutDeviceIds, Inventory.encode_withoutDeviceIds]

theorem runText_withoutDeviceIds (report : Report) :
    report.withoutDeviceIds.runText = report.runText := by
  have hcards : report.inventory.withoutDeviceIds.devices.size =
      report.inventory.devices.size := SortedMap.size_map _ _
  simp only [runText, runRecord, withoutDeviceIds, hcards, Inventory.nodeCount_withoutDeviceIds]

/-- **No device id is written.** -/
theorem write_withoutDeviceIds (report : Report) (base : Path) (d : Disk) :
    report.withoutDeviceIds.write base d = report.write base d := by
  have hpaths : report.withoutDeviceIds.paths base = report.paths base := rfl
  rw [write.eq_def, write.eq_def, hpaths, inventoryText_withoutDeviceIds, runText_withoutDeviceIds]

/-- **Reports that differ in device ids only look the same.** -/
theorem looksLike {r₁ r₂ : Report} (h : r₁.withoutDeviceIds = r₂.withoutDeviceIds) :
    r₁.LooksLike r₂ := by
  have hinventory : r₁.inventory.withoutDeviceIds = r₂.inventory.withoutDeviceIds :=
    congrArg inventory h
  have hencode : encode r₁.inventory = encode r₂.inventory := by
    rw [← Inventory.encode_withoutDeviceIds, hinventory, Inventory.encode_withoutDeviceIds]
  have hallocatable : r₁.inventory.allocatable = r₂.inventory.allocatable := by
    rw [← Inventory.allocatable_withoutDeviceIds, hinventory,
      Inventory.allocatable_withoutDeviceIds]
  refine ⟨by rw [hencode], by rw [hencode], by rw [hallocatable], by rw [hallocatable], ?_, ?_,
    fun base d => ?_⟩
  · rw [← inventoryText_withoutDeviceIds, h, inventoryText_withoutDeviceIds]
  · rw [← runText_withoutDeviceIds, h, runText_withoutDeviceIds]
  · rw [← write_withoutDeviceIds, h, write_withoutDeviceIds]

end Report

/-! ## What is read -/

/-- No node has a device id. -/
def DeviceMap.LacksDeviceIds (devices : DeviceMap) : Prop :=
  ∀ device ∈ devices.values, ∀ node ∈ device.nodes, node.internalDeviceId = ""

/-- A card with empty device ids has none. -/
theorem Device.internalDeviceId_of_mem {device : Device} {node : Node}
    (h : node ∈ device.withoutDeviceIds.nodes) : node.internalDeviceId = "" := by
  obtain ⟨_, -, rfl⟩ := List.mem_map.1 h
  rfl

theorem DeviceMap.lacksDeviceIds (devices : DeviceMap) :
    LacksDeviceIds (devices.map Device.withoutDeviceIds) := by
  intro device hdevice node hnode
  rw [SortedMap.values_map] at hdevice
  obtain ⟨_, -, rfl⟩ := List.mem_map.1 hdevice
  exact Device.internalDeviceId_of_mem hnode

/-- **Device ids stay inside.** Two trees in memory have the same entries, and files that hold the
same but for the device files of functions, under any root. Then both scans tell the same. They fail
with the error of the listing; or they leave the same functions out for the same reasons, and find
the same cards but for the device ids of nodes, and under the same identifiers and times no text and
no report shows which of them it was. And no node that is read from a JSON text, alone, in a card,
in cards or in an inventory, has a device id. -/
theorem device_ids_stay_inside :
    (∀ (root : Path) (t₁ t₂ : MemoryTree), t₁.SameButDeviceIds (.withRoot root) t₂ →
      (scan t₁.reader (.withRoot root)).events = (scan t₂.reader (.withRoot root)).events ∧
      ((∃ failure, (scan t₁.reader (.withRoot root)).result = .error failure ∧
        (scan t₂.reader (.withRoot root)).result = .error failure) ∨
      ∃ outcome₁ outcome₂, (scan t₁.reader (.withRoot root)).result = .ok outcome₁ ∧
        (scan t₂.reader (.withRoot root)).result = .ok outcome₂ ∧
        outcome₁.skipped = outcome₂.skipped ∧
        outcome₁.devices.map Device.withoutDeviceIds =
          outcome₂.devices.map Device.withoutDeviceIds ∧
        ∀ runId inventoryId createdAt generatedAt extra,
          (outcome₁.report runId inventoryId createdAt generatedAt extra).LooksLike
            (outcome₂.report runId inventoryId createdAt generatedAt extra))) ∧
    ∀ text, (∀ node : Node, decode Node text = .ok node → node.internalDeviceId = "") ∧
      (∀ device : Device, decode Device text = .ok device →
        ∀ node ∈ device.nodes, node.internalDeviceId = "") ∧
      (∀ devices : DeviceMap, decode DeviceMap text = .ok devices → devices.LacksDeviceIds) ∧
      ∀ inventory : Inventory, decode Inventory text = .ok inventory →
        inventory.devices.LacksDeviceIds := by
  constructor
  · intro root t₁ t₂ hsame
    obtain ⟨hevents, hcases⟩ := hsame.reader.scan_cases
    refine ⟨hevents, ?_⟩
    rcases hcases with herror | ⟨outcome₁, outcome₂, hscan₁, hscan₂, hskipped, hdevices⟩
    · exact .inl herror
    · refine .inr ⟨outcome₁, outcome₂, hscan₁, hscan₂, hskipped, hdevices,
        fun runId inventoryId createdAt generatedAt extra => Report.looksLike ?_⟩
      simp only [Report.withoutDeviceIds, ScanOutcome.report, Inventory.withoutDeviceIds,
        Inventory.ofDevices, hdevices, hskipped]
  · intro text
    refine ⟨fun node h => ?_, fun device h => ?_, fun devices h => ?_, fun inventory h => ?_⟩
    · rw [← ofValue_toValue_of_decode h]
      rfl
    · rw [← ofValue_toValue_of_decode h, Device.ofValue_toValue]
      exact fun node hnode => Device.internalDeviceId_of_mem hnode
    · rw [← ofValue_toValue_of_decode h, DeviceMap.ofValue_toValue]
      exact DeviceMap.lacksDeviceIds _
    · rw [← ofValue_toValue_of_decode h, Inventory.ofValue_toValue]
      exact DeviceMap.lacksDeviceIds _

/-- A tree whose device file of a function is written again differs in device ids only. -/
theorem MemoryTree.sameButDeviceIds_addFile {layout : Layout} (tree : MemoryTree) {path : Path}
    (h : layout.IsDeviceFile path.route) (content₁ content₂ : String) :
    (tree.addFile path content₁).SameButDeviceIds layout (tree.addFile path content₂) where
  dirs _ := Iff.rfl
  isFile r := by
    simp only [addFile, lookup_cons_eq_ite]
    split_ifs <;> rfl
  content r hr := by
    have hne : r ≠ path.route := fun heq => hr (heq ▸ h)
    simp only [addFile, lookup_cons_eq_ite, if_neg hne]

/-- A function of a card whose device file is written a second time. -/
def sampleDeviceId (deviceId : String) : MemoryTree :=
  (({} : MemoryTree).addCardFunction ⟨"/d/a"⟩ "S" "v1").addFile ⟨"/d/a/device"⟩ deviceId

/-- A node with a device id as a text. -/
def sampleLeak : String :=
  "\x7b\"primary_device_path\":\"p\",\"internal_device_id\":\"0x1\"," ++
  "\"subdevice_path\":\"s\",\"address\":\"a\"\x7d"

/-- With one of two device ids the sample gives a node with this id, and all else is the same; and a
text that has a device id gives a node that has none. -/
theorem device_ids_stay_inside_sample :
    (scan (sampleDeviceId "0x1").reader (.withRoot "/d")).events =
      (scan (sampleDeviceId "0x2").reader (.withRoot "/d")).events ∧
    (∃ outcome₁ outcome₂,
      (scan (sampleDeviceId "0x1").reader (.withRoot "/d")).result = .ok outcome₁ ∧
      (scan (sampleDeviceId "0x2").reader (.withRoot "/d")).result = .ok outcome₂ ∧
      (outcome₁.devices.values.flatMap Device.nodes).map Node.internalDeviceId = ["0x1"] ∧
      (outcome₂.devices.values.flatMap Device.nodes).map Node.internalDeviceId = ["0x2"] ∧
      ∀ id time, (outcome₁.report id id time time none).inventoryText =
        (outcome₂.report id id time time none).inventoryText) ∧
    ∃ node, decode Node sampleLeak = .ok node ∧ node.internalDeviceId = "" := by
  obtain ⟨hscans, hdecode⟩ := device_ids_stay_inside
  have hdevice : (Layout.withRoot "/d").IsDeviceFile (Path.mk "/d/a/device").route :=
    ⟨"a", by decide +kernel⟩
  obtain ⟨hevents, hcases⟩ := hscans "/d" (sampleDeviceId "0x1") (sampleDeviceId "0x2")
    (MemoryTree.sameButDeviceIds_addFile _ hdevice "0x1" "0x2")
  refine ⟨hevents, ?_, ?_⟩
  · have hids : ∀ id ∈ ["0x1", "0x2"],
        (scan (sampleDeviceId id).reader (.withRoot "/d")).result.toOption.map (fun outcome =>
          (outcome.devices.values.flatMap Device.nodes).map Node.internalDeviceId) =
            some [id] := by decide +kernel
    have hids₁ := hids "0x1" (by simp)
    have hids₂ := hids "0x2" (by simp)
    obtain ⟨e, hscan, -⟩ | ⟨outcome₁, outcome₂, hscan₁, hscan₂, -, -, hlooks⟩ := hcases
    · rw [hscan] at hids₁
      cases hids₁
    · rw [hscan₁] at hids₁
      rw [hscan₂] at hids₂
      exact ⟨outcome₁, outcome₂, hscan₁, hscan₂, Option.some.inj hids₁, Option.some.inj hids₂,
        fun id time => (hlooks id id time time none).inventoryText⟩
  · obtain ⟨node, hnode⟩ : ∃ node, (decode Node sampleLeak).toOption = some node :=
      Option.isSome_iff_exists.1 (by decide +kernel)
    rw [toOption_eq_some_iff] at hnode
    exact ⟨node, hnode, (hdecode sampleLeak).1 node hnode⟩

end CardInventory
