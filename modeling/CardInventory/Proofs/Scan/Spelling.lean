import CardInventory.Files.System
import CardInventory.Proofs.Scan.DeviceIds
import CardInventory.Proofs.Text.Blank

/-
# Blanks and letter case do not count

Whatever a scan keeps or compares of a file it has without the blanks at its ends. A vendor is
compared in either letter case and kept only in the reason to leave out hardware of others, which
no outcome shows. So files may be written with other blanks around their contents and vendor files
in other letters (`MemoryTree.Respells`): the readers then differ in vendors at most
(`MemoryTree.Respells.reader`), functions fail the same checks, for the same reasons but for the
vendor that these show (`Reader.SameButVendors.result_examine_eq`), and scans find the same
(`Reader.SameButVendors.scan_cases`). And no text that a scan keeps has blanks at its ends
(`isTrimmed_of_scan`).
-/

namespace CardInventory

open Text

/-! ## Values that may be missing -/

section
variable {α β : Type} {R : α → α → Prop} {S : β → β → Prop} {f : α → β} {a b : Option α}

theorem isSome_eq_of_rel (h : Option.Rel R a b) : a.isSome = b.isSome := by
  cases h <;> rfl

theorem map_eq_of_rel (h : Option.Rel R a b) (hf : ∀ x y, R x y → f x = f y) :
    a.map f = b.map f := by
  cases h with
  | some hxy => exact congrArg some (hf _ _ hxy)
  | none => rfl

theorem rel_map_of_rel (h : Option.Rel R a b) (hf : ∀ x y, R x y → S (f x) (f y)) :
    Option.Rel S (a.map f) (b.map f) := by
  cases h with
  | some hxy => exact .some (hf _ _ hxy)
  | none => exact .none

end

/-! ## Contents in other spellings -/

/-- Is the second content one of the file at a route in another spelling? There may be blanks
before and after it, and in a vendor file letters may be in the other case. -/
def Layout.Respelled (layout : Layout) (r : Route) (s t : String) : Prop :=
  ∃ u, (u = s ∨ r.fileName? = some (.ofString layout.vendorFile) ∧ sameLetters s u = true) ∧
    IsPadded u t

/-- The second tree is the first one with its files in other spellings. -/
structure MemoryTree.Respells (layout : Layout) (t₁ t₂ : MemoryTree) : Prop where
  dirs : ∀ r, r ∈ t₁.dirs ↔ r ∈ t₂.dirs
  content : ∀ r, Option.Rel (layout.Respelled r) (t₁.files.lookup r) (t₂.files.lookup r)

/-- The files of which a scan keeps the content or compares it as it is. -/
def Layout.exactFiles (layout : Layout) : List String :=
  [layout.readyFile, layout.serialFile, layout.shellVersionFile, layout.timestampFile,
    layout.deviceFile]

/-- Two readers show the same, but for the case of letters in files of the name of vendor files. -/
structure Reader.SameButVendors (layout : Layout) (r₁ r₂ : Reader) : Prop where
  list : r₁.list = r₂.list
  present : r₁.present = r₂.present
  find : r₁.find = r₂.find
  content : ∀ name ∈ layout.exactFiles, ∀ dir : Path,
    r₁.content? (dir.join name) = r₂.content? (dir.join name)
  vendor : ∀ dir : Path, Option.Rel (fun s t => Layout.sameLetters s t = true)
    (r₁.content? (dir.join layout.vendorFile)) (r₂.content? (dir.join layout.vendorFile))

namespace Layout

theorem sameLetters_iff {s t : String} :
    sameLetters s t = true ↔ s.toList.map Char.toLower = t.toList.map Char.toLower := beq_iff_eq

/-- Texts that are the same but for the case are so without their blanks. -/
theorem sameLetters_trim {s t : String} (h : sameLetters s t = true) :
    sameLetters (trim s) (trim t) = true := by
  rw [sameLetters_iff] at h ⊢
  unfold trim
  rw [String.toList_ofList, String.toList_ofList, ← trimChars_map_toLower,
    ← trimChars_map_toLower, h]

/-- Without blanks a respelled content is the same but for the case. -/
theorem Respelled.sameLetters_trim {layout : Layout} {r : Route} {s t : String}
    (h : layout.Respelled r s t) : sameLetters (trim s) (trim t) = true := by
  obtain ⟨u, hu, hpadded⟩ := h
  rw [trim_eq_of_isPadded hpadded]
  rcases hu with rfl | ⟨-, hletters⟩
  · exact sameLetters_iff.2 rfl
  · exact Layout.sameLetters_trim hletters

/-- In another file than a vendor file it is the same. -/
theorem Respelled.trim_eq {layout : Layout} {r : Route} {s t : String}
    (h : layout.Respelled r s t) (hr : r.fileName? ≠ some (.ofString layout.vendorFile)) :
    trim s = trim t := by
  obtain ⟨u, rfl | ⟨hvendor, -⟩, hpadded⟩ := h
  · exact (trim_eq_of_isPadded hpadded).symm
  · exact absurd hvendor hr

/-- A vendor is accepted in either case. -/
theorem acceptsVendor_congr (layout : Layout) {s t : String} (h : sameLetters s t = true) :
    layout.acceptsVendor s = layout.acceptsVendor t := by
  unfold acceptsVendor sameLetters
  rw [sameLetters_iff.1 h]

end Layout

namespace MemoryTree

/-- A file that is not a vendor file by its name is none. -/
theorem fileName?_ne_vendorFile {root : Path} {name : String}
    (h : name ∈ (Layout.withRoot root).exactFiles) (dir : Path) :
    (dir.join name).route.fileName? ≠ some (.ofString (Layout.withRoot root).vendorFile) := by
  have hnames : ∀ name ∈ ({} : Layout).exactFiles,
      IsEntryName name ∧ name ≠ ({} : Layout).vendorFile := by decide
  obtain ⟨hname, hne⟩ := hnames name h
  rw [Path.route_join dir hname, (Route.eq_child_iff.2 rfl).2]
  exact fun heq => hne (RawText.ofString_injective (Option.some.inj heq))

namespace Respells

variable {layout : Layout} {t₁ t₂ : MemoryTree}

theorem sameEntries (h : Respells layout t₁ t₂) : t₁.SameEntries t₂ where
  dirs := h.dirs
  isFile r := isSome_eq_of_rel (h.content r)

/-- **Readers of such trees differ in vendors at most.** -/
theorem reader {root : Path} (h : Respells (.withRoot root) t₁ t₂) :
    t₁.reader.SameButVendors (.withRoot root) t₂.reader := by
  obtain ⟨hlist, hpresent, hfind⟩ := h.sameEntries.reader_eq
  refine ⟨hlist, hpresent, hfind, fun name hname dir => ?_, fun dir => ?_⟩
  · rw [content?_reader, content?_reader]
    exact map_eq_of_rel (h.content _) fun s t hspelled =>
      hspelled.trim_eq (fileName?_ne_vendorFile hname dir)
  · rw [content?_reader, content?_reader]
    exact rel_map_of_rel (h.content _) fun s t hspelled => hspelled.sameLetters_trim

end Respells
end MemoryTree

/-! ## Reasons without vendors -/

/-- The reason without the vendor that it may show. -/
def SkipReason.withoutVendor : SkipReason → SkipReason
  | foreignVendor _ => foreignVendor ""
  | reason => reason

/-- The check with a reason that shows no vendor. -/
def Check.withoutVendor (c : Check) : Check := { c with reason := c.reason.withoutVendor }

theorem verdict_map_withoutVendor (checks : List Check) :
    verdict (checks.map Check.withoutVendor) =
      (verdict checks).mapError SkipReason.withoutVendor := by
  induction checks with
  | nil => rfl
  | cons c rest ih =>
    rw [List.map_cons, verdict, verdict, ih]
    unfold Check.withoutVendor
    cases c.passes <;> rfl

/-- Checks decide a result in the same way when no vendor is shown. -/
theorem Decided.withoutVendor {α : Type} {checks : List Check} {value : Option α}
    {x : Except SkipReason α} (h : Decided checks value x) :
    Decided (checks.map Check.withoutVendor) value (x.mapError SkipReason.withoutVendor) := by
  unfold Decided
  rw [verdict_map_withoutVendor]
  rcases h with ⟨hok, a, ha, rfl⟩ | ⟨reason, herror, rfl⟩
  · exact .inl ⟨by rw [hok]; rfl, a, ha, rfl⟩
  · exact .inr ⟨reason.withoutVendor, by rw [herror]; rfl, rfl⟩

/-- The vendor is shown of hardware of others only, which is not told as left out. -/
theorem leftOut?_withoutVendor (id : String) (result : Except SkipReason IdentifiedFunction) :
    leftOut? id (result.mapError SkipReason.withoutVendor) = leftOut? id result := by
  rcases result with reason | f
  · cases reason <;> rfl
  · rfl

/-! ## What is found -/

/-- Checks ask of a vendor whether there is one and whether it is accepted. -/
theorem Observations.checks_withVendor {layout : Layout} {id : String} {seen : Observations}
    {vendor : Option String}
    (h : Option.Rel (fun s t => Layout.sameLetters s t = true) seen.vendor vendor) :
    ({ seen with vendor }.checks layout id).map Check.withoutVendor =
      (seen.checks layout id).map Check.withoutVendor := by
  obtain ⟨seenVendor, _, _, _, _, _, _, _, _, _, _, _⟩ := seen
  cases h with
  | some hletters =>
    simp only [checks, admissionChecks, Option.any_some, ← Layout.acceptsVendor_eq,
      layout.acceptsVendor_congr hletters]
    rfl
  | none => rfl

namespace Reader.SameButVendors

variable {layout : Layout} {r₁ r₂ : Reader}

/-- All that is observed of a function is the same, but for the vendor. -/
theorem ofReader_eq (h : r₁.SameButVendors layout r₂) (id : String) :
    Observations.ofReader r₂ layout id =
      { Observations.ofReader r₁ layout id with
        vendor := (Observations.ofReader r₂ layout id).vendor } := by
  have hfound : r₁.found? = r₂.found? := by
    funext dir lead
    rw [found?, found?, h.find]
  have hcontent := h.content
  simp only [Layout.exactFiles, List.forall_mem_cons] at hcontent
  obtain ⟨hready, hserial, hshell, htimestamp, hdevice, -⟩ := hcontent
  simp only [Observations.ofReader, h.present, hfound, hready, hserial, hshell, htimestamp, hdevice]

/-- **A function is identified alike**, and left out for the same reason but for the vendor. -/
theorem result_examine_eq (h : r₁.SameButVendors layout r₂) (id : String) :
    (examine r₁ layout id).result.mapError SkipReason.withoutVendor =
      (examine r₂ layout id).result.mapError SkipReason.withoutVendor := by
  have h₁ := (examine_decided r₁ layout id).withoutVendor
  have h₂ := (examine_decided r₂ layout id).withoutVendor
  rw [h.ofReader_eq, Observations.checks_withVendor (h.vendor _),
    ← IdentifiedFunction.streamingDma_eq h.find] at h₂
  exact h₁.unique h₂ fun _ => rfl

/-- **Scans of readers that differ in vendors at most find the same**, or both cannot list the
functions. -/
theorem scan_cases (h : r₁.SameButVendors layout r₂) :
    (∃ e, (scan r₁ layout).result = .error e ∧ (scan r₂ layout).result = .error e) ∨
      ∃ outcome₁ outcome₂, (scan r₁ layout).result = .ok outcome₁ ∧
        (scan r₂ layout).result = .ok outcome₂ ∧
        outcome₁.devices = outcome₂.devices ∧ outcome₁.skipped = outcome₂.skipped := by
  have hlist : r₁.list layout.functions = r₂.list layout.functions := by rw [h.list]
  rcases scan_cases_of_list_eq hlist with ⟨failure, h₁, h₂⟩ | ⟨ids, hlist₁, hlist₂⟩
  · exact .inl ⟨failure, by rw [h₁], by rw [h₂]⟩
  · have hidentified : identifiedFunctions r₁ layout ids = identifiedFunctions r₂ layout ids := by
      refine List.filterMap_congr fun id _ => ?_
      rw [← toOption_mapError SkipReason.withoutVendor, h.result_examine_eq, toOption_mapError]
    have hleftOut : leftOutFunctions r₁ layout ids = leftOutFunctions r₂ layout ids := by
      refine List.filterMap_congr fun id _ => ?_
      rw [← leftOut?_withoutVendor, h.result_examine_eq, leftOut?_withoutVendor]
    refine .inr ⟨_, _, scan_of_list r₁ layout hlist₁, scan_of_list r₂ layout hlist₂, ?_, ?_⟩
    · rw [devices_ofListed, devices_ofListed, hidentified]
    · rw [skipped_ofListed, skipped_ofListed, hleftOut]

end Reader.SameButVendors

/-! ## What is kept -/

/-- A reader that gives contents without the blanks at their ends. -/
def Reader.Trims (reader : Reader) : Prop :=
  ∀ path s, reader.read path = .ok s → IsTrimmed s

theorem MemoryTree.trims_reader (tree : MemoryTree) : tree.reader.Trims := by
  intro path s h
  change tree.read path = .ok s at h
  unfold read at h
  split at h
  · obtain rfl := Except.ok.inj h
    exact isTrimmed_trim _
  · cases h

theorem System.trims_reader (system : System) : system.reader.Trims := by
  intro path s h
  obtain ⟨content, -, rfl⟩ := exists_of_map_eq_ok h
  exact isTrimmed_trim content

/-- **No text that is read of a function has blanks at its ends.** -/
theorem isTrimmed_of_examine {reader : Reader} (hreader : reader.Trims)
    {layout : Layout} {id : String} {f : IdentifiedFunction}
    (h : (examine reader layout id).result = .ok f) :
    IsTrimmed f.identity.serialNumber ∧ IsTrimmed f.identity.shellVersion ∧
      IsTrimmed f.identity.buildTimestamp ∧ IsTrimmed f.node.internalDeviceId := by
  have hcontent {path : Path} {s : String} (hs : reader.content? path = some s) : IsTrimmed s :=
    hreader path s (toOption_eq_some_iff.1 hs)
  have hdecided := examine_decided reader layout id
  rw [h] at hdecided
  have hvalue := hdecided.eq_some
  simp only [Observations.function?, bind, pure, Option.bind_eq_some_iff, Option.some.injEq]
    at hvalue
  obtain ⟨serialNumber, hserial, shellVersion, hshell, buildTimestamp, htimestamp, deviceId,
    hdevice, render, -, rfl⟩ := hvalue
  obtain ⟨controller, -, hserial⟩ := Option.bind_eq_some_iff.1 hserial
  obtain ⟨image, -, hshell⟩ := Option.bind_eq_some_iff.1 hshell
  obtain ⟨image, -, htimestamp⟩ := Option.bind_eq_some_iff.1 htimestamp
  exact ⟨hcontent hserial, hcontent hshell, hcontent htimestamp, hcontent hdevice⟩

/-- A card has no text with blanks at its ends. -/
structure Device.IsTrimmed (device : Device) : Prop where
  serialNumber : Text.IsTrimmed device.serialNumber
  shellVersion : Text.IsTrimmed device.shellVersion
  buildTimestamp : Text.IsTrimmed device.buildTimestamp
  internalDeviceId : ∀ node ∈ device.nodes, Text.IsTrimmed node.internalDeviceId

/-- **No card that a scan finds has a text with blanks at its ends.** -/
theorem isTrimmed_of_scan {reader : Reader} (hreader : reader.Trims) {layout : Layout}
    {outcome : ScanOutcome} (hscan : (scan reader layout).result = .ok outcome) :
    ∀ device ∈ outcome.devices.values, device.IsTrimmed := by
  intro device hdevice
  obtain ⟨ids, -, rfl⟩ := exists_list_of_scan reader layout hscan
  obtain ⟨⟨serial, device⟩, hentry, rfl⟩ := List.mem_map.1 hdevice
  rw [SortedMap.mem_entries_iff, devices_ofListed, DeviceMap.get?_foldl_addFunction] at hentry
  obtain ⟨first, hfirst, rfl⟩ := Device.eq_of_ofFunctions?_eq_some hentry
  have hfunction : ∀ f ∈ IdentifiedFunction.ofCard serial (identifiedFunctions reader layout ids),
      Text.IsTrimmed f.identity.serialNumber ∧ Text.IsTrimmed f.identity.shellVersion ∧
        Text.IsTrimmed f.identity.buildTimestamp ∧ Text.IsTrimmed f.node.internalDeviceId := by
    intro f hf
    obtain ⟨id, -, hok⟩ :=
      (mem_identifiedFunctions reader layout).1 (IdentifiedFunction.mem_ofCard.1 hf).1
    exact isTrimmed_of_examine hreader hok
  obtain ⟨hserial, hshell, htimestamp, -⟩ := hfunction first (List.mem_of_head? hfirst)
  refine ⟨hserial, hshell, htimestamp, fun node hnode => ?_⟩
  obtain ⟨f, hf, rfl⟩ := List.mem_map.1 hnode
  exact (hfunction f hf).2.2.2

/-- **Blanks and letter case do not count.** Let the files of a tree in memory have blanks before
and after their contents, and vendor files letters in the other case. Then both scans fail with the
error of the listing, or they find the same cards and leave out the same functions for the same
reasons. And of no tree and no system does a scan find a card with blanks at the ends of a serial
number, a shell version, a timestamp or a device id, under any layout. -/
theorem blanks_and_case_do_not_count :
    (∀ (root : Path) (t₁ t₂ : MemoryTree), t₁.Respells (.withRoot root) t₂ →
      (∃ e, (scan t₁.reader (.withRoot root)).result = .error e ∧
        (scan t₂.reader (.withRoot root)).result = .error e) ∨
      ∃ outcome₁ outcome₂, (scan t₁.reader (.withRoot root)).result = .ok outcome₁ ∧
        (scan t₂.reader (.withRoot root)).result = .ok outcome₂ ∧
        outcome₁.devices = outcome₂.devices ∧ outcome₁.skipped = outcome₂.skipped) ∧
    ∀ (layout : Layout) (outcome : ScanOutcome),
      ((∃ tree : MemoryTree, (scan tree.reader layout).result = .ok outcome) ∨
        ∃ system : System, (scan system.reader layout).result = .ok outcome) →
      ∀ device ∈ outcome.devices.values, device.IsTrimmed := by
  refine ⟨fun root t₁ t₂ h => h.reader.scan_cases, fun layout outcome h => ?_⟩
  rcases h with ⟨tree, hscan⟩ | ⟨system, hscan⟩
  · exact isTrimmed_of_scan tree.trims_reader hscan
  · exact isTrimmed_of_scan system.trims_reader hscan

/-- The tree with other contents of its files. -/
def MemoryTree.mapContents (g : Route → String → String) (tree : MemoryTree) : MemoryTree :=
  { tree with files := tree.files.map fun e => (e.1, g e.1 e.2) }

theorem MemoryTree.lookup_mapContents (tree : MemoryTree) (g : Route → String → String)
    (r : Route) : (tree.mapContents g).files.lookup r = (tree.files.lookup r).map (g r) := by
  unfold mapContents
  induction tree.files with
  | nil => rfl
  | cons e rest ih =>
    obtain ⟨r', s⟩ := e
    rw [List.map_cons, lookup_cons_eq_ite, lookup_cons_eq_ite]
    split_ifs with hr
    · rw [hr]
      rfl
    · exact ih

/-- Files whose contents are respelled one by one make up a tree in another spelling. -/
theorem MemoryTree.respells_mapContents {layout : Layout} (tree : MemoryTree)
    {g : Route → String → String} (hg : ∀ r s, layout.Respelled r s (g r s)) :
    tree.Respells layout (tree.mapContents g) where
  dirs _ := Iff.rfl
  content r := by
    rw [lookup_mapContents]
    cases tree.files.lookup r with
    | none => exact .none
    | some s => exact .some (hg r s)

/-- A content between an em space and an ideographic one with a line end, and the vendor of the
card in capitals where it may be. -/
def sampleRespelling (r : Route) (s : String) : String :=
  if r.fileName? = some (.ofString "vendor") ∧ s = "0x10ee" then "\u2003" ++ "0X10EE" ++ "\u3000\n"
  else "\u2003" ++ s ++ "\u3000\n"

theorem respelled_sampleRespelling (r : Route) (s : String) :
    (Layout.withRoot "/d").Respelled r s (sampleRespelling r s) := by
  have hpadded (u : String) : IsPadded u ("\u2003" ++ u ++ "\u3000\n") :=
    ⟨['\u2003'], ['\u3000', '\n'], by simp [isBlank], by simp [isBlank], by simp⟩
  unfold sampleRespelling
  split_ifs with hvendor
  · obtain ⟨hr, rfl⟩ := hvendor
    exact ⟨"0X10EE", .inr ⟨hr, by decide⟩, hpadded _⟩
  · exact ⟨s, .inl rfl, hpadded s⟩

/-- The card of the sample is found in both spellings, with its device id as it is. -/
theorem blanks_and_case_do_not_count_sample :
    ∃ outcome₁ outcome₂,
      (scan (sampleDeviceId "0x1").reader (.withRoot "/d")).result = .ok outcome₁ ∧
      (scan ((sampleDeviceId "0x1").mapContents sampleRespelling).reader (.withRoot "/d")).result =
        .ok outcome₂ ∧
      outcome₁.devices = outcome₂.devices ∧ outcome₁.skipped = outcome₂.skipped ∧
      outcome₁.devices.values.map Device.serialNumber = ["S"] ∧
      ∀ device ∈ outcome₂.devices.values, device.IsTrimmed := by
  obtain ⟨hscans, htrimmed⟩ := blanks_and_case_do_not_count
  have hserials : (scan (sampleDeviceId "0x1").reader (.withRoot "/d")).result.toOption.map
      (fun outcome => outcome.devices.values.map Device.serialNumber) = some ["S"] := by
    decide +kernel
  obtain ⟨e, hscan, -⟩ | ⟨outcome₁, outcome₂, hscan₁, hscan₂, hdevices, hskipped⟩ :=
    hscans "/d" _ _ ((sampleDeviceId "0x1").respells_mapContents respelled_sampleRespelling)
  · rw [hscan] at hserials
    cases hserials
  · rw [hscan₁] at hserials
    exact ⟨outcome₁, outcome₂, hscan₁, hscan₂, hdevices, hskipped, Option.some.inj hserials,
      htrimmed _ _ (.inl ⟨_, hscan₂⟩)⟩

end CardInventory
