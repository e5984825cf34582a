import CardInventory.Files.Memory
import CardInventory.Proofs.Path
import CardInventory.Proofs.Scan.Admission

/-
# What a scan asks

The examination of a function asks a reader about few paths: the directory of the function, files
in it, and files in the entries that it finds there (`Asked`). Readers that agree on these paths
identify the function alike, whatever else they have and whatever errors they give
(`result_examine_congr`). What is told on the way shows one error only, that of a search for
streaming DMA. Where a directory that could be searched before can be searched for this too, the
same is told (`examine_congr`). A scan shows of its listing no more than what is examined and
whether it fails (`scan_congr`).
-/

namespace CardInventory

/-- Two readers agree on a path when both give the same or refuse. -/
structure Reader.AgreesAt (r₁ r₂ : Reader) (path : Path) : Prop where
  read : (r₁.read path).toOption = (r₂.read path).toOption
  present : r₁.present path = r₂.present path
  find : ∀ lead, (r₁.find path lead).toOption = (r₂.find path lead).toOption

theorem Reader.AgreesAt.found?_eq {r₁ r₂ : Reader} {path : Path} (h : r₁.AgreesAt r₂ path)
    (lead : String) : r₁.found? path lead = r₂.found? path lead :=
  congrArg Option.join (h.find lead)

/-- What a tree in memory gives for a file. -/
theorem MemoryTree.content?_reader (tree : MemoryTree) (path : Path) :
    tree.reader.content? path = (tree.files.lookup path.route).map Text.trim := by
  change (tree.read path).toOption = _
  unfold read
  cases tree.files.lookup path.route <;> rfl

/-- The files that a scan may look for in the directory of a function. -/
def Layout.functionFiles (layout : Layout) : List String :=
  [layout.vendorFile, layout.managementMarker, layout.userMarker, layout.readyFile,
    layout.deviceFile]

/-- All file names of the default layout are names. -/
theorem Layout.isName_withRoot (root : Path) :
    (∀ n ∈ (withRoot root).functionFiles, IsName n) ∧ IsName (withRoot root).serialFile ∧
      IsName (withRoot root).shellVersionFile ∧ IsName (withRoot root).timestampFile := by
  have h : (∀ n ∈ ({} : Layout).functionFiles, IsName n) ∧ IsName ({} : Layout).serialFile ∧
      IsName ({} : Layout).shellVersionFile ∧ IsName ({} : Layout).timestampFile := by decide
  exact h

/-- The paths that a reader is asked about when a function is examined. -/
inductive Asked (reader : Reader) (layout : Layout) (id : String) : Path → Prop
  | dir : Asked reader layout id (layout.functionDir id)
  | file {name : String} (h : name ∈ layout.functionFiles) :
    Asked reader layout id ((layout.functionDir id).join name)
  | serialNumber {name : String}
    (h : reader.found? (layout.functionDir id) layout.controllerLead = some name) :
    Asked reader layout id (((layout.functionDir id).join name).join layout.serialFile)
  | shellVersion {name : String}
    (h : reader.found? (layout.functionDir id) layout.imageLead = some name) :
    Asked reader layout id (((layout.functionDir id).join name).join layout.shellVersionFile)
  | timestamp {name : String}
    (h : reader.found? (layout.functionDir id) layout.imageLead = some name) :
    Asked reader layout id (((layout.functionDir id).join name).join layout.timestampFile)
  | graphics {name : String}
    (h : reader.found? (layout.functionDir id) layout.graphicsLead = some name) :
    Asked reader layout id ((layout.functionDir id).join name)

section
variable {r₁ r₂ : Reader} {layout : Layout} {id : String}

/-- **What is observed of a function depends on the paths asked about only.** -/
theorem Observations.ofReader_congr (h : ∀ path, Asked r₁ layout id path → r₁.AgreesAt r₂ path) :
    ofReader r₁ layout id = ofReader r₂ layout id := by
  have hentry : ∀ lead, r₁.found? (layout.functionDir id) lead =
      r₂.found? (layout.functionDir id) lead := (h _ .dir).found?_eq
  have hfile : ∀ name ∈ layout.functionFiles,
      r₁.AgreesAt r₂ ((layout.functionDir id).join name) := fun name hname => h _ (.file hname)
  simp only [Layout.functionFiles, List.forall_mem_cons] at hfile
  obtain ⟨hvendor, hmanagement, huser, hready, hdevice, -⟩ := hfile
  unfold ofReader
  simp only [← hentry, Observations.mk.injEq]
  refine ⟨hvendor.read, hmanagement.present, huser.present, hready.read, trivial, ?_, trivial, ?_,
    ?_, hdevice.read, trivial, ?_⟩
  · exact Option.bind_congr fun name hname => (h _ (.serialNumber hname)).read
  · exact Option.bind_congr fun name hname => (h _ (.shellVersion hname)).read
  · exact Option.bind_congr fun name hname => (h _ (.timestamp hname)).read
  · exact Option.bind_congr fun name hname => (h _ (.graphics hname)).found?_eq _

/-- Readers that find alike give one result of the search for streaming DMA. -/
theorem IdentifiedFunction.streamingDma_eq (h : r₁.find = r₂.find) (id : String) :
    streamingDma r₁ layout id = streamingDma r₂ layout id := by
  unfold streamingDma
  rw [h]

/-- Two searches for streaming DMA that both come to an end have one result. -/
theorem IdentifiedFunction.streamingDma_congr
    (h : (r₁.find (layout.functionDir id) layout.dmaLead).toOption =
      (r₂.find (layout.functionDir id) layout.dmaLead).toOption)
    (hsome : (r₁.find (layout.functionDir id) layout.dmaLead).toOption.isSome) :
    streamingDma r₁ layout id = streamingDma r₂ layout id := by
  unfold streamingDma
  revert h hsome
  rcases r₁.find (layout.functionDir id) layout.dmaLead with e₁ | found₁ <;>
    rcases r₂.find (layout.functionDir id) layout.dmaLead with e₂ | found₂ <;>
    simp [Except.toOption]
  rintro rfl
  rfl

/-- Checks decide one result. -/
theorem Decided.unique {α : Type} {checks : List Check} {value₁ value₂ : Option α}
    {x₁ x₂ : Except SkipReason α} (h₁ : Decided checks value₁ x₁) (h₂ : Decided checks value₂ x₂)
    (h : verdict checks = .ok () → value₁ = value₂) : x₁ = x₂ := by
  rcases h₁ with ⟨hok, a, ha, rfl⟩ | ⟨reason, herror, rfl⟩
  · rcases h₂ with ⟨-, b, hb, rfl⟩ | ⟨reason, herror, -⟩
    · rw [h hok, hb] at ha
      rw [Option.some.inj ha]
    · cases hok.symm.trans herror
  · rcases h₂ with ⟨hok, -⟩ | ⟨reason', herror', rfl⟩
    · cases hok.symm.trans herror
    · rw [Except.error.inj (herror.symm.trans herror')]

/-- A controller is one of the things that are checked. -/
theorem Observations.controller_mem_checks (seen : Observations) :
    ⟨seen.controller.isSome, .missingSubsystem (layout.functionDir id) layout.controllerLead⟩ ∈
      seen.checks layout id :=
  List.mem_append_right _ List.mem_cons_self

/-- The path of the streaming DMA node shows neither the error of a search nor that of the name. -/
theorem IdentifiedFunction.fst_streamingDma (reader : Reader) (layout : Layout) (id : String) :
    (streamingDma reader layout id).1 = (PciAddress.parseNumber id).toOption.bind fun number =>
      (reader.found? (layout.functionDir id) layout.dmaLead).map fun _ =>
        layout.streamingDmaPath number := by
  unfold streamingDma Reader.found?
  cases PciAddress.parseNumber id with
  | error e => rfl
  | ok number => rcases reader.find (layout.functionDir id) layout.dmaLead with _ | _ | _ <;> rfl

/-- **Readers that agree on what is asked identify alike**, whatever errors they give. What is told
on the way may differ. -/
theorem result_examine_congr (h : ∀ path, Asked r₁ layout id path → r₁.AgreesAt r₂ path) :
    (examine r₁ layout id).result = (examine r₂ layout id).result := by
  have h₁ := examine_decided r₁ layout id
  have h₂ := examine_decided r₂ layout id
  simp only [← Observations.ofReader_congr h] at h₁ h₂
  refine h₁.unique h₂ fun _ => ?_
  rw [IdentifiedFunction.fst_streamingDma, IdentifiedFunction.fst_streamingDma,
    (h _ .dir).found?_eq]

/-- **Readers that agree on what is asked give and tell the same**, where a search for streaming
DMA comes to an end if the directory could be searched before. -/
theorem examine_congr (h : ∀ path, Asked r₁ layout id path → r₁.AgreesAt r₂ path)
    (hdma : (r₁.found? (layout.functionDir id) layout.controllerLead).isSome →
      (r₁.find (layout.functionDir id) layout.dmaLead).toOption.isSome) :
    examine r₁ layout id = examine r₂ layout id := by
  have hresult := result_examine_congr h
  refine Logged.ext ?_ hresult
  rw [tellsInTheEnd_examine r₁ layout id, tellsInTheEnd_examine r₂ layout id, ← hresult]
  cases hok : (examine r₁ layout id).result with
  | error reason => rfl
  | ok f =>
    -- All checks pass, so that the directory was searched before.
    have hpass := ((identification_decided_by_checks r₁ layout id).1 f).1 hok
    have hcontroller := hpass.1 _ (Observations.controller_mem_checks _)
    rw [IdentifiedFunction.streamingDma_congr ((h _ .dir).find _) (hdma hcontroller)]

end

/-- Visits of functions that are examined alike lead to the same. -/
theorem foldlM_visit_congr {r₁ r₂ : Reader} {layout : Layout} {ids : List String}
    (h : ∀ id ∈ ids, examine r₁ layout id = examine r₂ layout id) (outcome : ScanOutcome) :
    ids.foldlM (ScanOutcome.visit r₁ layout) outcome =
      ids.foldlM (ScanOutcome.visit r₂ layout) outcome := by
  induction ids generalizing outcome with
  | nil => rw [List.foldlM_nil, List.foldlM_nil]
  | cons id rest ih =>
    obtain ⟨hid, hrest⟩ := List.forall_mem_cons.1 h
    have hvisit : ScanOutcome.visit r₁ layout outcome id =
        ScanOutcome.visit r₂ layout outcome id := by
      unfold ScanOutcome.visit
      rw [hid]
    simp only [List.foldlM_cons, hvisit, ih hrest]

/-- **Readers that list the same functions and examine each alike give the same scan**, up to the
error of a listing that fails. -/
theorem scan_congr {r₁ r₂ : Reader} {layout : Layout}
    (hlist : (r₁.list layout.functions).toOption = (r₂.list layout.functions).toOption)
    (hexamine : ∀ ids, r₁.list layout.functions = .ok ids → ∀ id ∈ ids,
      examine r₁ layout id = examine r₂ layout id) :
    (scan r₁ layout).mapError Failure.message = (scan r₂ layout).mapError Failure.message := by
  unfold scan
  revert hlist hexamine
  rcases r₁.list layout.functions with e₁ | ids₁ <;>
    rcases r₂.list layout.functions with e₂ | ids₂ <;> intro hlist hexamine
  · rfl
  · cases hlist
  · cases hlist
  · obtain rfl : ids₁ = ids₂ := Option.some.inj hlist
    have hrun := foldlM_visit_congr (hexamine ids₁ rfl) {}
    exact congrArg (fun run : Logged Failure ScanOutcome => Logged.mapError Failure.message
      (Logged.ofResult (.ok ids₁) >>= fun _ => run >>= fun outcome => do
        Logged.tell outcome.summary
        return outcome)) hrun

end CardInventory
