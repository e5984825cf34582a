import CardInventory.Proofs.Scan.Agreement
import CardInventory.Proofs.Scan.UnitIds

/-
# Streaming DMA is no condition for anything

The search for streaming DMA comes last in the examination of a function, and all that its result
goes into is one path of the node. So a search that finds something, finds nothing or fails, for
each function as it may be, gives the same cards but for these paths, and leaves the same functions
out. A node has the path exactly where the name of the function is an address and the search found
something, and the path is then known from the address alone
(`IdentifiedFunction.fst_streamingDma_eq_some_iff`).
-/

namespace CardInventory

/-! ## Nodes without the path -/

/-- The node without its streaming DMA node. -/
def Node.withoutStreamingDma (node : Node) : Node := { node with streamingDmaPath := none }

/-- All else of a function is observed. -/
theorem Observations.map_mapNode_function? (layout : Layout) (id : String)
    (streamingDmaPath : Option String) (seen : Observations) :
    (seen.function? layout id streamingDmaPath).map
        (IdentifiedFunction.mapNode Node.withoutStreamingDma) =
      seen.function? layout id none := by
  simp only [function?, bind, pure, Option.map_bind, Function.comp_def, Option.map_some]
  rfl

/-- What a node needs is looked for under these beginnings of names. -/
def Layout.requiredLeads (layout : Layout) : List String :=
  [layout.controllerLead, layout.imageLead, layout.graphicsLead, layout.renderLead]

section
variable {r₁ r₂ : Reader} {layout : Layout} {id : String}

/-- What is observed of a function does not depend on other searches. -/
theorem Observations.ofReader_eq_of_requiredLeads (hread : r₁.read = r₂.read)
    (hpresent : r₁.present = r₂.present)
    (hfind : ∀ dir, ∀ lead ∈ layout.requiredLeads, r₁.find dir lead = r₂.find dir lead) :
    ofReader r₁ layout id = ofReader r₂ layout id := by
  have hcontent : r₁.content? = r₂.content? := by
    funext path
    rw [Reader.content?, Reader.content?, hread]
  have hfound : ∀ dir, ∀ lead ∈ layout.requiredLeads, r₁.found? dir lead = r₂.found? dir lead := by
    intro dir lead hlead
    rw [Reader.found?, Reader.found?, hfind dir lead hlead]
  simp only [Layout.requiredLeads, List.forall_mem_cons] at hfound
  have hcontroller := fun dir => (hfound dir).1
  have himage := fun dir => (hfound dir).2.1
  have hgraphics := fun dir => (hfound dir).2.2.1
  have hrender := fun dir => (hfound dir).2.2.2.1
  simp only [ofReader, hcontent, hpresent, hcontroller, himage, hgraphics, hrender]

/-- **What is found of a function shows the search for streaming DMA in one path only.** -/
theorem map_result_examine_eq
    (h : Observations.ofReader r₁ layout id = Observations.ofReader r₂ layout id) :
    (examine r₁ layout id).result.map
        (IdentifiedFunction.mapNode Node.withoutStreamingDma) =
      (examine r₂ layout id).result.map
        (IdentifiedFunction.mapNode Node.withoutStreamingDma) := by
  have h₁ := (examine_decided r₁ layout id).map
    (IdentifiedFunction.mapNode Node.withoutStreamingDma)
  have h₂ := (examine_decided r₂ layout id).map
    (IdentifiedFunction.mapNode Node.withoutStreamingDma)
  rw [Observations.map_mapNode_function?] at h₁ h₂
  rw [h] at h₁
  exact h₁.unique h₂ fun _ => rfl

end

/-! ## Where there is a path -/

section
variable (reader : Reader) (layout : Layout)

/-- **There is a streaming DMA node where the name is an address and the search finds something.**
Its path is made of the instance number. -/
theorem IdentifiedFunction.fst_streamingDma_eq_some_iff {id path : String} :
    (streamingDma reader layout id).1 = some path ↔
      ∃ a name, PciAddress.parse id = .ok a ∧
        reader.find (layout.functionDir id) layout.dmaLead = .ok (some name) ∧
        path =
          ((Path.mk layout.subdeviceRoot).join (layout.dmaLead ++ toString a.number)).text := by
  unfold streamingDma PciAddress.parseNumber
  cases PciAddress.parse id with
  | error e => simp [Except.map]
  | ok a =>
    rcases reader.find (layout.functionDir id) layout.dmaLead with _ | _ | _ <;>
      simp [Except.map, Layout.streamingDmaPath, eq_comm]

/-- The node of a function has the path that the search gives. -/
theorem streamingDmaPath_of_examine {id : String} {f : IdentifiedFunction}
    (h : (examine reader layout id).result = .ok f) :
    f.node.streamingDmaPath = (IdentifiedFunction.streamingDma reader layout id).1 := by
  have hdecided := examine_decided reader layout id
  simp only [h] at hdecided
  exact (Observations.of_function?_eq_some hdecided.eq_some).2

end

/-- **The search for streaming DMA shows in the paths of streaming DMA nodes and nowhere else.** Two
readers answer alike, but for searches under the beginning of streaming DMA names, under which
nothing else is looked for. Then both scans fail with the error of the listing, or both have
outcomes with the same functions left out and, but for these paths, the same cards. And in each scan
a node has such a path exactly where its address is one and the search in the directory of the
function finds something; it is the path of the instance number then. -/
theorem streamingDma_shows_in_paths_only (layout : Layout)
    (hcontroller : layout.dmaLead ≠ layout.controllerLead)
    (himage : layout.dmaLead ≠ layout.imageLead)
    (hgraphics : layout.dmaLead ≠ layout.graphicsLead)
    (hrender : layout.dmaLead ≠ layout.renderLead) :
    (∀ r₁ r₂ : Reader, r₁.read = r₂.read → r₁.list = r₂.list → r₁.present = r₂.present →
      (∀ dir lead, lead ≠ layout.dmaLead → r₁.find dir lead = r₂.find dir lead) →
      (∃ e, (scan r₁ layout).result = .error e ∧ (scan r₂ layout).result = .error e) ∨
        ∃ outcome₁ outcome₂, (scan r₁ layout).result = .ok outcome₁ ∧
          (scan r₂ layout).result = .ok outcome₂ ∧
          outcome₁.skipped = outcome₂.skipped ∧
          outcome₁.devices.mapNodes Node.withoutStreamingDma =
            outcome₂.devices.mapNodes Node.withoutStreamingDma) ∧
    ∀ reader outcome, (scan reader layout).result = .ok outcome →
      ∀ device ∈ outcome.devices.values, ∀ node ∈ device.nodes, ∀ path,
        node.streamingDmaPath = some path ↔
          ∃ a name, PciAddress.parse node.address = .ok a ∧
            reader.find (layout.functionDir node.address) layout.dmaLead = .ok (some name) ∧
            path = ((Path.mk layout.subdeviceRoot).join
              (layout.dmaLead ++ toString a.number)).text := by
  constructor
  · intro r₁ r₂ hread hlist hpresent hfind
    have hleads : ∀ lead ∈ layout.requiredLeads, lead ≠ layout.dmaLead := by
      simp only [Layout.requiredLeads, List.forall_mem_cons]
      exact ⟨hcontroller.symm, himage.symm, hgraphics.symm, hrender.symm, List.forall_mem_nil _⟩
    have hidentification : ∀ id, (examine r₁ layout id).result.map
        (IdentifiedFunction.mapNode Node.withoutStreamingDma) =
          (examine r₂ layout id).result.map
            (IdentifiedFunction.mapNode Node.withoutStreamingDma) := by
      intro id
      refine map_result_examine_eq
        (Observations.ofReader_eq_of_requiredLeads hread hpresent ?_)
      exact fun dir lead hlead => hfind dir lead (hleads lead hlead)
    cases h₁ : r₁.list layout.functions with
    | error e =>
      have h₂ : r₂.list layout.functions = .error e := hlist ▸ h₁
      exact .inl ⟨_, (scan_eq_error_iff r₁ layout).2 ⟨e, h₁, rfl⟩,
        (scan_eq_error_iff r₂ layout).2 ⟨e, h₂, rfl⟩⟩
    | ok ids =>
      have h₂ : r₂.list layout.functions = .ok ids := hlist ▸ h₁
      obtain ⟨hidentified, hleftOut⟩ := gathered_eq_of_map ids _ hidentification
      refine .inr ⟨_, _, scan_of_list r₁ layout h₁, scan_of_list r₂ layout h₂, ?_, ?_⟩
      · rw [skipped_ofListed, skipped_ofListed, hleftOut]
      · rw [devices_ofListed, devices_ofListed, DeviceMap.mapNodes_foldl_addFunction,
          DeviceMap.mapNodes_foldl_addFunction, hidentified]
  · intro reader outcome hscan device hdevice node hnode path
    obtain ⟨ids, -, rfl⟩ := exists_list_of_scan reader layout hscan
    obtain ⟨id, -, f, hok, rfl⟩ := exists_of_mem_nodes reader layout hdevice hnode
    rw [streamingDmaPath_of_examine reader layout hok,
      address_of_examine reader layout hok]
    exact IdentifiedFunction.fst_streamingDma_eq_some_iff reader layout

/-- Two functions of one card, only one of them named by an address, with streaming DMA. -/
def sampleStreaming : Reader := .ofCardFunctions "S" ["0:3:0.1", "misc"]

/-- The same functions where streaming DMA cannot be looked for. -/
def sampleUnsought : Reader := sampleStreaming.denying { leads := ["dma.qdma.u"] }

/-- In the first scan of the sample the function with an address has a streaming DMA node, in the
second none has, and all else is the same. -/
theorem streamingDma_shows_in_paths_only_sample :
    ∃ outcome₁ outcome₂, (scan sampleStreaming (.withRoot "/d")).result = .ok outcome₁ ∧
      (scan sampleUnsought (.withRoot "/d")).result = .ok outcome₂ ∧
      outcome₁.skipped = outcome₂.skipped ∧
      outcome₁.devices.mapNodes Node.withoutStreamingDma =
        outcome₂.devices.mapNodes Node.withoutStreamingDma ∧
      (outcome₁.devices.values.flatMap Device.nodes).map Node.streamingDmaPath =
        [some "/dev/xfpga/dma.qdma.u769", none] ∧
      ∀ device ∈ outcome₂.devices.values, ∀ node ∈ device.nodes, node.streamingDmaPath = none := by
  have hpaths : (scan sampleStreaming (.withRoot "/d")).result.toOption.map (fun outcome =>
      (outcome.devices.values.flatMap Device.nodes).map Node.streamingDmaPath) =
        some [some "/dev/xfpga/dma.qdma.u769", none] := by decide +kernel
  have hfind : ∀ dir lead, lead ≠ "dma.qdma.u" →
      sampleStreaming.find dir lead = sampleUnsought.find dir lead := by
    intro dir lead hlead
    simp [sampleUnsought, Reader.denying, hlead]
  obtain ⟨hscans, hiff⟩ := streamingDma_shows_in_paths_only (.withRoot "/d")
    (by decide) (by decide) (by decide) (by decide)
  rcases hscans sampleStreaming sampleUnsought (by simp [sampleUnsought, Reader.denying])
      (by simp [sampleUnsought, Reader.denying]) rfl hfind with
    ⟨e, hscan, -⟩ | ⟨outcome₁, outcome₂, hscan₁, hscan₂, hskipped, hdevices⟩
  · obtain ⟨e, hlist, -⟩ := (scan_eq_error_iff _ _).1 hscan
    cases hlist
  · rw [hscan₁] at hpaths
    refine ⟨outcome₁, outcome₂, hscan₁, hscan₂, hskipped, hdevices, Option.some.inj hpaths, ?_⟩
    intro device hdevice node hnode
    refine Option.eq_none_iff_forall_ne_some.2 fun path hpath => ?_
    obtain ⟨a, name, -, hfound, -⟩ :=
      (hiff sampleUnsought outcome₂ hscan₂ device hdevice node hnode path).1 hpath
    simp [sampleUnsought, Reader.denying, Layout.withRoot] at hfound

end CardInventory
