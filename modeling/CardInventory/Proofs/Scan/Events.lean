import CardInventory.Proofs.Scan.Grouping

/-
# What a scan tells

The events of a scan account for its listing. Each listed function has its own, in the order of the
listing, and a summary comes last (`events_account_for_listing`). A function that is left out is
told of once, and with a warning exactly when nothing routine keeps it back: its vendor, its role
and its readiness are as they should be, and its files are not
(`isRoutine_eq_false_iff`). A function that gives a node is told of only where streaming DMA
could not be looked for. An event that was told is not taken back when a later step fails; that no
function is told of twice is due to the search, after which no step fails
(`IdentifiedFunction.tellsInTheEnd_extract`).
-/

namespace CardInventory

/-! ## Routine reasons -/

/-- A function of an accepted vendor, for users and not for management, that is ready. -/
structure Reader.ShowsUsable (reader : Reader) (layout : Layout) (id : String) : Prop where
  vendor : ∃ vendor,
    reader.read ((layout.functionDir id).join layout.vendorFile) = .ok vendor ∧
      layout.acceptsVendor vendor = true
  management : reader.present ((layout.functionDir id).join layout.managementMarker) = false
  user : reader.present ((layout.functionDir id).join layout.userMarker) = true
  ready : reader.read ((layout.functionDir id).join layout.readyFile) = .ok layout.readyValue

section
variable (reader : Reader) (layout : Layout) {id : String}

/-- The checks of vendor, role and readiness pass for usable functions. -/
theorem verdict_admissionChecks_eq_ok_iff :
    verdict ((Observations.ofReader reader layout id).admissionChecks layout) = .ok () ↔
      reader.ShowsUsable layout id := by
  have hvendor : ∀ content : Option String,
      (content.isSome = true ∧ content.any layout.acceptsVendor = true) ↔
      ∃ vendor, content = some vendor ∧ layout.acceptsVendor vendor = true := fun content => by
    cases content <;> simp
  simp only [verdict_eq_ok_iff, Observations.admissionChecks, List.forall_mem_cons,
    Observations.ofReader, ← Layout.acceptsVendor_eq, ← and_assoc, hvendor, Reader.content?,
    toOption_eq_some_iff, Bool.not_eq_true', beq_iff_eq]
  constructor
  · rintro ⟨⟨⟨⟨hvendor, hmanagement⟩, huser⟩, hready⟩, -⟩
    exact ⟨hvendor, hmanagement, huser, hready⟩
  · rintro ⟨hvendor, hmanagement, huser, hready⟩
    exact ⟨⟨⟨⟨hvendor, hmanagement⟩, huser⟩, hready⟩, List.forall_mem_nil _⟩

/-- A bad verdict has the reason of one of the checks. -/
theorem exists_mem_of_verdict_eq_error {checks : List Check} {reason : SkipReason}
    (h : verdict checks = .error reason) : ∃ c ∈ checks, c.reason = reason := by
  obtain ⟨before, c, after, rfl, -, -, hreason⟩ := verdict_eq_error_iff.1 h
  exact ⟨c, by simp, hreason⟩

/-- To fail one of the first five checks is routine. -/
theorem Observations.isRoutine_of_mem_admissionChecks {seen : Observations} {c : Check}
    (h : c ∈ seen.admissionChecks layout) : c.reason.isRoutine = true := by
  revert c
  simp [admissionChecks, SkipReason.isRoutine]

/-- To fail one of the others is not. -/
theorem Observations.isRoutine_of_mem_identityChecks {seen : Observations} {c : Check}
    (h : c ∈ seen.identityChecks layout id) : c.reason.isRoutine = false := by
  revert c
  simp [identityChecks, SkipReason.isRoutine]

/-- **Nothing routine keeps back a usable function, and only something routine any other.** -/
theorem isRoutine_eq_false_iff {reason : SkipReason}
    (h : (examine reader layout id).result = .error reason) :
    reason.isRoutine = false ↔ reader.ShowsUsable layout id := by
  have hverdict : verdict ((Observations.ofReader reader layout id).checks layout id) =
      .error reason := by
    rcases examine_decided reader layout id with
      ⟨-, f, -, hok⟩ | ⟨reason', herror, hreason⟩
    · rw [h] at hok
      cases hok
    · rw [herror, Except.error.inj (hreason.symm.trans h)]
  rw [Observations.checks, verdict_append] at hverdict
  rw [← verdict_admissionChecks_eq_ok_iff]
  cases hadmission : verdict ((Observations.ofReader reader layout id).admissionChecks layout) with
  | ok =>
    rw [hadmission] at hverdict
    obtain ⟨c, hc, rfl⟩ := exists_mem_of_verdict_eq_error hverdict
    exact iff_of_true (Observations.isRoutine_of_mem_identityChecks layout hc) rfl
  | error first =>
    rw [hadmission] at hverdict
    obtain rfl := Except.error.inj hverdict
    obtain ⟨c, hc, rfl⟩ := exists_mem_of_verdict_eq_error hadmission
    have hroutine := Observations.isRoutine_of_mem_admissionChecks layout hc
    simp [hroutine]

/-! ## One function -/

/-- What accounts for a function. -/
structure AccountFor (id : String) (events : List Event) : Prop where
  /-- Of a function that gives a node only a search for streaming DMA is told that was not made. -/
  identified : ∀ f, (examine reader layout id).result = .ok f →
    (∀ event ∈ events, event.level = .debug) ∧
      (∀ e, PciAddress.parse id = .error e → events = [.dmaNotSought id e]) ∧
      ∀ a, PciAddress.parse id = .ok a →
        (∀ e, reader.find (layout.functionDir id) layout.dmaLead = .error e →
          events = [.dmaUnreadable id e]) ∧
        ∀ found, reader.find (layout.functionDir id) layout.dmaLead = .ok found → events = []
  /-- Of a function that is left out its reason is told, with a warning if it is usable. -/
  leftOut : ∀ reason, (examine reader layout id).result = .error reason →
    ∃ event, events = [event] ∧ event = .skipped id reason ∧
      event.fields = [("pci_id", .text id), ("reason", .text reason.message)] ∧
      (event.level = .warn ↔ reader.ShowsUsable layout id) ∧
      (event.level = .debug ↔ ¬ reader.ShowsUsable layout id)

/-- **What is told of a function accounts for it.** -/
theorem accountFor_eventsOf (id : String) :
    AccountFor reader layout id (eventsOf reader layout id) where
  identified f hf := by
    rw [eventsOf_of_ok reader layout hf]
    unfold IdentifiedFunction.streamingDma PciAddress.parseNumber
    cases PciAddress.parse id with
    | error e => simp [Except.map, Event.level]
    | ok a =>
      rcases reader.find (layout.functionDir id) layout.dmaLead with _ | _ | _ <;>
        simp [Except.map, Event.level]
  leftOut reason hreason := by
    have hroutine := isRoutine_eq_false_iff reader layout hreason
    refine ⟨_, eventsOf_of_error reader layout hreason, rfl, rfl, ?_, ?_⟩
    · rw [← hroutine, Event.level]
      cases reason.isRoutine <;> simp
    · rw [← hroutine, Event.level]
      cases reason.isRoutine <;> simp

/-- No account is the summary of a scan. -/
theorem AccountFor.level_ne_info {events : List Event} (h : AccountFor reader layout id events) :
    ∀ event ∈ events, event.level ≠ .info := by
  intro event hevent
  cases hresult : (examine reader layout id).result with
  | ok f => simp [(h.identified f hresult).1 event hevent]
  | error reason =>
    obtain ⟨event', rfl, -, -, hwarn, hdebug⟩ := h.leftOut reason hresult
    rw [List.mem_singleton.1 hevent]
    by_cases husable : reader.ShowsUsable layout id
    · simp [hwarn.2 husable]
    · simp [hdebug.2 husable]

/-! ## A scan -/

/-- Does an event tell of hardware of others that is left out? -/
def Event.isForeignSkip : Event → Bool
  | skipped _ .vendorUnreadable => true
  | skipped _ (.foreignVendor _) => true
  | _ => false

/-- Hardware of others is told of once, and nothing else in that way. -/
theorem countP_isForeignSkip_eventsOf (id : String) :
    (eventsOf reader layout id).countP Event.isForeignSkip =
      if isForeignResult (examine reader layout id).result then 1 else 0 := by
  cases hresult : (examine reader layout id).result with
  | ok f =>
    rw [eventsOf_of_ok reader layout hresult]
    unfold IdentifiedFunction.streamingDma
    cases PciAddress.parseNumber id with
    | error e => rfl
    | ok number => rcases reader.find (layout.functionDir id) layout.dmaLead with _ | _ | _ <;> rfl
  | error reason =>
    rw [eventsOf_of_error reader layout hresult]
    cases reason <;> rfl

/-- So there are as many such events as functions with hardware of others. -/
theorem countP_isForeignSkip_flatMap (ids : List String) :
    (ids.flatMap (eventsOf reader layout)).countP Event.isForeignSkip =
      ids.countP fun id => isForeignResult (examine reader layout id).result := by
  induction ids with
  | nil => rfl
  | cons id rest ih =>
    rw [List.flatMap_cons, List.countP_append, List.countP_cons, ih,
      countP_isForeignSkip_eventsOf, Nat.add_comm]

/-- **The events of a scan account for what it lists.** A listing that fails leaves nothing to tell.
Else each function has its own events, in the order of the listing, and a summary comes last, the
only event of its level: how many cards and nodes there are and how many functions were left out.
With the events of hardware of others these numbers make up the listing. -/
theorem events_account_for_listing :
    (∀ e, reader.list layout.functions = .error e → (scan reader layout).events = []) ∧
    ∀ ids, reader.list layout.functions = .ok ids →
      ∃ outcome accounts, (scan reader layout).result = .ok outcome ∧
        List.Forall₂ (AccountFor reader layout) ids accounts ∧
        (∃ summary, (scan reader layout).events = accounts.flatten ++ [summary] ∧
          summary.level = .info ∧ (∀ event ∈ accounts.flatten, event.level ≠ .info) ∧
          summary = .scanComplete outcome.devices.size outcome.devices.nodeCount
            outcome.skipped.length ∧
          summary.fields = [("cards", .count outcome.devices.size),
            ("nodes", .count outcome.devices.nodeCount),
            ("skipped", .count outcome.skipped.length)]) ∧
        ids.length = outcome.devices.nodeCount + outcome.skipped.length +
          (scan reader layout).events.countP Event.isForeignSkip := by
  refine ⟨fun e hlist => ?_, fun ids hlist => ?_⟩
  · rw [scan_eq_of_list_error reader layout hlist]
  · let accounts := ids.map (eventsOf reader layout)
    have hevents : (scan reader layout).events =
        accounts.flatten ++ [(ScanOutcome.ofListed reader layout ids).summary] := by
      rw [scan_eq_of_list reader layout hlist, List.flatMap_def]
    have haccounts : List.Forall₂ (AccountFor reader layout) ids accounts :=
      List.forall₂_map_right_iff.2
        (List.forall₂_same.2 fun id _ => accountFor_eventsOf reader layout id)
    have hlevel : ∀ event ∈ accounts.flatten, event.level ≠ .info := by
      intro event hevent
      obtain ⟨events, hmem, hevent⟩ := List.mem_flatten.1 hevent
      obtain ⟨id, -, rfl⟩ := List.mem_map.1 hmem
      exact AccountFor.level_ne_info reader layout (accountFor_eventsOf reader layout id) event
        hevent
    refine ⟨_, accounts, scan_of_list reader layout hlist, haccounts,
      ⟨_, hevents, rfl, hlevel, rfl, rfl⟩, ?_⟩
    have hforeign : (scan reader layout).events.countP Event.isForeignSkip =
        ids.countP fun id => isForeignResult (examine reader layout id).result := by
      rw [hevents, List.countP_append, ← countP_isForeignSkip_flatMap, List.flatMap_def]
      rfl
    rw [hforeign, devices_ofListed, DeviceMap.nodeCount_foldl_addFunction, skipped_ofListed,
      length_listing]

end

/-- A card function that is no address, one without its files, hardware of others, and a function
without a role. -/
def sampleAccounts : MemoryTree :=
  [("b/vendor", "0x10ee"), ("b/user_pf", ""), ("b/ready", "0x1"), ("c/vendor", "0x8086"),
    ("d/vendor", "0x10ee")].foldl (fun tree e => tree.addFile ((Path.mk "/d").join e.1) e.2)
      (({} : MemoryTree).addCardFunction ⟨"/d/a"⟩ "S" "v")

/-- Of the functions of the sample one is a node and two are left out, so that one event tells of
hardware of others. Of an empty tree nothing is told. -/
theorem events_account_for_listing_sample :
    sampleAccounts.reader.list ⟨"/d"⟩ = .ok ["a", "b", "c", "d"] ∧
      (∃ outcome, (scan sampleAccounts.reader (.withRoot "/d")).result = .ok outcome ∧
        outcome.devices.nodeCount = 1 ∧ outcome.skipped.length = 2) ∧
      (scan sampleAccounts.reader (.withRoot "/d")).events.map Event.level =
        [.debug, .warn, .debug, .debug, .info] ∧
      (scan sampleAccounts.reader (.withRoot "/d")).events.countP Event.isForeignSkip = 1 ∧
      (scan ({} : MemoryTree).reader (.withRoot "/d")).events = [] := by
  have hlist : sampleAccounts.reader.list ⟨"/d"⟩ = .ok ["a", "b", "c", "d"] := by decide +kernel
  have hfound : (scan sampleAccounts.reader (.withRoot "/d")).result.toOption.map (fun outcome =>
      (outcome.devices.nodeCount, outcome.skipped.length)) = some (1, 2) := by decide +kernel
  have hlevels : (scan sampleAccounts.reader (.withRoot "/d")).events.map Event.level =
      [.debug, .warn, .debug, .debug, .info] := by decide +kernel
  obtain ⟨outcome, accounts, hscan, -, -, hlength⟩ :=
    (events_account_for_listing sampleAccounts.reader (.withRoot "/d")).2 _ hlist
  rw [hscan] at hfound
  obtain ⟨hnodes, hskipped⟩ := Prod.mk.inj (Option.some.inj hfound)
  rw [hnodes, hskipped] at hlength
  refine ⟨hlist, ⟨outcome, hscan, hnodes, hskipped⟩, hlevels, ?_, ?_⟩
  · simp only [List.length_cons, List.length_nil] at hlength
    omega
  · exact (events_account_for_listing ({} : MemoryTree).reader (.withRoot "/d")).1 _ rfl

end CardInventory
