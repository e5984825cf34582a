import CardInventory.Scan.Outcome
import Mathlib.Data.List.Basic

/-
# When a function gives a node

What becomes of a function is decided by what the reader answers about it, one observation after
the other. `Observations.checks` lists the thirteen checks in their order, each with the reason
that is given when it is the first to fail. Probing and admission make the first five
(`probe_bind_admission`), the identification makes the other eight (`extract_decided`). Put
together, they give a node with the observed values where all pass, and else the reason of the
first that does not. As nothing is told before the last of them, a function that is left out has no
event of its own (`tellsInTheEnd_examine`).
-/

namespace CardInventory

/-! ## Checks -/

/-- A check with the reason to leave a function out that fails it. -/
structure Check where
  passes : Bool
  reason : SkipReason
  deriving DecidableEq, Repr

/-- Makes checks one after the other, up to the first that fails. -/
def verdict : List Check → Except SkipReason Unit
  | [] => .ok ()
  | c :: rest => if c.passes then verdict rest else .error c.reason

theorem verdict_append (first second : List Check) :
    verdict (first ++ second) = verdict first >>= fun () => verdict second := by
  induction first with
  | nil => rfl
  | cons c rest ih =>
    rw [List.cons_append, verdict, verdict, ih]
    split_ifs <;> rfl

/-- A verdict is good when all checks pass. -/
theorem verdict_eq_ok_iff {checks : List Check} :
    verdict checks = .ok () ↔ ∀ c ∈ checks, c.passes = true := by
  induction checks with
  | nil => simp [verdict]
  | cons c rest ih =>
    rw [verdict, List.forall_mem_cons, ← ih]
    cases c.passes <;> simp

/-- A bad verdict has the reason of the first check that fails. -/
theorem verdict_eq_error_iff {checks : List Check} {reason : SkipReason} :
    verdict checks = .error reason ↔ ∃ before c after, checks = before ++ c :: after ∧
      (∀ b ∈ before, b.passes = true) ∧ c.passes = false ∧ c.reason = reason := by
  constructor
  · intro h
    induction checks with
    | nil => simp [verdict] at h
    | cons c rest ih =>
      rw [verdict] at h
      split_ifs at h with hc
      · obtain ⟨before, d, after, rfl, hbefore, hd⟩ := ih h
        exact ⟨c :: before, d, after, rfl, List.forall_mem_cons.2 ⟨hc, hbefore⟩, hd⟩
      · exact ⟨[], c, rest, rfl, List.forall_mem_nil _, Bool.eq_false_iff.2 hc,
          Except.error.inj h⟩
  · rintro ⟨before, c, after, rfl, hbefore, hc, rfl⟩
    rw [verdict_append, verdict_eq_ok_iff.2 hbefore, verdict, hc]
    rfl

/-! ## Letter case -/

/-- Are two characters one letter, large or small? Only ASCII letters come in two cases, the small
one 32 places after the large one. -/
def isSameLetter (c d : Char) : Bool :=
  c == d || (c.isUpper && d.toNat == c.toNat + 32) || (d.isUpper && c.toNat == d.toNat + 32)

theorem isUpper_iff {c : Char} : c.isUpper = true ↔ 65 ≤ c.toNat ∧ c.toNat ≤ 90 :=
  decide_eq_true_iff

theorem toNat_toLower (c : Char) :
    c.toLower.toNat = if c.isUpper then c.toNat + 32 else c.toNat := by
  unfold Char.toLower
  split_ifs with h hupper hupper
  · have hle : c.val.toNat ≤ 90 := h.2
    change (c.val + ('a'.val - 'A'.val)).toNat = c.val.toNat + 32
    rw [UInt32.toNat_add]
    change (c.val.toNat + 32) % 2 ^ 32 = _
    omega
  · exact absurd (isUpper_iff.2 h) hupper
  · exact absurd (isUpper_iff.1 hupper) h
  · rfl

/-- Characters have the same small letter when they are one letter. -/
theorem toLower_beq_toLower (c d : Char) : (c.toLower == d.toLower) = isSameLetter c d := by
  rw [Bool.eq_iff_iff, beq_iff_eq, ← Char.toNat_inj, toNat_toLower, toNat_toLower]
  simp only [isSameLetter, Bool.or_eq_true, Bool.and_eq_true, beq_iff_eq, isUpper_iff,
    ← Char.toNat_inj]
  split_ifs <;> omega

namespace Layout

/-- Texts are compared letter by letter. -/
theorem sameLetters_eq_isEqv (s t : String) :
    sameLetters s t = s.toList.isEqv t.toList isSameLetter := by
  unfold sameLetters
  generalize s.toList = cs
  generalize t.toList = ds
  induction cs generalizing ds with
  | nil => cases ds <;> rfl
  | cons c cs ih =>
    cases ds with
    | nil => rfl
    | cons d ds =>
      rw [List.map_cons, List.map_cons, List.isEqv, ← toLower_beq_toLower, ← ih]
      rfl

/-- **A vendor is accepted when it has the letters of one that is**, large or small. -/
theorem acceptsVendor_eq (layout : Layout) (vendor : String) : layout.acceptsVendor vendor =
    layout.vendors.any fun accepted => accepted.toList.isEqv vendor.toList isSameLetter := by
  simp only [acceptsVendor, sameLetters_eq_isEqv]

end Layout

/-! ## Observations -/

/-- The content of a file, if it can be read. -/
def Reader.content? (reader : Reader) (path : Path) : Option String := (reader.read path).toOption

/-- The first entry of a directory whose name begins with `lead`, if the directory can be listed
and has one. -/
def Reader.found? (reader : Reader) (dir : Path) (lead : String) : Option String :=
  (reader.find dir lead).toOption.join

/-- What a reader answers about a function. Under an entry that is not there nothing is seen. -/
structure Observations where
  vendor : Option String
  management : Bool
  user : Bool
  ready : Option String
  controller : Option String
  serialNumber : Option String
  image : Option String
  shellVersion : Option String
  buildTimestamp : Option String
  deviceId : Option String
  graphics : Option String
  render : Option String

namespace Observations

/-- Asks a reader about a function. -/
def ofReader (reader : Reader) (layout : Layout) (id : String) : Observations :=
  let dir := layout.functionDir id
  let controller := reader.found? dir layout.controllerLead
  let image := reader.found? dir layout.imageLead
  let graphics := reader.found? dir layout.graphicsLead
  { vendor := reader.content? (dir.join layout.vendorFile)
    management := reader.present (dir.join layout.managementMarker)
    user := reader.present (dir.join layout.userMarker)
    ready := reader.content? (dir.join layout.readyFile)
    controller
    serialNumber := controller.bind fun name =>
      reader.content? ((dir.join name).join layout.serialFile)
    image
    shellVersion := image.bind fun name =>
      reader.content? ((dir.join name).join layout.shellVersionFile)
    buildTimestamp := image.bind fun name =>
      reader.content? ((dir.join name).join layout.timestampFile)
    deviceId := reader.content? (dir.join layout.deviceFile)
    graphics
    render := graphics.bind fun name => reader.found? (dir.join name) layout.renderLead }

/-- The checks of vendor, role and readiness. -/
def admissionChecks (layout : Layout) (seen : Observations) : List Check :=
  [⟨seen.vendor.isSome, .vendorUnreadable⟩,
    ⟨seen.vendor.any fun vendor => layout.vendors.any fun accepted =>
        accepted.toList.isEqv vendor.toList isSameLetter,
      .foreignVendor (seen.vendor.getD "")⟩,
    ⟨!seen.management, .management⟩,
    ⟨seen.user, .noRole⟩,
    ⟨seen.ready == some layout.readyValue, .notReady⟩]

/-- The checks of what a node needs. The empty name stands in a path for an entry that is not
there; an earlier check fails then. -/
def identityChecks (layout : Layout) (id : String) (seen : Observations) : List Check :=
  let dir := layout.functionDir id
  let controller := dir.join (seen.controller.getD "")
  let image := dir.join (seen.image.getD "")
  let graphics := dir.join (seen.graphics.getD "")
  [⟨seen.controller.isSome, .missingSubsystem dir layout.controllerLead⟩,
    ⟨seen.serialNumber.isSome, .missingFile (controller.join layout.serialFile)⟩,
    ⟨seen.image.isSome, .missingSubsystem dir layout.imageLead⟩,
    ⟨seen.shellVersion.isSome, .missingFile (image.join layout.shellVersionFile)⟩,
    ⟨seen.buildTimestamp.isSome, .missingFile (image.join layout.timestampFile)⟩,
    ⟨seen.deviceId.isSome, .missingFile (dir.join layout.deviceFile)⟩,
    ⟨seen.graphics.isSome, .missingSubsystem dir layout.graphicsLead⟩,
    ⟨seen.render.isSome, .missingSubsystem graphics layout.renderLead⟩]

/-- All checks in their order. -/
def checks (layout : Layout) (id : String) (seen : Observations) : List Check :=
  seen.admissionChecks layout ++ seen.identityChecks layout id

/-- The function with the observed values, where none of them is missing. -/
def function? (layout : Layout) (id : String) (streamingDmaPath : Option String)
    (seen : Observations) : Option IdentifiedFunction := do
  let serialNumber ← seen.serialNumber
  let shellVersion ← seen.shellVersion
  let buildTimestamp ← seen.buildTimestamp
  let internalDeviceId ← seen.deviceId
  let render ← seen.render
  return {
    identity := { serialNumber, shellVersion, buildTimestamp }
    node := {
      primaryDevicePath := ((Path.mk layout.renderRoot).join render).text
      subdevicePath := layout.subdeviceRoot
      streamingDmaPath
      address := id
      internalDeviceId } }

/-- What a function is given that is not observed of it. -/
theorem of_function?_eq_some {layout : Layout} {id : String} {streamingDmaPath : Option String}
    {seen : Observations} {f : IdentifiedFunction}
    (h : seen.function? layout id streamingDmaPath = some f) :
    f.node.address = id ∧ f.node.streamingDmaPath = streamingDmaPath := by
  simp only [function?, bind, pure, Option.bind_eq_some_iff, Option.some.injEq] at h
  obtain ⟨-, -, -, -, -, -, -, -, -, -, rfl⟩ := h
  exact ⟨rfl, rfl⟩

end Observations

/-! ## The first five checks -/

section
variable (reader : Reader) (layout : Layout) (id : String)

/-- Probing, in terms of what is seen of the vendor. -/
theorem PciFunction.probe_eq : probe reader layout id =
    match reader.content? ((layout.functionDir id).join layout.vendorFile) with
    | none => .error .vendorUnreadable
    | some vendor =>
      if layout.acceptsVendor vendor then
        .ok ⟨id, vendor, roleOf reader layout id,
          roleOf reader layout id = .user && isReady reader layout id⟩
      else .error (.foreignVendor vendor) := by
  unfold probe Reader.content?
  cases reader.read ((layout.functionDir id).join layout.vendorFile) <;> rfl

theorem PciFunction.isReady_eq : isReady reader layout id =
    (reader.content? ((layout.functionDir id).join layout.readyFile) ==
      some layout.readyValue) := by
  unfold isReady Reader.content?
  cases reader.read ((layout.functionDir id).join layout.readyFile) <;> rfl

/-- The markers and the ready file decide on a function of an accepted vendor. -/
theorem PciFunction.admission_roleOf (vendor : String) :
    admission ⟨id, vendor, roleOf reader layout id,
        roleOf reader layout id = .user && isReady reader layout id⟩ =
      verdict [⟨!isManagement reader layout id, .management⟩,
        ⟨isUser reader layout id, .noRole⟩,
        ⟨isReady reader layout id, .notReady⟩] := by
  unfold roleOf admission
  cases isManagement reader layout id
  · cases isUser reader layout id
    · rfl
    · cases isReady reader layout id <;> rfl
  · rfl

/-- **Probing and admission make the first five checks.** -/
theorem PciFunction.probe_bind_admission :
    (probe reader layout id >>= admission) =
      verdict ((Observations.ofReader reader layout id).admissionChecks layout) := by
  have hvendor : (Observations.ofReader reader layout id).vendor =
      reader.content? ((layout.functionDir id).join layout.vendorFile) := rfl
  have hready : (Observations.ofReader reader layout id).ready =
      reader.content? ((layout.functionDir id).join layout.readyFile) := rfl
  have hmanagement : (Observations.ofReader reader layout id).management =
      isManagement reader layout id := rfl
  have huser : (Observations.ofReader reader layout id).user = isUser reader layout id := rfl
  rw [probe_eq, Observations.admissionChecks, hvendor, hready, ← isReady_eq, hmanagement, huser]
  simp only [← Layout.acceptsVendor_eq]
  cases reader.content? ((layout.functionDir id).join layout.vendorFile) with
  | none => rfl
  | some vendor =>
    change (if layout.acceptsVendor vendor then _ else _) >>= admission =
      if layout.acceptsVendor vendor then _ else _
    cases layout.acceptsVendor vendor with
    | false => rfl
    | true => exact admission_roleOf reader layout id vendor

end

/-! ## The other eight checks -/

/-- Checks decide a result: it is the value where all pass, and else the reason of the first that
fails. -/
def Decided {α : Type} (checks : List Check) (value : Option α) (x : Except SkipReason α) : Prop :=
  (verdict checks = .ok () ∧ ∃ a, value = some a ∧ x = .ok a) ∨
    ∃ reason, verdict checks = .error reason ∧ x = .error reason

namespace Decided

variable {α β : Type} {value : Option β} {rest : List Check}

/-- Nothing is left to check. -/
theorem done {b : β} (h : value = some b) : Decided [] value (.ok b) := .inl ⟨rfl, b, h, rfl⟩

/-- One more check in front, of something that may be missing. -/
theorem step {seen : Option α} {reason : SkipReason} {c : Check} {k : α → Logged SkipReason β}
    (hc : c = ⟨seen.isSome, reason⟩) (h : ∀ a, seen = some a → Decided rest value (k a).result) :
    Decided (c :: rest) value (Logged.ofResult (seen.elim (.error reason) .ok) >>= k).result := by
  subst hc
  cases seen with
  | none => exact .inr ⟨reason, rfl, rfl⟩
  | some a => exact h a rfl

/-- A value that is decided is the one expected. -/
theorem eq_some {b : β} (h : Decided rest value (.ok b)) : value = some b := by
  rcases h with ⟨-, b', hvalue, hb⟩ | ⟨reason, -, hb⟩
  · rw [hvalue, Except.ok.inj hb]
  · cases hb

/-- What is made of a result is decided by the same checks. -/
theorem map {x : Except SkipReason β} (f : β → α) (h : Decided rest value x) :
    Decided rest (value.map f) (x.map f) := by
  rcases h with ⟨hok, b, rfl, rfl⟩ | ⟨reason, herror, rfl⟩
  · exact .inl ⟨hok, f b, rfl, rfl⟩
  · exact .inr ⟨reason, herror, rfl⟩

/-- Checks in front of others. -/
theorem append {first : List Check} {x : Except SkipReason β} (h : Decided rest value x) :
    Decided (first ++ rest) value (verdict first >>= fun () => x) := by
  unfold Decided
  rw [verdict_append]
  cases verdict first with
  | ok => exact h
  | error reason => exact .inr ⟨reason, rfl, rfl⟩

end Decided

section
variable (reader : Reader) (layout : Layout) (id : String)

theorem IdentifiedFunction.require_eq (path : Path) :
    require reader path = (reader.content? path).elim (.error (.missingFile path)) .ok := by
  unfold require Reader.content?
  cases reader.read path <;> rfl

theorem IdentifiedFunction.subsystem_eq (dir : Path) (lead : String) :
    subsystem reader dir lead =
      (reader.found? dir lead).elim (.error (.missingSubsystem dir lead)) .ok := by
  unfold subsystem Reader.found?
  rcases reader.find dir lead with _ | _ | _ <;> rfl

/-- **The identification makes the other eight checks.** Each of its steps is one of them; what
it has found so far is what the paths of the later ones are made of. -/
theorem IdentifiedFunction.extract_decided :
    let seen := Observations.ofReader reader layout id
    Decided (seen.identityChecks layout id)
      (seen.function? layout id (streamingDma reader layout id).1)
      (extract reader layout id).result := by
  intro seen
  unfold extract Observations.identityChecks
  simp only [require_eq, subsystem_eq]
  refine .step rfl fun controller hcontroller => ?_
  refine .step ?_ fun serialNumber hserialNumber => ?_
  · simp [seen, Observations.ofReader, hcontroller]
  refine .step rfl fun image himage => ?_
  refine .step ?_ fun shellVersion hshellVersion => ?_
  · simp [seen, Observations.ofReader, himage]
  refine .step ?_ fun buildTimestamp hbuildTimestamp => ?_
  · simp [seen, Observations.ofReader, himage]
  refine .step rfl fun deviceId hdeviceId => ?_
  refine .step rfl fun graphics hgraphics => ?_
  refine .step ?_ fun render hrender => ?_
  · simp [seen, Observations.ofReader, hgraphics]
  refine .done ?_
  simp [seen, Observations.ofReader, Observations.function?, hcontroller, hserialNumber, himage,
    hshellVersion, hbuildTimestamp, hdeviceId, hgraphics, hrender, Layout.renderNodePath]

/-- Examination is probing and admission, then identification. -/
theorem examine_decided :
    let seen := Observations.ofReader reader layout id
    Decided (seen.checks layout id)
      (seen.function? layout id (IdentifiedFunction.streamingDma reader layout id).1)
      (examine reader layout id).result := by
  have hexamine : (examine reader layout id).result =
      ((PciFunction.probe reader layout id >>= PciFunction.admission) >>= fun () =>
        (IdentifiedFunction.extract reader layout id).result) := by
    rw [bind_assoc, examine, Logged.result_bind]
    simp only [Logged.result_bind]
    rfl
  rw [hexamine, PciFunction.probe_bind_admission]
  exact .append (IdentifiedFunction.extract_decided reader layout id)

/-- **The observations decide what becomes of a function.** It is identified exactly when all
thirteen checks pass, and then has the observed values; else the reason is that of the first check
that fails. -/
theorem identification_decided_by_checks :
    (∀ f, (examine reader layout id).result = .ok f ↔
      (∀ c ∈ (Observations.ofReader reader layout id).checks layout id, c.passes = true) ∧
        (Observations.ofReader reader layout id).function? layout id
          (IdentifiedFunction.streamingDma reader layout id).1 = some f) ∧
    ∀ reason, (examine reader layout id).result = .error reason ↔
      ∃ before c after, (Observations.ofReader reader layout id).checks layout id =
          before ++ c :: after ∧
        (∀ b ∈ before, b.passes = true) ∧ c.passes = false ∧ c.reason = reason := by
  have hdecided := examine_decided reader layout id
  simp only at hdecided
  rw [← verdict_eq_ok_iff]
  simp only [← verdict_eq_error_iff]
  rcases hdecided with ⟨hok, f, hf, hresult⟩ | ⟨reason, herror, hresult⟩
  · simp [hok, hresult, hf]
  · simp [herror, hresult]

end

/-! ## What is told before a failure -/

/-- Events are told where a run succeeds, and nothing where it fails. -/
def Logged.TellsInTheEnd {ε α : Type} (told : List Event) (x : Logged ε α) : Prop :=
  x.events = match x.result with
    | .ok _ => told
    | .error _ => []

namespace Logged.TellsInTheEnd

variable {ε α β : Type} {told : List Event}

/-- A step that tells nothing may come before. -/
theorem bind {x : Except ε α} {k : α → Logged ε β} (h : ∀ a, TellsInTheEnd told (k a)) :
    TellsInTheEnd told (Logged.ofResult x >>= k) := by
  cases x with
  | error e => rfl
  | ok a => exact h a

/-- Events may come with a value that the run ends with. -/
theorem done (a : α) (k : α → β) :
    TellsInTheEnd told (Logged.ofTold (a, told) >>= fun a => (pure (k a) : Logged ε β)) :=
  List.append_nil told

end Logged.TellsInTheEnd

section
variable (reader : Reader) (layout : Layout) (id : String)

/-- **No step of the identification fails after the search for streaming DMA**, and nothing is told
before it. -/
theorem IdentifiedFunction.tellsInTheEnd_extract :
    (extract reader layout id).TellsInTheEnd (streamingDma reader layout id).2 := by
  unfold extract
  refine .bind fun controller => .bind fun serialNumber => .bind fun image => ?_
  refine .bind fun shellVersion => .bind fun buildTimestamp => .bind fun deviceId => ?_
  exact .bind fun graphics => .bind fun render => .done _ _

/-- Nor does the examination. -/
theorem tellsInTheEnd_examine :
    (examine reader layout id).TellsInTheEnd (IdentifiedFunction.streamingDma reader layout id).2 :=
  .bind fun _ => .bind fun _ => IdentifiedFunction.tellsInTheEnd_extract reader layout id

end

end CardInventory
