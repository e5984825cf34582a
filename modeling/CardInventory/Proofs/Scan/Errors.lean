import CardInventory.Failure
import CardInventory.Proofs.Scan.Agreement
import CardInventory.Proofs.Scan.Grouping

/-
# Errors of readers

A scan meets errors at every question that it asks. Only the one of the listing ends it
(`scan_eq_error_iff`); all others leave a function out or cost it its streaming DMA node, and which
error it was shows in the events alone. So readers that refuse the same questions find the same,
for whatever reasons they refuse (`Reader.AnswersAlike.scan_cases`).
-/

namespace CardInventory

/-- Two readers answer the same questions and refuse the same, but the errors may differ. -/
structure Reader.AnswersAlike (r₁ r₂ : Reader) : Prop where
  read : ∀ path, (r₁.read path).toOption = (r₂.read path).toOption
  list : ∀ path, (r₁.list path).toOption = (r₂.list path).toOption
  present : ∀ path, r₁.present path = r₂.present path
  find : ∀ dir lead, (r₁.find dir lead).toOption = (r₂.find dir lead).toOption

namespace Reader.AnswersAlike

variable {r₁ r₂ : Reader}

theorem agreesAt (h : r₁.AnswersAlike r₂) (path : Path) : r₁.AgreesAt r₂ path where
  read := h.read path
  present := h.present path
  find := h.find path

/-- **Readers that answer alike find the same**, or both cannot list the functions. -/
theorem scan_cases (h : r₁.AnswersAlike r₂) (layout : Layout) :
    (∃ e₁ e₂, (scan r₁ layout).result = .error (.listFunctions layout.functions e₁) ∧
        (scan r₂ layout).result = .error (.listFunctions layout.functions e₂)) ∨
      ∃ outcome₁ outcome₂, (scan r₁ layout).result = .ok outcome₁ ∧
        (scan r₂ layout).result = .ok outcome₂ ∧
        outcome₁.devices = outcome₂.devices ∧ outcome₁.skipped = outcome₂.skipped := by
  have hlist := h.list layout.functions
  cases h₁ : r₁.list layout.functions with
  | error e₁ =>
    cases h₂ : r₂.list layout.functions with
    | error e₂ =>
      exact .inl ⟨e₁, e₂, (scan_eq_error_iff r₁ layout).2 ⟨e₁, h₁, rfl⟩,
        (scan_eq_error_iff r₂ layout).2 ⟨e₂, h₂, rfl⟩⟩
    | ok ids =>
      rw [h₁, h₂] at hlist
      cases hlist
  | ok ids =>
    rw [h₁] at hlist
    have h₂ : r₂.list layout.functions = .ok ids := toOption_eq_some_iff.1 hlist.symm
    obtain ⟨hidentified, hleftOut⟩ := gathered_eq layout fun id (_ : id ∈ ids) =>
      result_examine_congr fun path _ => h.agreesAt path
    refine .inr ⟨_, _, scan_of_list r₁ layout h₁, scan_of_list r₂ layout h₂, ?_, ?_⟩
    · rw [devices_ofListed, devices_ofListed, hidentified]
    · rw [skipped_ofListed, skipped_ofListed, hleftOut]

end Reader.AnswersAlike

/-- **Only a directory of functions that cannot be listed ends a scan, and no outcome depends on
which error occurred.** A scan fails exactly when the listing does, whatever else is refused. Where
two readers answer the same questions and refuse the same, both scans fail with the same message on
top, which names the directory; or both have outcomes with the same cards and the same functions
left out. -/
theorem only_listing_ends_scan (layout : Layout) :
    (∀ reader, (∃ failure, (scan reader layout).result = .error failure) ↔
      ∃ e, reader.list layout.functions = .error e) ∧
    ∀ r₁ r₂ : Reader, r₁.AnswersAlike r₂ →
      (∃ failure₁ failure₂, (scan r₁ layout).result = .error failure₁ ∧
        (scan r₂ layout).result = .error failure₂ ∧ failure₁.message = failure₂.message ∧
        failure₁.message = "read " ++ layout.functions.text) ∨
      ∃ outcome₁ outcome₂, (scan r₁ layout).result = .ok outcome₁ ∧
        (scan r₂ layout).result = .ok outcome₂ ∧
        outcome₁.devices = outcome₂.devices ∧ outcome₁.skipped = outcome₂.skipped := by
  refine ⟨fun reader => ?_, fun r₁ r₂ h => ?_⟩
  · constructor
    · rintro ⟨failure, hscan⟩
      obtain ⟨e, hlist, -⟩ := (scan_eq_error_iff reader layout).1 hscan
      exact ⟨e, hlist⟩
    · rintro ⟨e, hlist⟩
      exact ⟨_, (scan_eq_error_iff reader layout).2 ⟨e, hlist, rfl⟩⟩
  · rcases h.scan_cases layout with ⟨e₁, e₂, h₁, h₂⟩ | houtcomes
    · exact .inl ⟨_, _, h₁, h₂, rfl, rfl⟩
    · exact .inr houtcomes

/-- The reader with one error for all that it refuses. -/
def Reader.withError (e : FileError) (r : Reader) : Reader where
  read path := (r.read path).mapError fun _ => e
  list path := (r.list path).mapError fun _ => e
  present := r.present
  find dir lead := (r.find dir lead).mapError fun _ => e

theorem Reader.answersAlike_withError (e : FileError) (r : Reader) :
    r.AnswersAlike (r.withError e) where
  read _ := (toOption_mapError ..).symm
  list _ := (toOption_mapError ..).symm
  present _ := rfl
  find _ _ := (toOption_mapError ..).symm

/-- Two functions of one card. A file of the second is refused, and every search for streaming
DMA. -/
def sampleRefusals : Reader :=
  (Reader.ofCardFunctions "S" ["0:3:0.1", "0:3:0.2"]).denying
    { reads := ["/d/0:3:0.2/device"], leads := ["dma.qdma.u"] }

/-- With another error for the refusals the same card is found, and the second function is left out
as before. -/
theorem only_listing_ends_scan_sample :
    ∃ outcome₁ outcome₂, (scan sampleRefusals (.withRoot "/d")).result = .ok outcome₁ ∧
      (scan (sampleRefusals.withError .linkLoop) (.withRoot "/d")).result = .ok outcome₂ ∧
      outcome₁.devices = outcome₂.devices ∧ outcome₁.skipped = outcome₂.skipped ∧
      outcome₂.devices.keys = ["S"] ∧
      outcome₂.skipped = [⟨"0:3:0.2", .missingFile ⟨"/d/0:3:0.2/device"⟩⟩] := by
  have hfound : (scan sampleRefusals (.withRoot "/d")).result.toOption.map
      (fun outcome => (outcome.devices.keys, outcome.skipped)) =
        some (["S"], [⟨"0:3:0.2", .missingFile ⟨"/d/0:3:0.2/device"⟩⟩]) := by decide +kernel
  obtain ⟨hfails, halike⟩ := only_listing_ends_scan (.withRoot "/d")
  rcases halike _ _ (sampleRefusals.answersAlike_withError .linkLoop) with
    ⟨e, -, hscan, -⟩ | ⟨outcome₁, outcome₂, hscan₁, hscan₂, hdevices, hskipped⟩
  · obtain ⟨e, hlist⟩ := (hfails sampleRefusals).1 ⟨e, hscan⟩
    cases hlist
  · rw [hscan₁] at hfound
    obtain ⟨hcard, hleftOut⟩ := Prod.mk.inj (Option.some.inj hfound)
    refine ⟨outcome₁, outcome₂, hscan₁, hscan₂, hdevices, hskipped, ?_, ?_⟩
    · rw [← hdevices]
      exact hcard
    · rw [← hskipped]
      exact hleftOut

end CardInventory
