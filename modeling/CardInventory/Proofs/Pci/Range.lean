import CardInventory.Proofs.Card.NormalForm
import CardInventory.Proofs.Pci.Codec

/-
# Where addresses are in range

There are three ways to get an address (`Source`): to read its text, to unpack its number, and to
read it as JSON. The first two give addresses in range only (`Source.inRange`). Reading JSON asks of
a field no more than that it is a word, so that it gives every address there is
(`exists_decode_eq_ok`), also those out of range. These come back neither from their number nor from
their text (`roundTrips_iff`), and each of them that has a number of 32 bits shares it with another
address (`ofNumber_number_of_not_inRange`).
-/

namespace CardInventory
namespace PciAddress

open Json

/-- Is an address in range, and does it come back from its number and from its text? -/
structure RoundTrips (a : PciAddress) : Prop where
  inRange : a.InRange
  ofNumber_number : ofNumber (UInt32.ofNat a.number) = a
  parse_render : parse a.render = .ok a

instance (a : PciAddress) : Decidable a.InRange :=
  decidable_of_iff (a.device.toNat ≤ 0x1f ∧ a.function.toNat ≤ 0x7)
    ⟨fun h => ⟨h.1, h.2⟩, fun h => ⟨h.device_le, h.function_le⟩⟩

/-- **To come back in any way is to be in range.** -/
theorem roundTrips_iff {a : PciAddress} :
    (a.RoundTrips ↔ a.InRange) ∧ (ofNumber (UInt32.ofNat a.number) = a ↔ a.InRange) ∧
      (parse a.render = .ok a ↔ a.InRange) := by
  refine ⟨⟨RoundTrips.inRange, fun h => ⟨h, ofNumber_number h, parse_render h⟩⟩,
    ⟨fun h => ?_, ofNumber_number⟩, ⟨parse_inRange, parse_render⟩⟩
  rw [← h]
  exact ofNumber_inRange _

/-- **Every address is read from some JSON text**, whatever its fields are. -/
theorem exists_decode_eq_ok (a : PciAddress) : ∃ text, decode PciAddress text = .ok a :=
  exists_decode_eq_ok_iff.2 rfl

/-- **An address out of range shares its number** with the one that the number unpacks to. -/
theorem ofNumber_number_of_not_inRange {a : PciAddress} (h : ¬ a.InRange)
    (hlt : a.number < 2 ^ 32) :
    ofNumber (UInt32.ofNat a.number) ≠ a ∧
      (ofNumber (UInt32.ofNat a.number)).number = a.number := by
  refine ⟨mt roundTrips_iff.2.1.1 h, ?_⟩
  rw [number_ofNumber, UInt32.toNat_ofNat_of_lt' hlt]

/-- The ways to get an address: from its text, from its number, or from JSON. -/
inductive Source
  | text (s : String)
  | number (n : UInt32)
  | json (s : String)

/-- The address that is got, if any. -/
def Source.address? : Source → Option PciAddress
  | .text s => (parse s).toOption
  | .number n => some (ofNumber n)
  | .json s => (decode PciAddress s).toOption

/-- **Texts and numbers give addresses in range only.** -/
theorem Source.inRange {source : Source} {a : PciAddress} (h : source.address? = some a)
    (hjson : ∀ s, source ≠ .json s) : a.InRange := by
  cases source with
  | text s => exact parse_inRange (toOption_eq_some_iff.1 h)
  | number n => exact Option.some.inj h ▸ ofNumber_inRange n
  | json s => exact absurd rfl (hjson s)

/-- **An address comes back when its source keeps the range.** It does so from its number and its
text when it is not from JSON, and in any case exactly when its device is at most 1f and its
function at most 7. Addresses that come back are told apart by their numbers. One that does not
comes back in neither way, and if its number has 32 bits, then some source gives another address of
the same number. -/
theorem roundTrips_of_obtained (source : Source) (a : PciAddress) (h : source.address? = some a) :
    ((∀ s, source ≠ .json s) → a.RoundTrips) ∧
      (a.RoundTrips ↔ a.device ≤ 0x1f ∧ a.function ≤ 0x7) ∧
      (∀ b : PciAddress, a.RoundTrips → b.RoundTrips → (a.number = b.number ↔ a = b)) ∧
      (¬ a.RoundTrips →
        ofNumber (UInt32.ofNat a.number) ≠ a ∧ parse a.render ≠ .ok a ∧
          (a.number < 2 ^ 32 → ∃ (other : Source) (b : PciAddress),
            other.address? = some b ∧ b ≠ a ∧ b.number = a.number)) := by
  refine ⟨fun hjson => roundTrips_iff.1.2 (Source.inRange h hjson), ?_,
    fun b ha hb => number_inj ha.inRange hb.inRange, fun ha => ?_⟩
  · rw [roundTrips_iff.1]
    exact ⟨fun h => ⟨h.device_le, h.function_le⟩, fun h => ⟨h.1, h.2⟩⟩
  · have hout : ¬ a.InRange := mt roundTrips_iff.1.2 ha
    refine ⟨mt roundTrips_iff.2.1.1 hout, mt roundTrips_iff.2.2.1 hout, fun hlt => ?_⟩
    obtain ⟨hne, hnumber⟩ := ofNumber_number_of_not_inRange hout hlt
    exact ⟨.number (UInt32.ofNat a.number), _, rfl, hne, hnumber⟩

/-- The greatest device and function of a bus, read as JSON, come back; device 32 does not, and it
shares its number with an address that some source gives. -/
theorem roundTrips_of_obtained_sample :
    (Source.json "[0,0,31,7]").address? = some ⟨0, 0, 0x1f, 7⟩ ∧
      RoundTrips ⟨0, 0, 0x1f, 7⟩ ∧ RoundTrips ⟨0, 1, 0, 0⟩ ∧
      number ⟨0, 0, 0x1f, 7⟩ ≠ number ⟨0, 1, 0, 0⟩ ∧
      (Source.json "[0,0,32,0]").address? = some ⟨0, 0, 0x20, 0⟩ ∧
      ∃ (other : Source) (b : PciAddress),
        other.address? = some b ∧ b ≠ ⟨0, 0, 0x20, 0⟩ ∧ b.number = number ⟨0, 0, 0x20, 0⟩ := by
  have hgreatest : (Source.json "[0,0,31,7]").address? = some ⟨0, 0, 0x1f, 7⟩ := by decide +kernel
  have hnext : (Source.text "0:1:0.0").address? = some ⟨0, 1, 0, 0⟩ := by decide +kernel
  have hbeyond : (Source.json "[0,0,32,0]").address? = some ⟨0, 0, 0x20, 0⟩ := by decide +kernel
  obtain ⟨-, hiff, hinj, -⟩ := roundTrips_of_obtained _ _ hgreatest
  have ha := hiff.2 (by decide)
  have hb := (roundTrips_of_obtained _ _ hnext).1 fun s => by simp
  obtain ⟨-, hiff', -, hothers⟩ := roundTrips_of_obtained _ _ hbeyond
  obtain ⟨-, -, hshared⟩ := hothers (mt hiff'.1 (by decide))
  exact ⟨hgreatest, ha, hb, mt (hinj _ ha hb).1 (by decide), hbeyond, hshared (by decide)⟩

/-- Device 32 in JSON has the number of a device on the next bus, and its own text is refused. -/
theorem decoded_device_out_of_range :
    decode PciAddress "[0,0,32,0]" = .ok ⟨0, 0, 0x20, 0⟩ ∧
      decode PciAddress "[0,1,0,0]" = .ok ⟨0, 1, 0, 0⟩ ∧
      number ⟨0, 0, 0x20, 0⟩ = number ⟨0, 1, 0, 0⟩ ∧
      ofNumber (UInt32.ofNat (number ⟨0, 0, 0x20, 0⟩)) ≠ ⟨0, 0, 0x20, 0⟩ ∧
      parse (render ⟨0, 0, 0x20, 0⟩) = .error (.field .device "20") := by
  refine ⟨toOption_eq_some_iff.1 ?_, toOption_eq_some_iff.1 ?_, ?_, ?_, ?_⟩ <;>
    decide +kernel

end PciAddress
end CardInventory
