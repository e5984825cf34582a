import CardInventory.Proofs.Card.Json
import CardInventory.Proofs.Results

/-
# What is read has one written form

A text may give a value in many ways: with its members in any order and with others between them, a
record as an array, a key of a map more than once, a character escaped, an identifier in any of its
forms. The written form of what is read is one of these ways, and it is read as the same value
again. So to read a text and write what it says is to normalize it: doing it twice is doing it once,
and two texts get one normal form exactly where they say the same (`decoded_values_are_normal`).

It comes down to a property of the shapes: what a shape can hold is kept by its type
(`LawfulShaped`). Then the values that some text says are those that the shape keeps
(`exists_decode_eq_ok_iff`), which for a node are those with an empty device id.
-/

namespace CardInventory
namespace Json

/-! ## Values that are read -/

/-- A type that keeps all that its shape can hold, a lawful one. -/
class LawfulShaped (α : Type) [Shaped α] : Prop where
  lawful : (Shaped.shape α).lawful = true
  toValue_ofValue : ∀ v, Shaped.toValue (Shaped.ofValue v : α) = v

/-- The compact text of what a text says. -/
def normalize (α : Type) [Shaped α] (text : String) : Except DecodeError String :=
  (decode α text).map fun a => (encode a).compact

/-- Is what is read of a type read again from its compact text, so that this is a normal form? -/
structure Normalizes (α : Type) [Shaped α] : Prop where
  decode_compact : ∀ text (a : α), decode α text = .ok a → decode α (encode a).compact = .ok a
  normalize_normalize : ∀ text normal, normalize α text = .ok normal →
    normalize α normal = .ok normal
  normalize_eq_iff : ∀ text₁ text₂ (a₁ a₂ : α), decode α text₁ = .ok a₁ → decode α text₂ = .ok a₂ →
    (normalize α text₁ = normalize α text₂ ↔ a₁ = a₂)

section
variable {α : Type} [Shaped α] [LawfulShaped α]

/-- What is read is kept by the shape. -/
theorem ofValue_toValue_of_decode {text : String} {a : α} (h : decode α text = .ok a) :
    (Shaped.ofValue (Shaped.toValue a) : α) = a := by
  obtain ⟨v, -, rfl⟩ := exists_of_map_eq_ok h
  rw [LawfulShaped.toValue_ofValue]

/-- **A text says a value exactly where its shape keeps the value.** -/
theorem exists_decode_eq_ok_iff {a : α} :
    (∃ text, decode α text = .ok a) ↔ (Shaped.ofValue (Shaped.toValue a) : α) = a := by
  constructor
  · rintro ⟨text, h⟩
    exact ofValue_toValue_of_decode h
  · intro h
    have hread := decode_render Style.lawful_compact LawfulShaped.lawful a
    exact ⟨_, h ▸ hread⟩

/-- **What is read is read again from its compact text.** -/
theorem decode_compact_of_decode {text : String} {a : α} (h : decode α text = .ok a) :
    decode α (encode a).compact = .ok a := by
  have hread := decode_render Style.lawful_compact LawfulShaped.lawful a
  rwa [ofValue_toValue_of_decode h] at hread

variable (α) in
/-- **Reading and writing normalizes the texts** of a type that keeps all that its shape holds. -/
theorem normalizes : Normalizes α where
  decode_compact _ _ h := decode_compact_of_decode h
  normalize_normalize text normal h := by
    obtain ⟨a, ha, rfl⟩ := exists_of_map_eq_ok h
    rw [normalize, decode_compact_of_decode ha, Except.map]
  normalize_eq_iff text₁ text₂ a₁ a₂ h₁ h₂ := by
    refine ⟨fun h => ?_, fun h => by rw [normalize, normalize, h₁, h₂, h]⟩
    rw [normalize, normalize, h₁, h₂] at h
    have hcompact : (encode a₁).compact = (encode a₂).compact := Except.ok.inj h
    have hread := decode_compact_of_decode h₁
    rw [hcompact, decode_compact_of_decode h₂] at hread
    exact (Except.ok.inj hread).symm

end

end Json

/-! ## The types with a shape -/

open Json

instance : LawfulShaped Health where
  lawful := by decide
  toValue_ofValue
    | (0 : Fin 2) => rfl
    | (1 : Fin 2) => rfl

instance : LawfulShaped PciAddress where
  lawful := by decide
  toValue_ofValue _ := rfl

instance : LawfulShaped Node where
  lawful := by decide
  toValue_ofValue _ := rfl

instance : LawfulShaped DeviceSpec where
  lawful := by decide
  toValue_ofValue _ := rfl

section
variable {α : Type} [Shaped α] [LawfulShaped α]

instance : LawfulShaped (List α) where
  lawful := LawfulShaped.lawful (α := α)
  toValue_ofValue vs :=
    (List.map_map ..).trans (List.map_id'' LawfulShaped.toValue_ofValue vs)

instance : LawfulShaped (SortedMap α) where
  lawful := LawfulShaped.lawful (α := α)
  toValue_ofValue m := by
    have hvalues : (fun v => Shaped.toValue (Shaped.ofValue v : α)) = id :=
      funext LawfulShaped.toValue_ofValue
    change (m.map Shaped.ofValue).map Shaped.toValue = m
    rw [SortedMap.map_map, hvalues]
    exact SortedMap.ext (List.map_id _)

end

instance : LawfulShaped Device where
  lawful := by decide
  toValue_ofValue := by
    rintro ⟨serialNumber, shellVersion, buildTimestamp, health, nodes, ⟨⟩⟩
    have hhealth := LawfulShaped.toValue_ofValue (α := Health) health
    have hnodes := LawfulShaped.toValue_ofValue (α := List Node) nodes
    simp only [Shaped.toValue, Shaped.ofValue] at hhealth hnodes ⊢
    rw [hhealth, hnodes]

instance : LawfulShaped AllocatableUnit where
  lawful := by decide
  toValue_ofValue := by
    rintro ⟨id, health, deviceSpecs, ⟨⟩⟩
    have hhealth := LawfulShaped.toValue_ofValue (α := Health) health
    have hspecs := LawfulShaped.toValue_ofValue (α := List DeviceSpec) deviceSpecs
    simp only [Shaped.toValue, Shaped.ofValue] at hhealth hspecs ⊢
    rw [hhealth, hspecs]

instance : LawfulShaped Inventory where
  lawful := by decide
  toValue_ofValue := by
    rintro ⟨inventoryId, schemaVersion, devices, generatedAt, ⟨⟩⟩
    have hdevices := LawfulShaped.toValue_ofValue (α := DeviceMap) devices
    simp only [Shaped.toValue, Shaped.ofValue] at hdevices ⊢
    rw [hdevices]

/-- **Every type that is read from JSON has a normal form.** Whatever text a value is read from, its
compact text is read as the same value, in all fields; writing that again gives the same text; and
texts have one normal form exactly where they say the same value. -/
theorem decoded_values_are_normal :
    Normalizes Health ∧ Normalizes PciAddress ∧ Normalizes Node ∧ Normalizes Device ∧
      Normalizes DeviceMap ∧ Normalizes DeviceSpec ∧ Normalizes AllocatableUnit ∧
      Normalizes Inventory :=
  ⟨normalizes _, normalizes _, normalizes _, normalizes _, normalizes _, normalizes _,
    normalizes _, normalizes _⟩

/-- A card in a roundabout way: members in another order, one that is none of a field, a name as an
object, a node as an array, no streaming DMA as null, and an escaped letter. -/
def sampleRoundabout : String :=
  "\x7b\"health\":\x7b\"Healthy\":null\x7d,\"x\":[],\"nodes\":[[\"p\",\"q\",null,\"a\"]]," ++
  "\"build_timestamp\":\"t\",\"shell_version\":\"v\",\"serial_number\":\"\\u0053\"\x7d "

/-- The same card as it is written. -/
def sampleNormal : String :=
  "\x7b\"serial_number\":\"S\",\"shell_version\":\"v\",\"build_timestamp\":\"t\"," ++
  "\"health\":\"Healthy\",\"nodes\":[\x7b\"primary_device_path\":\"p\"," ++
  "\"subdevice_path\":\"q\",\"address\":\"a\"\x7d]\x7d"

/-- The sample is brought to its written form, and bringing it there again changes nothing. -/
theorem decoded_values_are_normal_sample :
    normalize Device sampleRoundabout = .ok sampleNormal ∧
      normalize Device sampleNormal = .ok sampleNormal ∧
      ∃ device, decode Device sampleRoundabout = .ok device ∧
        decode Device sampleNormal = .ok device := by
  obtain ⟨-, -, -, ⟨hdecode, hnormal, -⟩, -⟩ := decoded_values_are_normal
  have hsample : (normalize Device sampleRoundabout).toOption = some sampleNormal := by
    decide +kernel
  rw [toOption_eq_some_iff] at hsample
  obtain ⟨device, hdevice, hcompact⟩ := exists_of_map_eq_ok hsample
  refine ⟨hsample, hnormal _ _ hsample, device, hdevice, ?_⟩
  rw [hcompact]
  exact hdecode _ _ hdevice

end CardInventory
