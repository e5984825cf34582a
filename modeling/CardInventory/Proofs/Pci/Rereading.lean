import CardInventory.Proofs.Pci.Codec

/-
# Addresses that are written and read again

The fields of an address are words, and a text is written whatever they hold. Read again, the text
gives the address back where a text can give its fields; else the device is reported, or the
function where the device is in range (`parse_render_eq_ite`). What is reported are the digits that
were written, those that the number of the field has in base 16 (`Hex.fixed_eq_toDigits`).

The number of an address out of range is that of another one, as a field that is too great carries
into the one before it. In range there is exactly one address of each number, and it is the one that
the number unpacks to (`eq_ofNumber_iff`).
-/

namespace CardInventory

/-! ## Written fields -/

namespace Text
namespace Hex

theorem digit_last (n : ℕ) : digit (last n) = (n % 16).digitChar := by
  have hall : ∀ d : Fin 16, digit d = d.val.digitChar := by decide
  exact hall (last n)

/-- **A number is written with the digits that it has**, where the count is that of these digits. -/
theorem fixed_eq_toDigits {width n : ℕ} (hlow : width = 0 ∨ 16 ^ width ≤ n)
    (hlt : n < 16 ^ (width + 1)) : fixed (width + 1) n = Nat.toDigits 16 n := by
  induction width generalizing n with
  | zero =>
    have hdigit : n < 16 := by simpa using hlt
    rw [Nat.toDigits_of_lt_base hdigit, fixed, fixed, digit_last, Nat.mod_eq_of_lt hdigit,
      List.nil_append]
  | succ width ih =>
    rw [pow_succ] at hlow hlt
    have hpos := Nat.one_le_pow width 16 (by decide)
    have hge : 16 ≤ n := by omega
    have hlow' : 16 ^ width ≤ n / 16 := by omega
    have hlt' : n / 16 < 16 ^ (width + 1) := Nat.div_lt_of_lt_mul (by omega)
    rw [Nat.toDigits_of_base_le (by decide) hge, fixed, digit_last, ih (.inr hlow') hlt']

end Hex
end Text

namespace PciAddress

open Text

variable {a b : PciAddress}

/-- A device out of range is written with the two digits that it has. -/
theorem fixed_device (h : 0x1f < a.device.toNat) :
    Hex.fixed 2 a.device.toNat = Nat.toDigits 16 a.device.toNat :=
  Hex.fixed_eq_toDigits (.inr (by omega)) a.device.toNat_lt

/-- Any function is written with the digits that it has. -/
theorem functionDigits_eq (a : PciAddress) :
    a.functionDigits = Nat.toDigits 16 a.function.toNat := by
  unfold functionDigits
  split_ifs with hone
  · exact Hex.fixed_eq_toDigits (.inl rfl) hone
  · exact Hex.fixed_eq_toDigits (.inr (not_lt.1 hone)) a.function.toNat_lt

/-- **A number unpacks to the one address in range that has it.** -/
theorem eq_ofNumber_iff {n : UInt32} : b = ofNumber n ↔ b.InRange ∧ b.number = n.toNat := by
  constructor
  · rintro rfl
    exact ⟨ofNumber_inRange n, number_ofNumber n⟩
  · rintro ⟨hrange, hnumber⟩
    rw [← ofNumber_number hrange, hnumber, UInt32.ofNat_toNat]

/-- **What becomes of an address that is written and read again.** It comes back exactly if its
device is at most 1f and its function at most 7. A greater device is reported with its two digits,
and where the device is in range a greater function with those that it has. Of a number of 32 bits
there is one address in range, the one that the number unpacks to, and it is the given address
exactly if this is in range. -/
theorem written_address_read_again (a : PciAddress) :
    (parse a.render = .ok a ↔ a.device ≤ 0x1f ∧ a.function ≤ 0x7) ∧
      (0x1f < a.device → (Nat.toDigits 16 a.device.toNat).length = 2 ∧
        parse a.render =
          .error (.field .device (String.ofList (Nat.toDigits 16 a.device.toNat)))) ∧
      (a.device ≤ 0x1f → 0x7 < a.function → parse a.render =
        .error (.field .function (String.ofList (Nat.toDigits 16 a.function.toNat)))) ∧
      (a.number < 2 ^ 32 →
        (∀ b, b.InRange ∧ b.number = a.number ↔ b = ofNumber (UInt32.ofNat a.number)) ∧
          (ofNumber (UInt32.ofNat a.number) = a ↔ a.device ≤ 0x1f ∧ a.function ≤ 0x7)) := by
  have hrange : a.InRange ↔ a.device ≤ 0x1f ∧ a.function ≤ 0x7 :=
    ⟨fun h => ⟨h.device_le, h.function_le⟩, fun h => ⟨h.1, h.2⟩⟩
  refine ⟨?_, fun hdevice => ?_, fun hdevice hfunction => ?_, fun hlt => ⟨fun b => ?_, ?_⟩⟩
  · rw [← hrange]
    exact ⟨parse_inRange, parse_render⟩
  · have hgreat : 0x1f < a.device.toNat := hdevice
    have hdigits := fixed_device hgreat
    refine ⟨?_, ?_⟩
    · rw [← hdigits, Hex.length_fixed]
    · rw [parse_render_eq_ite, if_pos hgreat, hdigits]
  · have hfits : ¬ 0x1f < a.device.toNat := not_lt.2 hdevice
    have hgreat : 0x7 < a.function.toNat := hfunction
    rw [parse_render_eq_ite, if_neg hfits, if_pos hgreat, functionDigits_eq]
  · rw [eq_ofNumber_iff, UInt32.toNat_ofNat_of_lt' hlt]
  · rw [← hrange]
    exact ⟨fun h => h ▸ ofNumber_inRange _, ofNumber_number⟩

/-- The greatest function of the greatest device, a function of two digits, and a device out of
range whose number is that of the next bus. -/
theorem written_address_read_again_sample :
    parse (render ⟨0, 0, 0x1f, 0x7⟩) = .ok ⟨0, 0, 0x1f, 0x7⟩ ∧
      parse (render ⟨0, 0, 0x1f, 0xa0⟩) = .error (.field .function "a0") ∧
      parse (render ⟨0, 0, 0x20, 0xff⟩) = .error (.field .device "20") ∧
      (InRange ⟨0, 1, 0, 0⟩ ∧ number ⟨0, 1, 0, 0⟩ = number ⟨0, 0, 0x20, 0⟩) ∧
      ofNumber (UInt32.ofNat (number ⟨0, 0, 0x20, 0⟩)) ≠ ⟨0, 0, 0x20, 0⟩ := by
  obtain ⟨hback, -⟩ := written_address_read_again ⟨0, 0, 0x1f, 0x7⟩
  obtain ⟨-, -, hfunction, -⟩ := written_address_read_again ⟨0, 0, 0x1f, 0xa0⟩
  obtain ⟨-, hdevice, -⟩ := written_address_read_again ⟨0, 0, 0x20, 0xff⟩
  obtain ⟨-, -, -, hnumber⟩ := written_address_read_again ⟨0, 0, 0x20, 0⟩
  obtain ⟨hunique, hsame⟩ := hnumber (by decide)
  exact ⟨hback.2 (by decide), hfunction (by decide) (by decide), (hdevice (by decide)).2,
    (hunique _).2 (by decide), mt hsame.1 (by decide)⟩

end PciAddress
end CardInventory
