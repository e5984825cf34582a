import CardInventory.Pci.Address
import CardInventory.Proofs.Results
import CardInventory.Proofs.Text.Hex
import CardInventory.Proofs.Text.Split

/-
# Addresses, their texts and their numbers

A text can give an address only fields in the range of `PciAddress.InRange` (`parse_inRange`), and
in that range all three forms of an address say the same: it is read back from its text
(`parse_render`) and from its number (`ofNumber_number`), and each number of 32 bits is that of one
such address (`number_ofNumber`).
-/

namespace CardInventory
namespace PciAddress

open Text

/-- Has the address fields as a text can give them? -/
structure InRange (a : PciAddress) : Prop where
  device_le : a.device.toNat ≤ 0x1f
  function_le : a.function.toNat ≤ 0x7

/-! ## Reading fields -/

/-- A field that is read is in its range. -/
theorem readField_le {f : PciField} {cs : List Char} {n : ℕ} (h : readField f cs = .ok n) :
    n ≤ f.greatest := by
  unfold readField at h
  split at h
  · split_ifs at h with hds
    obtain rfl := Except.ok.inj h
    exact hds.2.2
  · cases h

/-- **A written field is read back where it fits**, and reported where it does not. -/
theorem readField_fixed (f : PciField) {width n : ℕ} (hpos : 0 < width) (hlt : n < 16 ^ width) :
    readField f (Hex.fixed width n) =
      if width ≤ f.width ∧ n ≤ f.greatest then .ok n
      else .error (.field f (String.ofList (Hex.fixed width n))) := by
  have hvalue : Hex.toNat (Hex.digits width n) = n := by
    rw [Hex.toNat_digits, Nat.mod_eq_of_lt hlt]
  have hne : Hex.digits width n ≠ [] := by
    rw [← List.length_pos_iff, Hex.length_digits]
    exact hpos
  unfold readField
  rw [Hex.fixed_eq_map_digit, Hex.values?_map_digit]
  simp only [hvalue, Hex.length_digits, hne, ne_eq, not_false_eq_true, true_and]

/-! ## Texts -/

/-- What a text that is an address gives to the fields. -/
theorem exists_of_parse_eq_ok {s : String} {a : PciAddress} (h : parse s = .ok a) :
    ∃ domain bus device function, domain ≤ 0xffff ∧ bus ≤ 0xff ∧ device ≤ 0x1f ∧ function ≤ 0x7 ∧
      a = ⟨UInt16.ofNat domain, UInt8.ofNat bus, UInt8.ofNat device, UInt8.ofNat function⟩ := by
  unfold parse at h
  split at h
  · split at h
    · cases h
    · obtain ⟨domain, hdomain, h⟩ := exists_of_bind_eq_ok h
      obtain ⟨bus, hbus, h⟩ := exists_of_bind_eq_ok h
      obtain ⟨device, hdevice, h⟩ := exists_of_bind_eq_ok h
      obtain ⟨function, hfunction, h⟩ := exists_of_bind_eq_ok h
      exact ⟨domain, bus, device, function, readField_le hdomain, readField_le hbus,
        readField_le hdevice, readField_le hfunction, (Except.ok.inj h).symm⟩
  · cases h

/-- A field that is read holds digits only. -/
theorem value?_of_readField {f : PciField} {cs : List Char} {n : ℕ} (h : readField f cs = .ok n) :
    ∀ c ∈ cs, ∃ d, Hex.value? c = some d := by
  unfold readField at h
  split at h
  · next ds hds => exact Hex.value?_of_values? hds
  · cases h

/-- **An address is spelled with digits, colons and points.** -/
theorem mem_of_parse_eq_ok {s : String} {a : PciAddress} (h : parse s = .ok a) {c : Char}
    (hc : c ∈ s.toList) : c = ':' ∨ c = '.' ∨ ∃ d, Hex.value? c = some d := by
  by_cases hcolon : c = ':'
  · exact .inl hcolon
  refine .inr ?_
  obtain ⟨part, hpart, hcpart⟩ := exists_mem_splitOn hc hcolon
  unfold parse at h
  split at h
  case h_2 => cases h
  case h_1 domain bus slot hsplit =>
    split at h
    case h_1 => cases h
    case h_2 point function hdrop =>
      obtain ⟨_, hdomain, h⟩ := exists_of_bind_eq_ok h
      obtain ⟨_, hbus, h⟩ := exists_of_bind_eq_ok h
      obtain ⟨_, hdevice, h⟩ := exists_of_bind_eq_ok h
      obtain ⟨_, hfunction, h⟩ := exists_of_bind_eq_ok h
      simp only [hsplit, List.mem_cons, List.not_mem_nil, or_false] at hpart
      rcases hpart with rfl | rfl | rfl
      · exact .inr (value?_of_readField hdomain c hcpart)
      · exact .inr (value?_of_readField hbus c hcpart)
      · rw [← List.takeWhile_append_dropWhile (p := (· ≠ '.')) (l := part), hdrop, List.mem_append,
          List.mem_cons] at hcpart
        rcases hcpart with hcpart | rfl | hcpart
        · exact .inr (value?_of_readField hdevice c hcpart)
        · have hhead := List.head?_dropWhile_not (fun c => decide (c ≠ '.')) part
          rw [hdrop] at hhead
          exact .inl (by simpa using hhead)
        · exact .inr (value?_of_readField hfunction c hcpart)

/-- **The fields of a text are in range.** -/
theorem parse_inRange {s : String} {a : PciAddress} (h : parse s = .ok a) : a.InRange := by
  obtain ⟨domain, bus, device, function, -, -, hdevice, hfunction, rfl⟩ := exists_of_parse_eq_ok h
  constructor
  · rw [UInt8.toNat_ofNat']
    omega
  · rw [UInt8.toNat_ofNat']
    omega

/-- The digits of the function in a written address. -/
def functionDigits (a : PciAddress) : List Char :=
  Hex.fixed (if a.function.toNat < 16 then 1 else 2) a.function.toNat

/-- The parts of a written address. -/
theorem splitOn_chars (a : PciAddress) :
    a.chars.splitOn ':' = [Hex.fixed 4 a.domain.toNat, Hex.fixed 2 a.bus.toNat,
      Hex.fixed 2 a.device.toNat ++ '.' :: a.functionDigits] := by
  have hcolon : Hex.value? ':' = none := by decide
  unfold chars functionDigits
  simp only [List.append_assoc, List.cons_append, List.nil_append]
  rw [List.splitOn_append_cons_self_of_not_mem (Hex.not_mem_fixed hcolon _ _),
    List.splitOn_append_cons_self_of_not_mem (Hex.not_mem_fixed hcolon _ _),
    List.splitOn_eq_singleton]
  simp [Hex.not_mem_fixed hcolon]

/-- **A written address is read field by field.** -/
theorem parse_render_eq (a : PciAddress) :
    parse a.render = (do
      let domain ← readField .domain (Hex.fixed 4 a.domain.toNat)
      let bus ← readField .bus (Hex.fixed 2 a.bus.toNat)
      let device ← readField .device (Hex.fixed 2 a.device.toNat)
      let function ← readField .function a.functionDigits
      return ⟨UInt16.ofNat domain, UInt8.ofNat bus, UInt8.ofNat device, UInt8.ofNat function⟩) := by
  have hpoint : Hex.value? '.' = none := by decide
  have hbefore : ∀ c ∈ Hex.fixed 2 a.device.toNat, decide (c ≠ '.') = true := by
    intro c hc
    rw [decide_eq_true_iff]
    rintro rfl
    exact Hex.not_mem_fixed hpoint _ _ hc
  unfold parse
  rw [render, String.toList_ofList, splitOn_chars a]
  simp only [List.dropWhile_append_of_pos hbefore, List.takeWhile_append_of_pos hbefore]
  simp

/-- **What is read from a written address.** A domain and a bus are always read back, so that the
device is blamed where it is out of range, and else the function. -/
theorem parse_render_eq_ite (a : PciAddress) :
    parse a.render =
      if 0x1f < a.device.toNat then
        .error (.field .device (String.ofList (Hex.fixed 2 a.device.toNat)))
      else if 0x7 < a.function.toNat then .error (.field .function (String.ofList a.functionDigits))
      else .ok a := by
  have hdomain : readField .domain (Hex.fixed 4 a.domain.toNat) = .ok a.domain.toNat := by
    rw [readField_fixed _ (by decide) a.domain.toNat_lt]
    exact if_pos ⟨le_rfl, Nat.le_of_lt_succ a.domain.toNat_lt⟩
  have hbus : readField .bus (Hex.fixed 2 a.bus.toNat) = .ok a.bus.toNat := by
    rw [readField_fixed _ (by decide) a.bus.toNat_lt]
    exact if_pos ⟨le_rfl, Nat.le_of_lt_succ a.bus.toNat_lt⟩
  have hdevice : readField .device (Hex.fixed 2 a.device.toNat) =
      if 0x1f < a.device.toNat then
        .error (.field .device (String.ofList (Hex.fixed 2 a.device.toNat)))
      else .ok a.device.toNat := by
    rw [readField_fixed _ (by decide) a.device.toNat_lt, ← ite_not]
    simp [PciField.width, PciField.greatest]
  -- a function of two digits is too great as well
  have hfunction : readField .function a.functionDigits =
      if 0x7 < a.function.toNat then .error (.field .function (String.ofList a.functionDigits))
      else .ok a.function.toNat := by
    unfold functionDigits
    split_ifs with hone hrange hrange
    · rw [readField_fixed _ (by decide) hone]
      exact if_neg fun h => hrange.not_ge h.2
    · rw [readField_fixed _ (by decide) hone]
      exact if_pos ⟨le_rfl, not_lt.1 hrange⟩
    · rw [readField_fixed _ (by decide) a.function.toNat_lt]
      exact if_neg fun h => absurd h.1 (by decide)
    · omega
  rw [parse_render_eq, hdomain, hbus, hdevice, hfunction]
  split_ifs <;> simp [bind, Except.bind, pure, Except.pure]

/-- **A written address is read back.** -/
theorem parse_render {a : PciAddress} (h : a.InRange) : parse a.render = .ok a := by
  rw [parse_render_eq_ite, if_neg h.device_le.not_gt, if_neg h.function_le.not_gt]

/-- **Only an address in range is read back from what is written.** -/
theorem eq_of_parse_render {a b : PciAddress} (h : parse a.render = .ok b) : b = a := by
  rw [parse_render_eq_ite] at h
  split_ifs at h
  exact (Except.ok.inj h).symm

/-! ## Numbers -/

theorem number_lt {a : PciAddress} (h : a.InRange) : a.number < 2 ^ 32 := by
  have := h.device_le
  have := h.function_le
  have := a.domain.toNat_lt
  have := a.bus.toNat_lt
  unfold number
  omega

theorem ofNumber_inRange (n : UInt32) : (ofNumber n).InRange := by
  constructor <;> simp only [ofNumber, UInt8.toNat_ofNat'] <;> omega

/-- **Each number is that of the address that it gives.** -/
theorem number_ofNumber (n : UInt32) : (ofNumber n).number = n.toNat := by
  have := n.toNat_lt
  simp only [ofNumber, number, UInt16.toNat_ofNat', UInt8.toNat_ofNat']
  omega

/-- **An address in range is read back from its number.** -/
theorem ofNumber_number {a : PciAddress} (h : a.InRange) :
    ofNumber (UInt32.ofNat a.number) = a := by
  obtain ⟨domain, bus, device, function⟩ := a
  have hnumber := number_lt h
  have hdevice : device.toNat ≤ 0x1f := h.device_le
  have hfunction : function.toNat ≤ 0x7 := h.function_le
  have := domain.toNat_lt
  have := bus.toNat_lt
  unfold ofNumber
  rw [UInt32.toNat_ofNat_of_lt' hnumber]
  simp only [number, mk.injEq, ← UInt16.toNat_inj, ← UInt8.toNat_inj, UInt16.toNat_ofNat',
    UInt8.toNat_ofNat']
  omega

/-- **In range the number tells the address.** -/
theorem number_inj {a b : PciAddress} (ha : a.InRange) (hb : b.InRange) :
    a.number = b.number ↔ a = b := by
  refine ⟨fun h => ?_, fun h => by rw [h]⟩
  rw [← ofNumber_number ha, h, ofNumber_number hb]

/-- **Addresses, their texts and the numbers of 32 bits say the same.** An accepted text gives an
address in range, which is read back from its number and from its written text; each number is that
of the address that it gives, also by way of its text; and accepted texts have the same number
exactly when they spell the same address. -/
theorem text_number_bijection :
    (∀ s a, parse s = .ok a →
      a.device ≤ 0x1f ∧ a.function ≤ 0x7 ∧
        65536 * a.domain.toNat + 256 * a.bus.toNat + 8 * a.device.toNat + a.function.toNat
          ≤ 2 ^ 32 - 1 ∧
        ofNumber (UInt32.ofNat a.number) = a ∧ parse a.render = .ok a) ∧
      (∀ n : UInt32, (ofNumber n).number = n.toNat ∧
        parseNumber (ofNumber n).render = .ok n.toNat) ∧
      ∀ s t a b, parse s = .ok a → parse t = .ok b →
        (parseNumber s = parseNumber t ↔ parse s = parse t) := by
  refine ⟨fun s a h => ?_, fun n => ?_, fun s t a b hs ht => ?_⟩
  · have hrange := parse_inRange h
    refine ⟨hrange.device_le, hrange.function_le, Nat.le_pred_of_lt (number_lt hrange),
      ofNumber_number hrange, parse_render hrange⟩
  · refine ⟨number_ofNumber n, ?_⟩
    rw [parseNumber, parse_render (ofNumber_inRange n), Except.map, number_ofNumber]
  · refine ⟨fun h => ?_, fun h => by rw [parseNumber, parseNumber, h]⟩
    rw [parseNumber, parseNumber, hs, ht, Except.map, Except.map, Except.ok.injEq] at h
    rw [hs, ht, ← ofNumber_number (parse_inRange hs), h, ofNumber_number (parse_inRange ht)]

/-- An address on the greatest bus of the greatest domain, in two spellings. -/
theorem text_number_bijection_greatest :
    parse "FFFF:fF:1f.7" = .ok ⟨0xffff, 0xff, 0x1f, 0x7⟩ ∧
      parse "ffff:ff:1F.7" = .ok ⟨0xffff, 0xff, 0x1f, 0x7⟩ ∧
      ofNumber (UInt32.ofNat (number ⟨0xffff, 0xff, 0x1f, 0x7⟩)) = ⟨0xffff, 0xff, 0x1f, 0x7⟩ ∧
      parseNumber "FFFF:fF:1f.7" = parseNumber "ffff:ff:1F.7" := by
  have hs : parse "FFFF:fF:1f.7" = .ok ⟨0xffff, 0xff, 0x1f, 0x7⟩ := by decide +kernel
  have ht : parse "ffff:ff:1F.7" = .ok ⟨0xffff, 0xff, 0x1f, 0x7⟩ := by decide +kernel
  obtain ⟨htext, -, hsame⟩ := text_number_bijection
  obtain ⟨-, -, -, hnumber, -⟩ := htext _ _ hs
  exact ⟨hs, ht, hnumber, (hsame _ _ _ _ hs ht).2 (hs.trans ht.symm)⟩

end PciAddress
end CardInventory
