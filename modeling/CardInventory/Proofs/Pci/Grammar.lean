import CardInventory.Proofs.Pci.Codec
import Mathlib.Data.List.TakeWhile
import Mathlib.Data.Nat.Digits.Defs

/-
# The grammar of address texts

An address text has four parts, two colons and a point between them (`spelled`), and each part is
a numeral that fits its field (`PciField.Fits`). Separators cut a text into parts in one way
(`CutInto`), unless they are not those of an address (`Misshapen`). `parse_eq_of_cut` reads a text
that is cut: the first part that does not fit is blamed, and where all of them fit the fields are
the numerals. So each result of reading a text is told from the text alone (`parse_eq_ok_iff`,
`parse_eq_malformed_iff`, `parse_eq_field_iff`). Numerals that fit are written as they were spelled,
in small letters and padded (`render_ofParts`), since the padded spelling of a number is what is
written for it (`fixed_numeral`).
-/

namespace CardInventory
namespace Text
namespace Hex

/-! ## Digits and numerals -/

/-- Is the character one of the ASCII digits of base 16, in either letter case? -/
def IsDigit (c : Char) : Prop := c ∈ "0123456789abcdefABCDEF".toList

instance (c : Char) : Decidable (IsDigit c) :=
  inferInstanceAs (Decidable (c ∈ "0123456789abcdefABCDEF".toList))

/-- The place of a digit among the sixteen, in either letter case. -/
def place (c : Char) : ℕ := "0123456789abcdef".toList.idxOf c.toLower

/-- The number that digits spell by their places in base 16, the last one the units. -/
def numeral (cs : List Char) : ℕ := Nat.ofDigits 16 (cs.reverse.map place)

/-- Are these digits, at least one and at most so many? -/
structure IsNumeral (most : ℕ) (cs : List Char) : Prop where
  length_pos : 1 ≤ cs.length
  length_le : cs.length ≤ most
  isDigit : ∀ c ∈ cs, IsDigit c

theorem isNumeral_iff {most : ℕ} {cs : List Char} :
    IsNumeral most cs ↔ 1 ≤ cs.length ∧ cs.length ≤ most ∧ ∀ c ∈ cs, IsDigit c :=
  ⟨fun h => ⟨h.length_pos, h.length_le, h.isDigit⟩, fun h => ⟨h.1, h.2.1, h.2.2⟩⟩

-- The digits are checked one by one along the list; the instance that is found for a statement
-- about all characters may run over every character there is.
instance (most : ℕ) (cs : List Char) : Decidable (IsNumeral most cs) :=
  haveI : Decidable (∀ c ∈ cs, IsDigit c) := List.decidableBAll IsDigit cs
  decidable_of_iff _ isNumeral_iff.symm

/-- A digit has the value of its place, and is written as its small letter. -/
theorem value?_of_isDigit {c : Char} (h : IsDigit c) :
    value? c = some (last (place c)) ∧ place c < 16 ∧ digit (last (place c)) = c.toLower := by
  have hall : "0123456789abcdefABCDEF".toList.all fun c => value? c = some (last (place c)) ∧
      place c < 16 ∧ digit (last (place c)) = c.toLower := by
    decide +kernel
  exact of_decide_eq_true (List.all_eq_true.1 hall c h)

/-- Nothing else has a value. -/
theorem isDigit_of_value? {c : Char} {d : Fin 16} (h : value? c = some d) : IsDigit c := by
  have hall : ∀ n < 0x67, value? (Char.ofNat n) ≠ none → IsDigit (Char.ofNat n) := by
    decide +kernel
  have hlt : c.toNat < 0x67 := by
    unfold value? at h
    by_contra hge
    rw [if_neg (by omega), if_neg (by omega), if_neg (by omega)] at h
    cases h
  have hdigit := hall c.toNat hlt
  rw [Char.ofNat_toNat, h] at hdigit
  exact hdigit (Option.some_ne_none d)

/-- Digits are read at their places. -/
theorem values?_of_isDigit {cs : List Char} (h : ∀ c ∈ cs, IsDigit c) :
    values? cs = some (cs.map fun c => last (place c)) := by
  induction cs with
  | nil => rfl
  | cons c rest ih =>
    obtain ⟨hc, hrest⟩ := List.forall_mem_cons.1 h
    have hvalues := ih hrest
    unfold values? at hvalues ⊢
    rw [List.mapM_cons, (value?_of_isDigit hc).1, hvalues]
    rfl

theorem numeral_concat (cs : List Char) (c : Char) :
    numeral (cs ++ [c]) = 16 * numeral cs + place c := by
  unfold numeral
  rw [List.reverse_append, List.reverse_singleton, List.singleton_append, List.map_cons,
    Nat.ofDigits_cons]
  exact Nat.add_comm _ _

/-- What is read from digits is the number that they spell. -/
theorem toNat_map_place {cs : List Char} (h : ∀ c ∈ cs, IsDigit c) :
    toNat (cs.map fun c => last (place c)) = numeral cs := by
  induction cs using List.reverseRecOn with
  | nil => rfl
  | append_singleton cs c ih =>
    obtain ⟨hcs, hc⟩ := List.forall_mem_append.1 h
    have hplace : (last (place c)).val = place c :=
      Nat.mod_eq_of_lt (value?_of_isDigit (hc c (List.mem_singleton_self c))).2.1
    rw [List.map_append, List.map_singleton, toNat_concat, numeral_concat, ih hcs, hplace]

/-- Digits spell less than the power of their count. -/
theorem numeral_lt {cs : List Char} (h : ∀ c ∈ cs, IsDigit c) : numeral cs < 16 ^ cs.length := by
  have hlt := toNat_lt (cs.map fun c => last (place c))
  rwa [toNat_map_place h, List.length_map] at hlt

theorem fixed_zero (width : ℕ) : fixed width 0 = List.replicate width '0' := by
  induction width with
  | zero => rfl
  | succ width ih =>
    rw [fixed, Nat.zero_div, ih, List.replicate_succ']
    rfl

/-- **The number that digits spell is written with these digits**, in small letters and after as
many zeros as are missing. -/
theorem fixed_numeral {cs : List Char} (h : ∀ c ∈ cs, IsDigit c) {width : ℕ}
    (hwidth : cs.length ≤ width) :
    fixed width (numeral cs) = (cs.map Char.toLower).leftpad width '0' := by
  induction cs using List.reverseRecOn generalizing width with
  | nil =>
    rw [show numeral [] = 0 from rfl, fixed_zero]
    simp [List.leftpad]
  | append_singleton cs c ih =>
    rw [List.length_append, List.length_singleton] at hwidth
    obtain ⟨width, rfl⟩ := Nat.exists_eq_add_of_le' (Nat.le_of_add_left_le hwidth)
    obtain ⟨hcs, hc⟩ := List.forall_mem_append.1 h
    obtain ⟨-, hlt, hdigit⟩ := value?_of_isDigit (hc c (List.mem_singleton_self c))
    have hdiv : numeral (cs ++ [c]) / 16 = numeral cs := by rw [numeral_concat]; omega
    have hlast : last (numeral (cs ++ [c])) = last (place c) := by
      rw [numeral_concat]
      exact Fin.ext (Nat.mul_add_mod 16 _ _)
    have hpad : width + 1 - (cs.length + 1) = width - cs.length := by omega
    rw [fixed, hdiv, hlast, hdigit, ih hcs (Nat.le_of_succ_le_succ hwidth)]
    simp [List.leftpad, hpad]

end Hex
end Text

open Text

/-! ## Parts of an address -/

/-- Is a text what an address has for the field? A domain is one to four digits, a bus and a device
one or two, a function is one; a device is at most 1f and a function at most 7. -/
def PciField.Fits : PciField → List Char → Prop
  | domain, cs => Hex.IsNumeral 4 cs
  | bus, cs => Hex.IsNumeral 2 cs
  | device, cs => Hex.IsNumeral 2 cs ∧ Hex.numeral cs ≤ 0x1f
  | function, cs => Hex.IsNumeral 1 cs ∧ Hex.numeral cs ≤ 0x7

instance : (f : PciField) → (cs : List Char) → Decidable (f.Fits cs)
  | .domain, cs => inferInstanceAs (Decidable (Hex.IsNumeral 4 cs))
  | .bus, cs => inferInstanceAs (Decidable (Hex.IsNumeral 2 cs))
  | .device, cs => inferInstanceAs (Decidable (Hex.IsNumeral 2 cs ∧ Hex.numeral cs ≤ 0x1f))
  | .function, cs => inferInstanceAs (Decidable (Hex.IsNumeral 1 cs ∧ Hex.numeral cs ≤ 0x7))

/-- The first of the four parts that does not fit its field. -/
def PciField.firstUnfit? (parts : PciField → List Char) : Option PciField :=
  [domain, bus, device, function].find? fun f => ¬ f.Fits (parts f)

/-- To fit is to be digits in the count and the range of the field. -/
theorem PciField.fits_iff {f : PciField} {cs : List Char} :
    f.Fits cs ↔ Hex.IsNumeral f.width cs ∧ Hex.numeral cs ≤ f.greatest := by
  -- For a domain and a bus the count alone keeps the range.
  have hrange (most : ℕ) (h : Hex.IsNumeral most cs) : Hex.numeral cs < 16 ^ most :=
    (Hex.numeral_lt h.isDigit).trans_le (Nat.pow_le_pow_right (by omega) h.length_le)
  cases f with
  | domain => exact ⟨fun h => ⟨h, Nat.le_of_lt_succ (hrange 4 h)⟩, And.left⟩
  | bus => exact ⟨fun h => ⟨h, Nat.le_of_lt_succ (hrange 2 h)⟩, And.left⟩
  | device => exact Iff.rfl
  | function => exact Iff.rfl

namespace PciAddress

/-- **A part is read when it fits its field**, and gives the number that it spells. -/
theorem readField_eq (f : PciField) (cs : List Char) :
    readField f cs =
      if f.Fits cs then .ok (Hex.numeral cs) else .error (.field f (String.ofList cs)) := by
  unfold readField
  by_cases hdigits : ∀ c ∈ cs, Hex.IsDigit c
  · rw [Hex.values?_of_isDigit hdigits]
    refine if_congr ?_ (congrArg Except.ok (Hex.toNat_map_place hdigits)) rfl
    rw [PciField.fits_iff, Hex.isNumeral_iff, Hex.toNat_map_place hdigits, List.length_map,
      ← List.length_pos_iff, List.length_map, and_iff_left hdigits, and_assoc]
    rfl
  · have hnone : Hex.values? cs = none := by
      by_contra hsome
      obtain ⟨ds, hds⟩ := Option.ne_none_iff_exists'.1 hsome
      refine hdigits fun c hc => ?_
      obtain ⟨d, hd⟩ := Hex.value?_of_values? hds c hc
      exact Hex.isDigit_of_value? hd
    rw [hnone, if_neg (fun h => hdigits (PciField.fits_iff.1 h).1.isDigit)]

/-- A text of four parts: colons before the bus and the device and a point before the function. -/
def spelled (parts : PciField → List Char) : List Char :=
  parts .domain ++ ':' :: (parts .bus ++ ':' :: (parts .device ++ '.' :: parts .function))

/-- Are these the parts into which the separators cut a text? The function is all that comes after
the first point of the last stretch. -/
structure CutInto (parts : PciField → List Char) (s : String) : Prop where
  toList_eq : s.toList = spelled parts
  colon_notMem : ∀ f, ':' ∉ parts f
  point_notMem : '.' ∉ parts .device

/-- Are the separators of a text not those of an address? There are not exactly two colons, or no
point comes after the second one. -/
def Misshapen (s : String) : Prop :=
  s.toList.count ':' ≠ 2 ∨
    ∃ domain bus slot, s.toList = domain ++ ':' :: (bus ++ ':' :: slot) ∧
      ':' ∉ domain ∧ ':' ∉ bus ∧ '.' ∉ slot

/-- The number that an address has in a field. -/
def value (a : PciAddress) : PciField → ℕ
  | .domain => a.domain.toNat
  | .bus => a.bus.toNat
  | .device => a.device.toNat
  | .function => a.function.toNat

/-- The address whose fields are the numbers that the parts spell. -/
def ofParts (parts : PciField → List Char) : PciAddress where
  domain := UInt16.ofNat (Hex.numeral (parts .domain))
  bus := UInt8.ofNat (Hex.numeral (parts .bus))
  device := UInt8.ofNat (Hex.numeral (parts .device))
  function := UInt8.ofNat (Hex.numeral (parts .function))

variable {s : String} {parts : PciField → List Char}

/-- Numerals hold no separators, so that they are the parts into which a text is cut. -/
theorem cutInto_of_fits (hs : s.toList = spelled parts) (hfits : ∀ f : PciField, f.Fits (parts f)) :
    CutInto parts s := by
  have hdigit (f : PciField) (c : Char) (hc : c ∈ parts f) : Hex.IsDigit c :=
    (PciField.fits_iff.1 (hfits f)).1.isDigit c hc
  refine ⟨hs, fun f hcolon => ?_, fun hpoint => ?_⟩
  · exact absurd (hdigit f ':' hcolon) (by decide)
  · exact absurd (hdigit .device '.' hpoint) (by decide)

/-- The separators of a text cut it, or it has not those of an address. -/
theorem misshapen_or_exists_cutInto (s : String) : Misshapen s ∨ ∃ parts, CutInto parts s := by
  by_cases hcount : s.toList.count ':' = 2
  swap
  · exact .inl (.inl hcount)
  have hlength : (s.toList.splitOn ':').length = 3 := by rw [length_splitOn, hcount]
  obtain ⟨domain, bus, slot, hsplit⟩ := List.length_eq_three.1 hlength
  obtain ⟨hs, hdomain, hbus, hslot⟩ := splitOn_eq_three_iff.1 hsplit
  by_cases hpoint : '.' ∈ slot
  · obtain ⟨device, function, rfl, hdevice⟩ := List.eq_append_cons_of_mem hpoint
    rw [List.mem_append, List.mem_cons, not_or, not_or] at hslot
    refine .inr ⟨fun | .domain => domain | .bus => bus | .device => device | .function => function,
      hs, fun f => ?_, hdevice⟩
    cases f with
    | domain => exact hdomain
    | bus => exact hbus
    | device => exact hslot.1
    | function => exact hslot.2.2
  · exact .inl (.inr ⟨domain, bus, slot, hs, hdomain, hbus, hpoint⟩)

/-- A text without the separators of an address is no address, and nothing in it is blamed. -/
theorem parse_of_misshapen (h : Misshapen s) : parse s = .error (.malformed s) := by
  unfold parse
  split
  case h_2 => rfl
  case h_1 first second third hsplit =>
    rcases h with hcount | ⟨domain, bus, slot, hs, hdomain, hbus, hpoint⟩
    · have hlength := length_splitOn ':' s.toList
      rw [hsplit, List.length_cons, List.length_cons, List.length_singleton] at hlength
      omega
    · rw [hs, List.splitOn_append_cons_self_of_not_mem hdomain,
        List.splitOn_append_cons_self_of_not_mem hbus, List.cons.injEq, List.cons.injEq] at hsplit
      obtain ⟨-, -, hslot⟩ := hsplit
      have hjoin : [':'].intercalate (slot.splitOn ':') = slot := List.intercalate_splitOn ':'
      have hthird : third = slot := by
        rw [← hjoin, hslot]
        simp
      have hall : third.dropWhile (· ≠ '.') = [] := by
        rw [hthird, List.dropWhile_eq_nil_iff]
        intro c hc
        rw [decide_eq_true_iff]
        rintro rfl
        exact hpoint hc
      rw [hall]

/-- **A text that is cut is read part by part.** The first part that does not fit is blamed. -/
theorem parse_eq_of_cut (h : CutInto parts s) :
    parse s = match PciField.firstUnfit? parts with
      | none => .ok (ofParts parts)
      | some f => .error (.field f (String.ofList (parts f))) := by
  have hslot : ':' ∉ parts .device ++ '.' :: parts .function := by
    rw [List.mem_append, List.mem_cons, not_or, not_or]
    exact ⟨h.colon_notMem _, by decide, h.colon_notMem _⟩
  have hsplit : s.toList.splitOn ':' =
      [parts .domain, parts .bus, parts .device ++ '.' :: parts .function] :=
    splitOn_eq_three_iff.2 ⟨h.toList_eq, h.colon_notMem _, h.colon_notMem _, hslot⟩
  have hbefore : ∀ c ∈ parts .device, decide (c ≠ '.') = true := by
    intro c hc
    rw [decide_eq_true_iff]
    rintro rfl
    exact h.point_notMem hc
  unfold parse
  rw [hsplit]
  simp only [List.dropWhile_append_of_pos hbefore, List.takeWhile_append_of_pos hbefore]
  by_cases hdomain : PciField.domain.Fits (parts .domain)
  swap
  · simp [readField_eq, PciField.firstUnfit?, hdomain, bind, Except.bind]
  by_cases hbus : PciField.bus.Fits (parts .bus)
  swap
  · simp [readField_eq, PciField.firstUnfit?, hdomain, hbus, bind, Except.bind]
  by_cases hdevice : PciField.device.Fits (parts .device)
  swap
  · simp [readField_eq, PciField.firstUnfit?, hdomain, hbus, hdevice, bind, Except.bind]
  by_cases hfunction : PciField.function.Fits (parts .function)
  swap
  · simp [readField_eq, PciField.firstUnfit?, hdomain, hbus, hdevice, hfunction, bind, Except.bind]
  simp [readField_eq, PciField.firstUnfit?, hdomain, hbus, hdevice, hfunction, bind, Except.bind,
    pure, Except.pure, ofParts]

/-- Of two faulty parts the first is blamed, and a function is all that follows the first point. -/
example : parse "0:0:20.1.2" = .error (.field .device "20") ∧
    parse "0:0:1f.1.2" = .error (.field .function "1.2") := by
  decide +kernel

theorem firstUnfit?_eq_none_iff :
    PciField.firstUnfit? parts = none ↔ ∀ f : PciField, f.Fits (parts f) := by
  unfold PciField.firstUnfit?
  rw [List.find?_eq_none]
  refine ⟨fun h f => ?_, fun h f _ => by simpa using h f⟩
  have hmem : f ∈ [PciField.domain, .bus, .device, .function] := by cases f <;> decide
  simpa using h f hmem

/-- The fields of the address are the numbers that the parts spell. -/
theorem eq_ofParts_iff {a : PciAddress} (hfits : ∀ f : PciField, f.Fits (parts f)) :
    a = ofParts parts ↔ ∀ f, a.value f = Hex.numeral (parts f) := by
  have hle (f : PciField) : Hex.numeral (parts f) ≤ f.greatest := (PciField.fits_iff.1 (hfits f)).2
  constructor
  · rintro rfl f
    cases f with
    | domain => exact UInt16.toNat_ofNat_of_lt' ((hle .domain).trans_lt (by decide))
    | bus => exact UInt8.toNat_ofNat_of_lt' ((hle .bus).trans_lt (by decide))
    | device => exact UInt8.toNat_ofNat_of_lt' ((hle .device).trans_lt (by decide))
    | function => exact UInt8.toNat_ofNat_of_lt' ((hle .function).trans_lt (by decide))
  · intro h
    obtain ⟨domain, bus, device, function⟩ := a
    unfold ofParts
    rw [← h .domain, ← h .bus, ← h .device, ← h .function]
    simp [value]

/-- **Numerals that fit are written as they were spelled**, in small letters and padded with zeros
to the width of their fields. -/
theorem render_ofParts (hfits : ∀ f : PciField, f.Fits (parts f)) :
    (ofParts parts).render.toList =
      spelled fun f => ((parts f).map Char.toLower).leftpad f.width '0' := by
  have hvalue (f : PciField) : (ofParts parts).value f = Hex.numeral (parts f) :=
    (eq_ofParts_iff hfits).1 rfl f
  have hdigits (f : PciField) : Hex.fixed f.width ((ofParts parts).value f) =
      ((parts f).map Char.toLower).leftpad f.width '0' := by
    obtain ⟨hnumeral, -⟩ := PciField.fits_iff.1 (hfits f)
    rw [hvalue, Hex.fixed_numeral hnumeral.isDigit hnumeral.length_le]
  have hone : (ofParts parts).function.toNat < 16 := by
    have hle := (hfits .function).2
    have hfunction : (ofParts parts).function.toNat = Hex.numeral (parts .function) :=
      hvalue .function
    omega
  unfold render chars spelled
  rw [String.toList_ofList, if_pos hone]
  simp only [← hdigits]
  simp [value, PciField.width]

/-- A text that is spelled with numerals that fit is an address. -/
theorem parse_of_fits (hs : s.toList = spelled parts) (hfits : ∀ f : PciField, f.Fits (parts f)) :
    parse s = .ok (ofParts parts) := by
  rw [parse_eq_of_cut (cutInto_of_fits hs hfits), firstUnfit?_eq_none_iff.2 hfits]

/-- **A text is an address when it is spelled with four parts that fit**, and its fields are the
numbers of these parts. -/
theorem parse_eq_ok_iff {a : PciAddress} :
    parse s = .ok a ↔ ∃ parts, s.toList = spelled parts ∧ (∀ f : PciField, f.Fits (parts f)) ∧
      ∀ f, a.value f = Hex.numeral (parts f) := by
  constructor
  · intro h
    rcases misshapen_or_exists_cutInto s with hmis | ⟨parts, hcut⟩
    · rw [parse_of_misshapen hmis] at h
      cases h
    · rw [parse_eq_of_cut hcut] at h
      split at h
      case h_1 hnone =>
        have hfits := firstUnfit?_eq_none_iff.1 hnone
        exact ⟨parts, hcut.toList_eq, hfits, (eq_ofParts_iff hfits).1 (Except.ok.inj h).symm⟩
      case h_2 => cases h
  · rintro ⟨parts, hs, hfits, hvalue⟩
    rw [parse_of_fits hs hfits, (eq_ofParts_iff hfits).2 hvalue]

/-- A text is reported whole when it has not the separators of an address. -/
theorem parse_eq_malformed_iff {t : String} :
    parse s = .error (.malformed t) ↔ Misshapen s ∧ t = s := by
  constructor
  · intro h
    rcases misshapen_or_exists_cutInto s with hmis | ⟨parts, hcut⟩
    · rw [parse_of_misshapen hmis] at h
      cases h
      exact ⟨hmis, rfl⟩
    · rw [parse_eq_of_cut hcut] at h
      split at h <;> cases h
  · rintro ⟨hmis, rfl⟩
    exact parse_of_misshapen hmis

/-- A part is reported when it is the first that does not fit. -/
theorem parse_eq_field_iff {f : PciField} {text : String} :
    parse s = .error (.field f text) ↔ ∃ parts, CutInto parts s ∧
      PciField.firstUnfit? parts = some f ∧ text = String.ofList (parts f) := by
  constructor
  · intro h
    rcases misshapen_or_exists_cutInto s with hmis | ⟨parts, hcut⟩
    · rw [parse_of_misshapen hmis] at h
      cases h
    · rw [parse_eq_of_cut hcut] at h
      split at h
      case h_1 => cases h
      case h_2 hsome =>
        cases h
        exact ⟨parts, hcut, hsome, rfl⟩
  · rintro ⟨parts, hcut, hfirst, rfl⟩
    rw [parse_eq_of_cut hcut, hfirst]

/-- **The addresses are the spelled numerals, and the first fault is blamed.** A text is an address
exactly when it is spelled with four parts that fit their fields, and then the fields are the
numbers of the parts and the address is written as the text, in small letters and padded. A text
with other separators is reported whole, and in any other text the first part that does not fit. -/
theorem parse_grammar (s : String) :
    (∀ a, parse s = .ok a ↔ ∃ parts, s.toList = spelled parts ∧
      (∀ f : PciField, f.Fits (parts f)) ∧ ∀ f, a.value f = Hex.numeral (parts f)) ∧
      (∀ a parts, parse s = .ok a → s.toList = spelled parts →
        (∀ f : PciField, f.Fits (parts f)) →
        a.render.toList = spelled fun f => ((parts f).map Char.toLower).leftpad f.width '0') ∧
      (∀ t, parse s = .error (.malformed t) ↔ Misshapen s ∧ t = s) ∧
      ∀ f text, parse s = .error (.field f text) ↔ ∃ parts, CutInto parts s ∧
        PciField.firstUnfit? parts = some f ∧ text = String.ofList (parts f) := by
  refine ⟨fun a => parse_eq_ok_iff, fun a parts h hs hfits => ?_,
    fun t => parse_eq_malformed_iff, fun f text => parse_eq_field_iff⟩
  obtain rfl : ofParts parts = a := Except.ok.inj ((parse_of_fits hs hfits).symm.trans h)
  exact render_ofParts hfits

/-- The parts of `a:B:1F.7`. -/
def sampleParts : PciField → List Char
  | .domain => ['a']
  | .bus => ['B']
  | .device => ['1', 'F']
  | .function => ['7']

/-- The address `a:B:1F.7` is written `000a:0b:1f.7`. -/
theorem parse_grammar_sample :
    parse "a:B:1F.7" = .ok ⟨0xa, 0xb, 0x1f, 7⟩ ∧
      render ⟨0xa, 0xb, 0x1f, 7⟩ = "000a:0b:1f.7" := by
  have hs : "a:B:1F.7".toList = spelled sampleParts := by decide
  have hfits : ∀ f : PciField, f.Fits (sampleParts f) := by
    intro f
    cases f <;> decide +kernel
  have hparse : parse "a:B:1F.7" = .ok ⟨0xa, 0xb, 0x1f, 7⟩ := by decide +kernel
  have hrender := (parse_grammar "a:B:1F.7").2.1 _ sampleParts hparse hs hfits
  refine ⟨hparse, String.toList_injective ?_⟩
  rw [hrender]
  decide

end PciAddress
end CardInventory
