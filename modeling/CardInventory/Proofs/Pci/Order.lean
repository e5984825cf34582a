import CardInventory.Proofs.Pci.Codec
import CardInventory.Proofs.Text.Bytes
import Mathlib.Data.List.Sort

/-
# Addresses in order

Addresses are compared field by field. Where the fields are in the range that texts can give them,
their numbers are in the same order (`lt_iff_number_lt`), and so are their written texts
(`render_lt_render_iff`), since each field is written with as many digits as any other value of it.

To sort addresses is to bring them into an order in which none comes before a lesser one (`Sorts`).
As different addresses are never equally great, there is one such list (`eq_sort_iff`), and it is
the
same list whichever of the three orders it is sorted by (`orders_coincide`).
-/

namespace CardInventory
namespace PciAddress

open Text

variable {a b : PciAddress}

/-- The first field that differs decides. -/
theorem lt_iff_fields : a < b ↔
    a.domain.toNat < b.domain.toNat ∨ a.domain.toNat = b.domain.toNat ∧
      (a.bus.toNat < b.bus.toNat ∨ a.bus.toNat = b.bus.toNat ∧
        (a.device.toNat < b.device.toNat ∨ a.device.toNat = b.device.toNat ∧
          a.function.toNat < b.function.toNat)) := by
  change a.fields < b.fields ↔ _
  simp [fields, List.cons_lt_cons_iff]

/-- **Numbers are in the order of the addresses.** -/
theorem lt_iff_number_lt (ha : a.InRange) (hb : b.InRange) : a < b ↔ a.number < b.number := by
  have := ha.device_le
  have := ha.function_le
  have := hb.device_le
  have := hb.function_le
  have := a.bus.toNat_lt
  have := b.bus.toNat_lt
  rw [lt_iff_fields]
  unfold number
  omega

/-- The written text of an address in range. -/
theorem chars_eq (h : a.InRange) : a.chars =
    Hex.fixed 4 a.domain.toNat ++ ':' :: (Hex.fixed 2 a.bus.toNat ++ ':' ::
      (Hex.fixed 2 a.device.toNat ++ '.' :: Hex.fixed 1 a.function.toNat)) := by
  have hwidth : a.function.toNat < 16 := by have := h.function_le; omega
  unfold chars
  rw [if_pos hwidth]
  simp only [List.append_assoc, List.cons_append, List.nil_append]

/-- **Written texts are in the order of the addresses.** -/
theorem render_lt_render_iff (ha : a.InRange) (hb : b.InRange) : a.render < b.render ↔ a < b := by
  have hdevice : ∀ {c : PciAddress}, c.InRange → c.device.toNat < 16 ^ 2 := fun hc =>
    lt_of_le_of_lt hc.device_le (by decide)
  have hfunction : ∀ {c : PciAddress}, c.InRange → c.function.toNat < 16 ^ 1 := fun hc =>
    lt_of_le_of_lt hc.function_le (by decide)
  rw [String.lt_iff_toList_lt, render, render, String.toList_ofList, String.toList_ofList,
    chars_eq ha, chars_eq hb, lt_iff_fields,
    Hex.fixed_append_lt_iff a.domain.toNat_lt b.domain.toNat_lt, List.cons_lt_cons_self,
    Hex.fixed_append_lt_iff a.bus.toNat_lt b.bus.toNat_lt, List.cons_lt_cons_self,
    Hex.fixed_append_lt_iff (hdevice ha) (hdevice hb), List.cons_lt_cons_self,
    Hex.fixed_lt_fixed_iff (hfunction ha) (hfunction hb)]

/-! ## Sorting -/

/-- Are these the given addresses, none of them before one that is less? -/
structure Sorts (less : PciAddress → PciAddress → Prop) (given sorted : List PciAddress) :
    Prop where
  perm : sorted.Perm given
  ascending : sorted.Pairwise fun a b => ¬ less b a

variable {given sorted : List PciAddress}

/-- Orders that agree on the given addresses sort them alike. -/
theorem sorts_congr {less less' : PciAddress → PciAddress → Prop}
    (h : ∀ a ∈ given, ∀ b ∈ given, less a b ↔ less' a b) :
    Sorts less given sorted ↔ Sorts less' given sorted := by
  have hpairs (hperm : sorted.Perm given) :
      (sorted.Pairwise fun a b => ¬ less b a) ↔ sorted.Pairwise fun a b => ¬ less' b a :=
    List.Pairwise.iff_of_mem fun ha hb =>
      not_congr (h _ (hperm.mem_iff.1 hb) _ (hperm.mem_iff.1 ha))
  exact ⟨fun hs => ⟨hs.perm, (hpairs hs.perm).1 hs.ascending⟩,
    fun hs => ⟨hs.perm, (hpairs hs.perm).2 hs.ascending⟩⟩

theorem not_lt_iff : ¬ b < a ↔ a.fields ≤ b.fields := not_lt (α := List ℕ)

/-- Addresses of which neither is less are the same. -/
theorem eq_of_not_lt (hab : ¬ a < b) (hba : ¬ b < a) : a = b := by
  have hfields : a.fields = b.fields := le_antisymm (not_lt_iff.1 hba) (not_lt_iff.1 hab)
  cases a
  cases b
  simpa [fields, UInt16.toNat_inj, UInt8.toNat_inj] using hfields

/-- **There is one list of given addresses in ascending order.** -/
theorem eq_sort_iff : sorted = sort given ↔ Sorts (· < ·) given sorted := by
  have htrans (a b c : PciAddress) (hab : !decide (b < a)) (hbc : !decide (c < b)) :
      !decide (c < a) := by
    simp only [Bool.not_eq_true', decide_eq_false_iff_not, not_lt_iff] at hab hbc ⊢
    exact hab.trans hbc
  have htotal (a b : PciAddress) : !decide (b < a) || !decide (a < b) := by
    simp only [Bool.or_eq_true, Bool.not_eq_true', decide_eq_false_iff_not, not_lt_iff]
    exact le_total a.fields b.fields
  have hsort : Sorts (· < ·) given (sort given) :=
    ⟨List.mergeSort_perm .., (List.pairwise_mergeSort htrans htotal given).imp fun h => by
      simpa using h⟩
  refine ⟨fun h => h ▸ hsort, fun h => ?_⟩
  exact (h.perm.trans hsort.perm.symm).eq_of_pairwise (fun _ _ _ _ hab hba => eq_of_not_lt hba hab)
    h.ascending hsort.ascending

/-- **The three orders of addresses coincide.** In range an address is less than another where its
number is, and where the bytes of its written text are. So addresses in range that are sorted by
value, by number or by text, in whatever way, come out as one list. -/
theorem orders_coincide :
    (∀ a b : PciAddress, a.InRange → b.InRange →
      (a < b ↔ a.number < b.number) ∧ (a.number < b.number ↔ utf8 a.render < utf8 b.render)) ∧
    ∀ given sorted : List PciAddress, (∀ a ∈ given, a.InRange) →
      (sorted = sort given ↔ Sorts (· < ·) given sorted) ∧
      (sorted = sort given ↔ Sorts (fun a b => a.number < b.number) given sorted) ∧
      (sorted = sort given ↔ Sorts (fun a b => utf8 a.render < utf8 b.render) given sorted) := by
  have hnumber (a b : PciAddress) (ha : a.InRange) (hb : b.InRange) :
      a < b ↔ a.number < b.number := lt_iff_number_lt ha hb
  have htext (a b : PciAddress) (ha : a.InRange) (hb : b.InRange) :
      a < b ↔ utf8 a.render < utf8 b.render := by
    rw [utf8_lt_utf8_iff, render_lt_render_iff ha hb]
  refine ⟨fun a b ha hb => ⟨hnumber a b ha hb, (hnumber a b ha hb).symm.trans (htext a b ha hb)⟩,
    fun given sorted h => ⟨eq_sort_iff, ?_, ?_⟩⟩
  · exact eq_sort_iff.trans (sorts_congr fun a ha b hb => hnumber a b (h a ha) (h b hb))
  · exact eq_sort_iff.trans (sorts_congr fun a ha b hb => htext a b (h a ha) (h b hb))

/-- Addresses of which a greater one has the lesser device, and another the lesser bus. -/
def sampleShuffled : List PciAddress :=
  [⟨0, 0xb, 0, 0⟩, ⟨1, 0, 0, 0⟩, ⟨0, 0xa, 0x1f, 7⟩, ⟨0, 9, 0, 1⟩]

/-- The same addresses by their numbers. -/
def sampleSorted : List PciAddress :=
  [⟨0, 9, 0, 1⟩, ⟨0, 0xa, 0x1f, 7⟩, ⟨0, 0xb, 0, 0⟩, ⟨1, 0, 0, 0⟩]

/-- Sorted by number the sample is sorted by value and by text, and two of its addresses are
compared in all three ways. -/
theorem orders_coincide_sample :
    sampleSorted = sort sampleShuffled ∧
      Sorts (fun a b => utf8 a.render < utf8 b.render) sampleShuffled sampleSorted ∧
      (⟨0, 0xa, 0x1f, 7⟩ : PciAddress) < ⟨0, 0xb, 0, 0⟩ ∧
      utf8 (render ⟨0, 0xa, 0x1f, 7⟩) < utf8 (render ⟨0, 0xb, 0, 0⟩) := by
  have hrange : ∀ a ∈ sampleShuffled, a.InRange := by
    have hfields : ∀ a ∈ sampleShuffled, a.device.toNat ≤ 0x1f ∧ a.function.toNat ≤ 0x7 := by decide
    exact fun a ha => ⟨(hfields a ha).1, (hfields a ha).2⟩
  have hnumber : Sorts (fun a b => a.number < b.number) sampleShuffled sampleSorted :=
    ⟨by decide, by decide⟩
  obtain ⟨horders, hsorts⟩ := orders_coincide
  obtain ⟨-, hbyNumber, hbyText⟩ := hsorts sampleShuffled sampleSorted hrange
  have hsorted := hbyNumber.2 hnumber
  obtain ⟨hvalue, htext⟩ := horders ⟨0, 0xa, 0x1f, 7⟩ ⟨0, 0xb, 0, 0⟩ (hrange _ (by decide))
    (hrange _ (by decide))
  exact ⟨hsorted, hbyText.1 hsorted, hvalue.2 (by decide), htext.1 (by decide)⟩

end PciAddress
end CardInventory
