import CardInventory.Proofs.Text.Hex
import Mathlib.Data.List.Infix
import Mathlib.Data.String.Basic

/-
# Texts in the order of their bytes

Texts are compared by code points. In UTF-8 that is the order of their bytes (`utf8_lt_utf8_iff`):
of two characters the lesser one has the lesser bytes, whatever follows either of them
(`utf8EncodeChar_append_lt`), since more bytes begin with a greater byte, and bytes of one count
are digits of the code point. So different characters never have bytes that begin alike, and a text
begins with the bytes of another where it begins with its characters (`utf8_prefix_utf8_iff`).
-/

namespace CardInventory
namespace Text

/-- The bytes of a text in UTF-8. -/
def utf8 (s : String) : List UInt8 := s.toUTF8.data.toList

/-- The bytes are those of the characters, one after the other. -/
theorem utf8_eq_flatMap (s : String) : utf8 s = s.toList.flatMap String.utf8EncodeChar := by
  have hencode : s.toUTF8 = s.toList.utf8Encode := by
    conv_lhs => rw [← String.ofList_toList (s := s)]
    rfl
  rw [utf8, hencode, List.utf8Encode]
  exact List.toList_data_toByteArray

/-- **The bytes of a lesser character are less**, whatever follows. -/
theorem utf8EncodeChar_append_lt {c d : Char} (h : c < d) (rest₁ rest₂ : List UInt8) :
    String.utf8EncodeChar c ++ rest₁ < String.utf8EncodeChar d ++ rest₂ := by
  have hval : c.val.toNat < d.val.toNat := h
  have hgreatest : d.val.toNat < 0x110000 := by
    rcases d.valid with hd | hd <;> omega
  -- the digits of the two code points in base 64, the first ones first
  have := Nat.div_le_div_right (c := 262144) hval.le
  have := Nat.div_le_div_right (c := 4096) hval.le
  have := Nat.div_le_div_right (c := 64) hval.le
  unfold String.utf8EncodeChar
  simp only
  split_ifs <;>
    simp only [List.cons_append, List.nil_append, List.cons_lt_cons_iff, UInt8.lt_iff_toNat_lt,
      ← UInt8.toNat_inj, UInt8.toNat_ofNat'] <;>
    simp (disch := omega) only [Nat.mod_eq_of_lt]
  all_goals omega

/-- The first character that differs decides, in the bytes as well. -/
theorem flatMap_utf8EncodeChar_lt {cs ds : List Char} (h : cs < ds) :
    cs.flatMap String.utf8EncodeChar < ds.flatMap String.utf8EncodeChar := by
  induction cs generalizing ds with
  | nil =>
    cases ds with
    | nil => exact absurd h (List.lt_irrefl _)
    | cons d ds =>
      have hne : String.utf8EncodeChar d ≠ [] := String.utf8EncodeChar_ne_nil
      obtain ⟨byte, rest, hbytes⟩ := List.exists_cons_of_ne_nil hne
      rw [List.flatMap_nil, List.flatMap_cons, hbytes]
      exact List.nil_lt_cons ..
  | cons c cs ih =>
    cases ds with
    | nil => exact absurd h (List.not_lt_nil _)
    | cons d ds =>
      rw [List.flatMap_cons, List.flatMap_cons]
      rcases List.cons_lt_cons_iff.1 h with hlt | ⟨rfl, hlt⟩
      · exact utf8EncodeChar_append_lt hlt _ _
      · exact (Hex.append_lt_append_iff rfl).2 (.inr ⟨rfl, ih hlt⟩)

/-- **Texts are in the order of their bytes.** -/
theorem utf8_lt_utf8_iff {s t : String} : utf8 s < utf8 t ↔ s < t := by
  have hmono {s t : String} (h : s < t) : utf8 s < utf8 t := by
    rw [utf8_eq_flatMap, utf8_eq_flatMap]
    exact flatMap_utf8EncodeChar_lt (String.lt_iff_toList_lt.1 h)
  refine ⟨fun h => ?_, hmono⟩
  rcases lt_trichotomy s t with hlt | rfl | hlt
  · exact hlt
  · exact absurd h (List.lt_irrefl _)
  · exact absurd (hmono hlt) (List.lt_asymm h)

/-- Bytes begin with those of one character only. -/
theorem eq_of_utf8EncodeChar_append_eq {c d : Char} {rest₁ rest₂ : List UInt8}
    (h : String.utf8EncodeChar c ++ rest₁ = String.utf8EncodeChar d ++ rest₂) : c = d := by
  rcases lt_trichotomy c d with hlt | heq | hlt
  · have hbytes := utf8EncodeChar_append_lt hlt rest₁ rest₂
    rw [h] at hbytes
    exact absurd hbytes (List.lt_irrefl _)
  · exact heq
  · have hbytes := utf8EncodeChar_append_lt hlt rest₂ rest₁
    rw [h] at hbytes
    exact absurd hbytes (List.lt_irrefl _)

/-- So the bytes of a text tell where each of its characters ends. -/
theorem prefix_of_flatMap_utf8EncodeChar {cs ds : List Char}
    (h : cs.flatMap String.utf8EncodeChar <+: ds.flatMap String.utf8EncodeChar) : cs <+: ds := by
  induction cs generalizing ds with
  | nil => exact List.nil_prefix
  | cons c cs ih =>
    cases ds with
    | nil =>
      rw [List.flatMap_cons, List.flatMap_nil, List.prefix_nil, List.append_eq_nil_iff] at h
      exact absurd h.1 String.utf8EncodeChar_ne_nil
    | cons d ds =>
      rw [List.flatMap_cons, List.flatMap_cons] at h
      obtain ⟨rest, hrest⟩ := h
      rw [List.append_assoc] at hrest
      obtain rfl := eq_of_utf8EncodeChar_append_eq hrest
      exact List.cons_prefix_cons.2 ⟨rfl, ih ⟨rest, List.append_cancel_left hrest⟩⟩

/-- **A text begins with another in its bytes where it does in its characters.** -/
theorem utf8_prefix_utf8_iff {s t : String} : utf8 s <+: utf8 t ↔ s.toList <+: t.toList := by
  rw [utf8_eq_flatMap, utf8_eq_flatMap]
  exact ⟨prefix_of_flatMap_utf8EncodeChar, fun h => h.flatMap _⟩

end Text
end CardInventory
