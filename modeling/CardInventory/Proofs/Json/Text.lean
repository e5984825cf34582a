import CardInventory.Json.Tree
import CardInventory.Proofs.Text.Hex

/-
# Texts of JSON

A text is a sequence of characters and escapes between quotes (`SpellsText`). The reader ends at the
first quote that is not escaped: it takes a text whole (`readText_append`), and what it takes is
always a text (`exists_of_readText`).

A written character is one unit (`spellsUnit_escapeChar`): a control character without a letter of
its own is a code, every other character itself. The units of a written text spell the text
(`unitText?_units`).
-/

namespace CardInventory
namespace Json

/-! ## The grammar of texts -/

/-- A unit of a text is a character that is none of the quote, the backslash and the controls, a
backslash with the letter of a character, or `\u` with four digits of base 16. -/
inductive SpellsUnit : List Char → TextUnit → Prop
  | char {c : Char} (hquote : c ≠ '"') (hback : c ≠ '\\') (hc : 0x20 ≤ c.toNat) :
      SpellsUnit [c] (.char c)
  | letter {letter c : Char} (h : escape? letter = some c) : SpellsUnit ['\\', letter] (.char c)
  | code {a b c d : Char} {ds : List (Fin 16)} (h : Text.Hex.values? [a, b, c, d] = some ds) :
      SpellsUnit ['\\', 'u', a, b, c, d] (.code (Text.Hex.toNat ds))

/-- Units follow each other without anything between them. -/
inductive SpellsUnits : List Char → List TextUnit → Prop
  | nil : SpellsUnits [] []
  | cons {first rest : List Char} {u : TextUnit} {us : List TextUnit} (hfirst : SpellsUnit first u)
      (hrest : SpellsUnits rest us) : SpellsUnits (first ++ rest) (u :: us)

/-- A text is its units between quotes. -/
inductive SpellsText : List Char → List TextUnit → Prop
  | intro {cs : List Char} {us : List TextUnit} (h : SpellsUnits cs us) :
      SpellsText ('"' :: (cs ++ ['"'])) us

/-! ## Reading texts -/

/-- A unit is read whole. -/
theorem readText_unit {cs : List Char} {u : TextUnit} (h : SpellsUnit cs u) (rest : List Char) :
    readText (cs ++ rest) = (readText rest).map fun r => (u :: r.1, r.2) := by
  cases h with
  | char hquote hback hc =>
    rw [List.singleton_append, readText.eq_def]
    split
    case h_1 heq => cases heq
    case h_2 heq => exact absurd (List.cons.inj heq).1 hquote
    case h_3 heq => exact absurd (List.cons.inj heq).1 hback
    case h_4 heq => exact absurd (List.cons.inj heq).1 hback
    case h_5 heq =>
      obtain ⟨rfl, rfl⟩ := List.cons.inj heq
      exact if_neg (Nat.not_lt.2 hc)
  | @letter letter c h =>
    have hu : letter ≠ 'u' := by
      rintro rfl
      cases h
    rw [List.cons_append, List.singleton_append, readText.eq_def]
    split
    case h_1 heq => cases heq
    case h_2 heq => cases (List.cons.inj heq).1
    case h_3 heq => exact absurd (List.cons.inj (List.cons.inj heq).2).1 hu
    case h_4 heq =>
      obtain ⟨rfl, rfl⟩ := List.cons.inj (List.cons.inj heq).2
      rw [h]
      cases readText rest <;> rfl
    case h_5 hletter heq =>
      obtain ⟨rfl, rfl⟩ := List.cons.inj heq
      exact (hletter _ _ rfl rfl).elim
  | code h =>
    simp only [List.cons_append, List.nil_append, readText, h]
    cases readText rest <;> rfl

/-- **A text is read up to its closing quote.** -/
theorem readText_append {cs : List Char} {us : List TextUnit} (h : SpellsUnits cs us)
    (rest : List Char) : readText (cs ++ '"' :: rest) = some (us, rest) := by
  induction h with
  | nil => rfl
  | cons hfirst _ ih =>
    rw [List.append_assoc, readText_unit hfirst, ih]
    rfl

/-- **What is read as a text is one.** The cases are those of the reader. -/
theorem exists_of_readText {cs rest : List Char} {us : List TextUnit}
    (h : readText cs = some (us, rest)) : ∃ written, cs = written ++ '"' :: rest ∧
      SpellsUnits written us := by
  -- a unit before what the rest of the text spells
  have hcons : ∀ {first cs u us}, SpellsUnit first u →
      (∃ written, cs = written ++ '"' :: rest ∧ SpellsUnits written us) →
        ∃ written, first ++ cs = written ++ '"' :: rest ∧ SpellsUnits written (u :: us) := by
    rintro first cs u us hfirst ⟨written, rfl, hwritten⟩
    exact ⟨first ++ written, (List.append_assoc ..).symm, .cons hfirst hwritten⟩
  fun_induction readText cs generalizing us with
  | case1 => cases h
  | case2 =>
    obtain ⟨rfl, rfl⟩ := Prod.mk.inj (Option.some.inj h)
    exact ⟨[], rfl, .nil⟩
  | case3 a b c d cs ds units after hread hvalues ih =>
    obtain ⟨rfl, rfl⟩ := Prod.mk.inj (Option.some.inj h)
    exact hcons (.code hvalues) (ih hread)
  | case5 letter cs _ c units after hread hletter ih =>
    obtain ⟨rfl, rfl⟩ := Prod.mk.inj (Option.some.inj h)
    exact hcons (.letter hletter) (ih hread)
  | case8 c cs hquote _ hletter hc ih =>
    obtain ⟨⟨units, after⟩, hread, heq⟩ := Option.map_eq_some_iff.1 h
    obtain ⟨rfl, rfl⟩ := Prod.mk.inj heq
    refine hcons (.char hquote ?_ (Nat.not_lt.1 hc)) (ih hread)
    -- a backslash is followed by something, which would have made it an escape
    rintro rfl
    cases cs with
    | nil => cases hread
    | cons c cs => exact hletter c cs rfl rfl
  | _ => cases h

/-! ## Written texts -/

/-- The unit that a written character is read as. -/
def TextUnit.ofChar (c : Char) : TextUnit :=
  if c.toNat < 0x20 ∧ c ∉ ['\x08', '\x0c', '\n', '\r', '\t'] then .code c.toNat else .char c

/-- The units that a written text is read as. -/
def units (s : String) : List TextUnit := s.toList.map TextUnit.ofChar

/-- A code below the surrogates stands for itself. -/
theorem unitChars?_code_cons {n : ℕ} (h : n < 0xd800) (rest : List TextUnit) :
    unitChars? (.code n :: rest) = (unitChars? rest).map (Char.ofNat n :: ·) := by
  rw [unitChars?.eq_def]
  exact if_pos (.inl h)

/-- **Units spell the text they come from.** -/
theorem unitText?_units (s : String) : unitText? (units s) = some s := by
  have hchars : ∀ cs : List Char, unitChars? (cs.map TextUnit.ofChar) = some cs := by
    intro cs
    induction cs with
    | nil => rfl
    | cons c rest ih =>
      rw [List.map_cons, TextUnit.ofChar]
      split_ifs with h
      · rw [unitChars?_code_cons (by omega), ih, Char.ofNat_toNat]
        rfl
      · rw [unitChars?, ih]
        rfl
  rw [unitText?, units, hchars, Option.map_some, String.ofList_toList]

/-- Four digits after `\u` are the number that they write. -/
theorem spellsUnit_code {n : ℕ} (h : n < 0x20) :
    SpellsUnit (['\\', 'u', '0', '0'] ++ Text.Hex.fixed 2 n) (.code n) := by
  have hfixed : ['0', '0'] ++ Text.Hex.fixed 2 n = Text.Hex.fixed 4 n := by
    have hzero : n / 16 / 16 = 0 := by omega
    simp only [Text.Hex.fixed, hzero, Nat.zero_div]
    rfl
  have hvalues : Text.Hex.values? (Text.Hex.fixed 4 n) = some (Text.Hex.digits 4 n) := by
    rw [Text.Hex.fixed_eq_map_digit, Text.Hex.values?_map_digit]
  have hnumber : Text.Hex.toNat (Text.Hex.digits 4 n) = n := by
    rw [Text.Hex.toNat_digits]
    exact Nat.mod_eq_of_lt (by omega)
  obtain ⟨a, b, hab⟩ : ∃ a b, Text.Hex.fixed 2 n = [a, b] := ⟨_, _, rfl⟩
  rw [← hfixed, hab] at hvalues
  have hcode := SpellsUnit.code hvalues
  rw [hnumber] at hcode
  rw [hab]
  exact hcode

/-- **A written character is one unit.** -/
theorem spellsUnit_escapeChar (c : Char) : SpellsUnit (escapeChar c) (.ofChar c) := by
  unfold escapeChar
  split
  case h_8 h₁ h₂ h₃ h₄ h₅ h₆ h₇ =>
    split_ifs with hsmall
    · rw [TextUnit.ofChar, if_pos]
      · exact spellsUnit_code hsmall
      · refine ⟨hsmall, ?_⟩
        simp only [List.mem_cons, List.not_mem_nil, or_false, not_or]
        exact ⟨h₃, h₄, h₅, h₆, h₇⟩
    · rw [TextUnit.ofChar, if_neg fun h => hsmall h.1]
      exact .char h₁ h₂ (Nat.not_lt.1 hsmall)
  -- an escape of two characters
  all_goals exact .letter rfl

/-- **A written text is a text.** -/
theorem spellsText_textChars (s : String) : SpellsText (textChars s) (units s) := by
  have hunits : SpellsUnits (s.toList.flatMap escapeChar) (units s) := by
    unfold units
    induction s.toList with
    | nil => exact .nil
    | cons c cs ih => exact .cons (spellsUnit_escapeChar c) ih
  exact .intro hunits

end Json
end CardInventory
