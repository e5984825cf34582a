import CardInventory.Proofs.Json.Number
import CardInventory.Proofs.Json.Text

/-
# The grammar of JSON

`Spells` says which characters spell which tree, by the rules of the grammar and apart from any
reader: where blanks may stand, how items and members follow each other. The reader follows these
rules and no others. What is spelled is read (`readsAs_of_spells`), by induction on the rules, two
steps for each character being enough; what is read to its end is spelled (`readsSpelled`), by
induction on the steps. So a text is read without any fault exactly where it spells the tree
(`readTree_eq_iff`).
-/

namespace CardInventory
namespace Json

/-! ## Blanks -/

/-- Does a text consist of blanks? -/
def Spaces (cs : List Char) : Prop := ∀ c ∈ cs, isSpace c = true

theorem spaces_nil : Spaces [] := List.forall_mem_nil _

theorem skip_append {blanks : List Char} (h : Spaces blanks) (cs : List Char) :
    skip (blanks ++ cs) = skip cs :=
  List.dropWhile_append_of_pos h

theorem skip_cons {c : Char} (h : isSpace c = false) (cs : List Char) : skip (c :: cs) = c :: cs :=
  List.dropWhile_cons_of_neg (by simp [h])

/-- What is passed over are blanks. -/
theorem exists_spaces_append (cs : List Char) : ∃ blanks, Spaces blanks ∧ cs = blanks ++ skip cs :=
  ⟨cs.takeWhile isSpace, fun _ h => List.mem_takeWhile_imp h, List.takeWhile_append_dropWhile.symm⟩

theorem mem_of_isSpace {c : Char} (h : isSpace c = true) : c ∈ [' ', '\n', '\t', '\r'] := by
  simpa [isSpace, or_assoc] using h

/-- No blank and none of these marks belongs to a number. -/
theorem no_number_of_mark : ∀ c ∈ [',', ']', '\x7d', ' ', '\n', '\t', '\r'],
    c.isDigit = false ∧ c ≠ '.' ∧ isExponentLetter c = false := by
  simp [Char.isDigit, isExponentLetter]

theorem endsNumber_nil : EndsNumber [] := fun _ h => by cases h

theorem endsNumber_cons {c : Char} (hc : c ∈ [',', ']', '\x7d', ' ', '\n', '\t', '\r'])
    (rest : List Char) : EndsNumber (c :: rest) := by
  intro d hd
  obtain rfl := Option.some.inj hd
  exact no_number_of_mark c hc

/-- Blanks belong to no number. -/
theorem EndsNumber.append {blanks rest : List Char} (hblanks : Spaces blanks)
    (h : EndsNumber rest) : EndsNumber (blanks ++ rest) := by
  cases blanks with
  | nil => exact h
  | cons c blanks =>
    have hc := mem_of_isSpace (hblanks c List.mem_cons_self)
    exact endsNumber_cons (List.mem_append_right [',', ']', '\x7d'] hc) _

/-! ## The rules -/

/-- What a part of a text may stand for. -/
inductive Phrase where
  | value (t : Tree)
  /-- A value with the blanks around it. -/
  | item (t : Tree)
  /-- One item or more, between commas. -/
  | items (ts : List Tree)
  /-- A key and a value, with the blanks around them. -/
  | member (m : List TextUnit × Tree)
  /-- One member or more, between commas. -/
  | members (ms : List (List TextUnit × Tree))

/-- The characters of a phrase. -/
inductive Spells : List Char → Phrase → Prop
  | nullWord : Spells ['n', 'u', 'l', 'l'] (.value .null)
  | trueWord : Spells ['t', 'r', 'u', 'e'] (.value (.bool true))
  | falseWord : Spells ['f', 'a', 'l', 's', 'e'] (.value (.bool false))
  | number {cs : List Char} {l : NumberLiteral} (h : SpellsNumber cs l) :
      Spells cs (.value (.number l))
  | text {cs : List Char} {us : List TextUnit} (h : SpellsText cs us) :
      Spells cs (.value (.text us))
  | emptyArray {blanks : List Char} (h : Spaces blanks) :
      Spells ('[' :: (blanks ++ [']'])) (.value (.array [] true))
  | array {cs : List Char} {ts : List Tree} (h : Spells cs (.items ts)) :
      Spells ('[' :: (cs ++ [']'])) (.value (.array ts true))
  | emptyObject {blanks : List Char} (h : Spaces blanks) :
      Spells ('\x7b' :: (blanks ++ ['\x7d'])) (.value (.object [] true))
  | object {cs : List Char} {ms : List (List TextUnit × Tree)} (h : Spells cs (.members ms)) :
      Spells ('\x7b' :: (cs ++ ['\x7d'])) (.value (.object ms true))
  | item {before cs after : List Char} {t : Tree} (hbefore : Spaces before)
      (h : Spells cs (.value t)) (hafter : Spaces after) :
      Spells (before ++ (cs ++ after)) (.item t)
  | lastItem {cs : List Char} {t : Tree} (h : Spells cs (.item t)) : Spells cs (.items [t])
  | moreItems {cs rest : List Char} {t : Tree} {ts : List Tree} (h : Spells cs (.item t))
      (hrest : Spells rest (.items ts)) : Spells (cs ++ ',' :: rest) (.items (t :: ts))
  | member {before key after cs : List Char} {us : List TextUnit} {t : Tree}
      (hbefore : Spaces before) (hkey : SpellsText key us) (hafter : Spaces after)
      (h : Spells cs (.item t)) : Spells (before ++ (key ++ (after ++ ':' :: cs))) (.member (us, t))
  | lastMember {cs : List Char} {m : List TextUnit × Tree} (h : Spells cs (.member m)) :
      Spells cs (.members [m])
  | moreMembers {cs rest : List Char} {m : List TextUnit × Tree} {ms : List (List TextUnit × Tree)}
      (h : Spells cs (.member m)) (hrest : Spells rest (.members ms)) :
      Spells (cs ++ ',' :: rest) (.members (m :: ms))

/-- Is a phrase of many parts made of phrases of one part with commas between them? -/
structure Separated {α : Type} (one : α → Phrase) (many : List α → Phrase) : Prop where
  last : ∀ {cs a}, Spells cs (one a) → Spells cs (many [a])
  more : ∀ {cs rest a as}, Spells cs (one a) → Spells rest (many as) →
    Spells (cs ++ ',' :: rest) (many (a :: as))

theorem separated_items : Separated Phrase.item Phrase.items := ⟨.lastItem, .moreItems⟩

theorem separated_members : Separated Phrase.member Phrase.members := ⟨.lastMember, .moreMembers⟩

/-- Is a phrase free of faults? -/
def Phrase.intact : Phrase → Bool
  | value t => t.intact
  | item t => t.intact
  | items ts => Tree.itemsIntact ts
  | member m => m.2.intact
  | members ms => Tree.membersIntact ms

/-- **What is spelled has no fault.** -/
theorem Spells.intact {cs : List Char} {p : Phrase} (h : Spells cs p) : p.intact = true := by
  induction h with
  | nullWord => rfl
  | trueWord => rfl
  | falseWord => rfl
  | number => rfl
  | text => rfl
  | emptyArray => rfl
  | array _ ih =>
    rw [Phrase.intact, Tree.intact, Bool.and_true]
    exact ih
  | emptyObject => rfl
  | object _ ih =>
    rw [Phrase.intact, Tree.intact, Bool.and_true]
    exact ih
  | item _ _ _ ih => exact ih
  | lastItem _ ih =>
    rw [Phrase.intact, Tree.itemsIntact, Bool.and_eq_true]
    exact ⟨ih, rfl⟩
  | moreItems _ _ ih ihrest =>
    rw [Phrase.intact, Tree.itemsIntact, Bool.and_eq_true]
    exact ⟨ih, ihrest⟩
  | member _ _ _ _ ih => exact ih
  | lastMember _ ih =>
    rw [Phrase.intact, Tree.membersIntact, Bool.and_eq_true]
    exact ⟨ih, rfl⟩
  | moreMembers _ _ ih ihrest =>
    rw [Phrase.intact, Tree.membersIntact, Bool.and_eq_true]
    exact ⟨ih, ihrest⟩

/-! ## What is spelled is read -/

/-- What stands between two marks, and what follows them. -/
theorem enclosed_append (left right : Char) (cs rest : List Char) :
    left :: (cs ++ [right]) ++ rest = left :: (cs ++ right :: rest) := by
  rw [List.cons_append, List.append_assoc, List.singleton_append]

/-- Blanks before a value are passed over. -/
theorem readValue_append {blanks : List Char} (h : Spaces blanks) (fuel : ℕ) (cs : List Char) :
    readValue fuel (blanks ++ cs) = readValue fuel cs := by
  cases fuel with
  | zero => rfl
  | succ fuel => rw [readValue, readValue, skip_append h]

/-- No value starts with a closing bracket. -/
theorem skip_ne_of_readValue {fuel : ℕ} {cs rest : List Char} {t : Tree}
    (h : readValue fuel cs = (t, some rest)) (cs' : List Char) : skip cs ≠ ']' :: cs' := by
  intro heq
  cases fuel with
  | zero => cases h
  | succ fuel =>
    rw [readValue, heq] at h
    cases h

/-- A digit starts a number. -/
theorem readValue_digit {d : Char} (hd : d.isDigit = true) (fuel : ℕ) (cs : List Char) :
    readValue (fuel + 1) (d :: cs) = leaf .number (readMagnitude? false (d :: cs)) := by
  have hne : ∀ c, c.isDigit = false → d ≠ c := fun c hc heq => by
    rw [heq, hc] at hd
    cases hd
  have hspace : isSpace d = false := by
    simp only [isSpace, Bool.or_eq_false_iff, beq_eq_false_iff_ne]
    exact ⟨⟨⟨hne _ rfl, hne _ rfl⟩, hne _ rfl⟩, hne _ rfl⟩
  rw [readValue, skip_cons hspace]
  split
  case h_8 => rfl
  all_goals
    rename_i heq
    exact absurd (List.cons.inj heq).1 (hne _ rfl)

/-- A number is read up to what cannot belong to it. -/
theorem readValue_number {cs rest : List Char} {l : NumberLiteral} (h : SpellsNumber cs l)
    (hrest : EndsNumber rest) (fuel : ℕ) :
    readValue (fuel + 1) (cs ++ rest) = (.number l, some rest) := by
  cases h with
  | positive hminus h =>
    have hread := readMagnitude?_append h hrest
    obtain ⟨d, ds, hds⟩ := List.exists_cons_of_ne_nil h.whole.ne_nil
    have hd : d.isDigit = true := h.whole.isDigit d (hds ▸ List.mem_cons_self)
    obtain ⟨fraction, exponent, rfl, -⟩ := h.parts
    rw [hds, hminus] at hread
    rw [hds]
    simp only [List.cons_append] at hread ⊢
    rw [readValue_digit hd, hread]
    rfl
  | @negative cs _ hminus h =>
    have hread := readMagnitude?_append h hrest
    have hvalue : readValue (fuel + 1) ('-' :: cs ++ rest) =
        leaf .number (readMagnitude? true (cs ++ rest)) := rfl
    rw [hvalue, ← hminus, hread]
    rfl

theorem readValue_text {cs : List Char} {us : List TextUnit} (h : SpellsText cs us)
    (rest : List Char) (fuel : ℕ) :
    readValue (fuel + 1) (cs ++ rest) = (.text us, some rest) := by
  cases h with
  | @intro cs _ h =>
    have hvalue : readValue (fuel + 1) ('"' :: (cs ++ '"' :: rest)) =
        leaf .text (readText (cs ++ '"' :: rest)) := rfl
    rw [enclosed_append, hvalue, readText_append h]
    rfl

theorem readValue_array {fuel : ℕ} {cs rest : List Char} {items : List Tree}
    (h : readItems fuel cs = (items, some rest)) :
    readValue (fuel + 1) ('[' :: cs) = (.array items true, some rest) := by
  rw [readValue, skip_cons rfl]
  simp only
  split
  case h_1 hskip =>
    -- no item starts with the closing bracket
    cases fuel with
    | zero => cases h
    | succ fuel =>
      rw [readItems] at h
      split at h
      case h_1 => cases h
      case h_2 hvalue => exact absurd hskip (skip_ne_of_readValue hvalue _)
  case h_2 =>
    rw [h]
    rfl

theorem readValue_object {fuel : ℕ} {cs rest : List Char} {members : List (List TextUnit × Tree)}
    (h : readMembers fuel cs = (members, some rest)) :
    readValue (fuel + 1) ('\x7b' :: cs) = (.object members true, some rest) := by
  rw [readValue, skip_cons rfl]
  simp only
  split
  case h_1 hskip =>
    -- nor does a member start with the closing brace
    cases fuel with
    | zero => cases h
    | succ fuel =>
      rw [readMembers, hskip] at h
      cases h
  case h_2 =>
    rw [h]
    rfl

theorem readValue_emptyArray {blanks : List Char} (h : Spaces blanks) (rest : List Char)
    (fuel : ℕ) :
    readValue (fuel + 1) ('[' :: (blanks ++ ']' :: rest)) = (.array [] true, some rest) := by
  rw [readValue, skip_cons rfl]
  simp only [skip_append h, skip_cons (show isSpace ']' = false from rfl)]

theorem readValue_emptyObject {blanks : List Char} (h : Spaces blanks) (rest : List Char)
    (fuel : ℕ) :
    readValue (fuel + 1) ('\x7b' :: (blanks ++ '\x7d' :: rest)) =
      (.object [] true, some rest) := by
  rw [readValue, skip_cons rfl]
  simp only [skip_append h, skip_cons (show isSpace '\x7d' = false from rfl)]

/-- After its key and a colon the value of a member is read, and then what follows decides. -/
theorem readMembers_member {before key after cs rest : List Char} {us : List TextUnit}
    {t : Tree} (hbefore : Spaces before) (hkey : SpellsText key us) (hafter : Spaces after)
    {fuel : ℕ} (h : readValue fuel cs = (t, some rest)) (rest' : List Char) :
    (skip rest = '\x7d' :: rest' →
      readMembers (fuel + 1) (before ++ (key ++ (after ++ ':' :: cs))) =
        ([(us, t)], some rest')) ∧
    (skip rest = ',' :: rest' →
      readMembers (fuel + 1) (before ++ (key ++ (after ++ ':' :: cs))) =
        ((us, t) :: (readMembers fuel rest').1, (readMembers fuel rest').2)) := by
  cases hkey with
  | intro hunits =>
    rw [readMembers, skip_append hbefore, enclosed_append, skip_cons rfl]
    simp only [readText_append hunits, skip_append hafter,
      skip_cons (show isSpace ':' = false from rfl), h]
    constructor <;> intro hskip <;> simp only [hskip]

/-- What the reader does with the characters of a phrase, wherever they stand, if it has two steps
for each of them. A value ends where its characters do, an item where the blanks after it do, and
items and members take the bracket that closes them with them. -/
def Phrase.ReadsAs (cs : List Char) : Phrase → Prop
  | value t => ∀ fuel rest, EndsNumber rest → 2 * cs.length ≤ fuel →
      readValue (fuel + 1) (cs ++ rest) = (t, some rest)
  | item t => ∀ fuel rest, EndsNumber rest → 2 * cs.length ≤ fuel →
      ∃ rest', readValue (fuel + 1) (cs ++ rest) = (t, some rest') ∧ skip rest' = skip rest
  | items ts => ∀ fuel rest, 2 * cs.length ≤ fuel →
      readItems (fuel + 2) (cs ++ ']' :: rest) = (ts, some rest)
  | member m => ∀ fuel rest rest', EndsNumber rest → 2 * cs.length ≤ fuel →
      (skip rest = '\x7d' :: rest' → readMembers (fuel + 2) (cs ++ rest) = ([m], some rest')) ∧
      (skip rest = ',' :: rest' → readMembers (fuel + 2) (cs ++ rest) =
        (m :: (readMembers (fuel + 1) rest').1, (readMembers (fuel + 1) rest').2))
  | members ms => ∀ fuel rest, 2 * cs.length ≤ fuel →
      readMembers (fuel + 2) (cs ++ '\x7d' :: rest) = (ms, some rest)

/-- The fuel of what stands between brackets is two steps less than that of the whole. -/
theorem exists_fuel_of_enclosed {left right : Char} {cs : List Char} {fuel : ℕ}
    (h : 2 * (left :: (cs ++ [right])).length ≤ fuel) :
    ∃ less, fuel = less + 2 ∧ 2 * cs.length ≤ less := by
  rw [List.length_cons, List.length_append, List.length_singleton] at h
  exact ⟨fuel - 2, by omega, by omega⟩

/-- A comma pays for the step from one part to the next. -/
theorem exists_fuel_of_comma {cs more : List Char} {fuel : ℕ}
    (h : 2 * (cs ++ ',' :: more).length ≤ fuel) :
    2 * cs.length ≤ fuel ∧ ∃ less, fuel = less + 1 ∧ 2 * more.length ≤ less := by
  rw [List.length_append, List.length_cons] at h
  exact ⟨by omega, fuel - 1, by omega, by omega⟩

/-- **What is spelled is read.** The induction is on the rules. -/
theorem readsAs_of_spells {cs : List Char} {p : Phrase} (h : Spells cs p) : p.ReadsAs cs := by
  induction h with
  | nullWord => exact fun _ _ _ _ => rfl
  | trueWord => exact fun _ _ _ _ => rfl
  | falseWord => exact fun _ _ _ _ => rfl
  | number h => exact fun fuel _ hrest _ => readValue_number h hrest fuel
  | text h => exact fun fuel rest _ _ => readValue_text h rest fuel
  | emptyArray hblanks =>
    intro fuel rest _ _
    rw [enclosed_append]
    exact readValue_emptyArray hblanks rest fuel
  | array _ ih =>
    intro fuel rest _ hfuel
    obtain ⟨fuel, rfl, hless⟩ := exists_fuel_of_enclosed hfuel
    rw [enclosed_append]
    exact readValue_array (ih fuel rest hless)
  | emptyObject hblanks =>
    intro fuel rest _ _
    rw [enclosed_append]
    exact readValue_emptyObject hblanks rest fuel
  | object _ ih =>
    intro fuel rest _ hfuel
    obtain ⟨fuel, rfl, hless⟩ := exists_fuel_of_enclosed hfuel
    rw [enclosed_append]
    exact readValue_object (ih fuel rest hless)
  | @item before cs after t hbefore _ hafter ih =>
    intro fuel rest hrest hfuel
    simp only [List.length_append] at hfuel
    have hread := ih fuel (after ++ rest) (hrest.append hafter) (by omega)
    refine ⟨after ++ rest, ?_, skip_append hafter rest⟩
    rw [List.append_assoc, List.append_assoc, readValue_append hbefore, hread]
  | lastItem _ ih =>
    intro fuel rest hfuel
    obtain ⟨rest', hread, hskip⟩ := ih fuel (']' :: rest) (endsNumber_cons (by simp) _) hfuel
    rw [skip_cons rfl] at hskip
    rw [readItems, hread]
    simp only [hskip]
  | @moreItems cs more t ts _ _ ih ihmore =>
    intro fuel rest hfuel
    obtain ⟨hcs, less, rfl, hmore⟩ := exists_fuel_of_comma hfuel
    obtain ⟨rest', hread, hskip⟩ :=
      ih _ (',' :: (more ++ ']' :: rest)) (endsNumber_cons (by simp) _) hcs
    rw [skip_cons rfl] at hskip
    rw [List.append_assoc, List.cons_append, readItems, hread]
    simp only [hskip, ihmore less rest hmore]
  | @member before key after cs us t hbefore hkey hafter _ ih =>
    intro fuel rest rest' hrest hfuel
    simp only [List.length_append, List.length_cons] at hfuel
    obtain ⟨rest'', hread, hskip⟩ := ih fuel rest hrest (by omega)
    have hmember := readMembers_member hbefore hkey hafter hread rest'
    rw [hskip] at hmember
    simp only [List.append_assoc, List.cons_append]
    exact hmember
  | lastMember _ ih =>
    intro fuel rest hfuel
    exact (ih fuel ('\x7d' :: rest) rest (endsNumber_cons (by simp) _) hfuel).1 (skip_cons rfl _)
  | @moreMembers cs more m ms _ _ ih ihmore =>
    intro fuel rest hfuel
    obtain ⟨hcs, less, rfl, hmore⟩ := exists_fuel_of_comma hfuel
    have hread := (ih _ (',' :: (more ++ '\x7d' :: rest)) (more ++ '\x7d' :: rest)
      (endsNumber_cons (by simp) _) hcs).2 (skip_cons rfl _)
    rw [List.append_assoc, List.cons_append, hread, ihmore less rest hmore]

/-! ## What is read is spelled -/

theorem exists_of_leaf {α : Type} {f : α → Tree} {r : Option (α × List Char)} {t : Tree}
    {rest : List Char} (h : leaf f r = (t, some rest)) : ∃ a, r = some (a, rest) ∧ t = f a := by
  cases r with
  | none => cases h
  | some r =>
    obtain ⟨rfl, hrest⟩ := Prod.mk.inj h
    exact ⟨r.1, by rw [← Option.some.inj hrest], rfl⟩

/-- What the reader takes with some fuel, and reads to its end, is spelled. -/
structure ReadsSpelled (fuel : ℕ) : Prop where
  value : ∀ {cs rest t}, readValue fuel cs = (t, some rest) →
    ∃ blanks written, cs = blanks ++ (written ++ rest) ∧ Spaces blanks ∧ Spells written (.value t)
  items : ∀ {cs rest ts}, readItems fuel cs = (ts, some rest) →
    ∃ written, cs = written ++ ']' :: rest ∧ Spells written (.items ts)
  members : ∀ {cs rest ms}, readMembers fuel cs = (ms, some rest) →
    ∃ written, cs = written ++ '\x7d' :: rest ∧ Spells written (.members ms)

/-- The blanks before a value and those after it make it an item. -/
theorem ReadsSpelled.item {fuel : ℕ} (h : ReadsSpelled fuel) {cs rest : List Char} {t : Tree}
    (hread : readValue fuel cs = (t, some rest)) :
    ∃ written, cs = written ++ skip rest ∧ Spells written (.item t) := by
  obtain ⟨before, written, rfl, hbefore, hwritten⟩ := h.value hread
  obtain ⟨after, hafter, hrest⟩ := exists_spaces_append rest
  refine ⟨before ++ (written ++ after), ?_, .item hbefore hwritten hafter⟩
  rw [List.append_assoc, List.append_assoc, ← hrest]

/-- The step for an array, after its opening bracket. -/
theorem ReadsSpelled.array {fuel : ℕ} (h : ReadsSpelled fuel) {cs rest : List Char} {t : Tree}
    (hread : readValue (fuel + 1) ('[' :: cs) = (t, some rest)) :
    ∃ written, '[' :: cs = written ++ rest ∧ Spells written (.value t) := by
  rw [readValue, skip_cons rfl] at hread
  simp only at hread
  split at hread
  case h_1 hskip =>
    obtain ⟨blanks, hblanks, hcs⟩ := exists_spaces_append cs
    cases hread
    refine ⟨'[' :: (blanks ++ [']']), ?_, .emptyArray hblanks⟩
    rw [enclosed_append, ← hskip, ← hcs]
  case h_2 =>
    obtain ⟨rfl, hrest⟩ := Prod.mk.inj hread
    obtain ⟨written, hcs, hwritten⟩ := h.items (Prod.ext rfl hrest)
    rw [hrest]
    refine ⟨'[' :: (written ++ [']']), ?_, .array hwritten⟩
    rw [enclosed_append, ← hcs]

/-- The step for an object, after its opening brace. -/
theorem ReadsSpelled.object {fuel : ℕ} (h : ReadsSpelled fuel) {cs rest : List Char} {t : Tree}
    (hread : readValue (fuel + 1) ('\x7b' :: cs) = (t, some rest)) :
    ∃ written, '\x7b' :: cs = written ++ rest ∧ Spells written (.value t) := by
  rw [readValue, skip_cons rfl] at hread
  simp only at hread
  split at hread
  case h_1 hskip =>
    obtain ⟨blanks, hblanks, hcs⟩ := exists_spaces_append cs
    cases hread
    refine ⟨'\x7b' :: (blanks ++ ['\x7d']), ?_, .emptyObject hblanks⟩
    rw [enclosed_append, ← hskip, ← hcs]
  case h_2 =>
    obtain ⟨rfl, hrest⟩ := Prod.mk.inj hread
    obtain ⟨written, hcs, hwritten⟩ := h.members (Prod.ext rfl hrest)
    rw [hrest]
    refine ⟨'\x7b' :: (written ++ ['\x7d']), ?_, .object hwritten⟩
    rw [enclosed_append, ← hcs]

theorem spells_text_of_readText {cs rest : List Char} {us : List TextUnit}
    (h : readText cs = some (us, rest)) :
    ∃ written, '"' :: cs = written ++ rest ∧ SpellsText written us := by
  obtain ⟨written, rfl, hwritten⟩ := exists_of_readText h
  exact ⟨'"' :: (written ++ ['"']), (enclosed_append ..).symm, .intro hwritten⟩

/-- The step for a value. The cases are those of its first character. -/
theorem ReadsSpelled.value_succ {fuel : ℕ} (h : ReadsSpelled fuel) {cs rest : List Char} {t : Tree}
    (hread : readValue (fuel + 1) cs = (t, some rest)) :
    ∃ blanks written, cs = blanks ++ (written ++ rest) ∧ Spaces blanks ∧
      Spells written (.value t) := by
  obtain ⟨blanks, hblanks, hcs⟩ := exists_spaces_append cs
  -- without the blanks before it
  suffices ∃ written, skip cs = written ++ rest ∧ Spells written (.value t) by
    obtain ⟨written, hskip, hwritten⟩ := this
    exact ⟨blanks, written, by rw [← hskip, ← hcs], hblanks, hwritten⟩
  have hskipped : readValue (fuel + 1) (skip cs) = (t, some rest) := by
    rw [← readValue_append hblanks, ← hcs]
    exact hread
  rw [readValue] at hread
  split at hread
  case h_1 hskip =>
    cases hread
    exact ⟨['n', 'u', 'l', 'l'], hskip, .nullWord⟩
  case h_2 hskip =>
    cases hread
    exact ⟨['t', 'r', 'u', 'e'], hskip, .trueWord⟩
  case h_3 hskip =>
    cases hread
    exact ⟨['f', 'a', 'l', 's', 'e'], hskip, .falseWord⟩
  case h_4 hskip =>
    obtain ⟨us, htext, rfl⟩ := exists_of_leaf hread
    rw [hskip]
    obtain ⟨written, hchars, hwritten⟩ := spells_text_of_readText htext
    exact ⟨written, hchars, .text hwritten⟩
  case h_5 hskip =>
    obtain ⟨l, hnumber, rfl⟩ := exists_of_leaf hread
    obtain ⟨hminus, written, rfl, hwritten⟩ := exists_of_readMagnitude? hnumber
    exact ⟨'-' :: written, hskip, .number (.negative hminus hwritten)⟩
  case h_6 hskip =>
    rw [hskip] at hskipped ⊢
    exact h.array hskipped
  case h_7 hskip =>
    rw [hskip] at hskipped ⊢
    exact h.object hskipped
  case h_8 =>
    obtain ⟨l, hnumber, rfl⟩ := exists_of_leaf hread
    obtain ⟨hminus, written, hchars, hwritten⟩ := exists_of_readMagnitude? hnumber
    exact ⟨written, hchars, .number (.positive hminus hwritten)⟩

/-- The step for items. -/
theorem ReadsSpelled.items_succ {fuel : ℕ} (h : ReadsSpelled fuel) {cs rest : List Char}
    {ts : List Tree} (hread : readItems (fuel + 1) cs = (ts, some rest)) :
    ∃ written, cs = written ++ ']' :: rest ∧ Spells written (.items ts) := by
  rw [readItems] at hread
  split at hread
  case h_1 => cases hread
  case h_2 item after hvalue =>
    obtain ⟨written, rfl, hwritten⟩ := h.item hvalue
    split at hread
    case h_1 hskip =>
      cases hread
      exact ⟨written, by rw [hskip], .lastItem hwritten⟩
    case h_2 more hskip =>
      obtain ⟨rfl, hrest⟩ := Prod.mk.inj hread
      obtain ⟨written', rfl, hwritten'⟩ := h.items (Prod.ext rfl hrest)
      refine ⟨written ++ ',' :: written', ?_, .moreItems hwritten hwritten'⟩
      rw [hskip, List.append_assoc, List.cons_append]
    case h_3 => cases hread

/-- The step for members. -/
theorem ReadsSpelled.members_succ {fuel : ℕ} (h : ReadsSpelled fuel) {cs rest : List Char}
    {ms : List (List TextUnit × Tree)} (hread : readMembers (fuel + 1) cs = (ms, some rest)) :
    ∃ written, cs = written ++ '\x7d' :: rest ∧ Spells written (.members ms) := by
  obtain ⟨before, hbefore, hcs⟩ := exists_spaces_append cs
  rw [readMembers] at hread
  split at hread
  case h_2 => cases hread
  case h_1 hquote =>
    split at hread
    case h_1 => cases hread
    case h_2 us afterKey hkey =>
      obtain ⟨key, hkeyChars, hkey⟩ := spells_text_of_readText hkey
      obtain ⟨after, hafter, hafterKey⟩ := exists_spaces_append afterKey
      split at hread
      case h_2 => cases hread
      case h_1 colon hcolon =>
        split at hread
        case h_1 => cases hread
        case h_2 t afterValue hvalue =>
          obtain ⟨value, rfl, hwritten⟩ := h.item hvalue
          -- the characters up to what follows the value
          have hmember := Spells.member hbefore hkey hafter hwritten
          have hchars : cs = (before ++ (key ++ (after ++ ':' :: value))) ++ skip afterValue := by
            rw [hcs, hquote, hkeyChars, hafterKey, hcolon]
            simp only [List.append_assoc, List.cons_append]
          split at hread
          case h_1 hskip =>
            cases hread
            exact ⟨_, by rw [hchars, hskip], .lastMember hmember⟩
          case h_2 more hskip =>
            obtain ⟨rfl, hrest⟩ := Prod.mk.inj hread
            obtain ⟨members, rfl, hmembers⟩ := h.members (Prod.ext rfl hrest)
            refine ⟨_, ?_, .moreMembers hmember hmembers⟩
            rw [hchars, hskip, List.append_assoc _ (',' :: members), List.cons_append]
          case h_3 => cases hread

/-- **What is read to its end is spelled.** -/
theorem readsSpelled (fuel : ℕ) : ReadsSpelled fuel := by
  induction fuel with
  | zero => constructor <;> intro _ _ _ h <;> cases h
  | succ fuel ih => exact ⟨ih.value_succ, ih.items_succ, ih.members_succ⟩

/-! ## Whole texts -/

/-- **A text is read without a fault exactly where it spells the tree.** -/
theorem readTree_eq_iff {text : String} {t : Tree} :
    readTree text = (t, true) ↔ Spells text.toList (.item t) := by
  constructor
  · intro h
    rw [readTree] at h
    split at h
    case h_1 tree rest hread =>
      obtain ⟨rfl, hclean⟩ := Prod.mk.inj h
      obtain ⟨written, hcs, hwritten⟩ := (readsSpelled _).item hread
      rw [List.isEmpty_iff.1 hclean, List.append_nil] at hcs
      rwa [hcs]
    case h_2 => cases (Prod.mk.inj h).2
  · intro h
    obtain ⟨rest, hread, hskip⟩ := readsAs_of_spells h _ [] endsNumber_nil (Nat.le_succ _)
    rw [List.append_nil] at hread
    rw [readTree, hread]
    exact Prod.ext rfl (List.isEmpty_iff.2 hskip)

/-! ## Phrases that some text spells -/

/-- Do some characters spell a phrase? -/
def Phrase.Spelled (p : Phrase) : Prop := ∃ cs, Spells cs p

theorem spelled_item_iff {t : Tree} : (Phrase.item t).Spelled ↔ (Phrase.value t).Spelled := by
  constructor
  · rintro ⟨_, h⟩
    cases h with
    | item _ h _ => exact ⟨_, h⟩
  · rintro ⟨cs, h⟩
    exact ⟨_, .item spaces_nil h spaces_nil⟩

theorem spelled_member_iff {us : List TextUnit} {t : Tree} :
    (Phrase.member (us, t)).Spelled ↔ (∃ key, SpellsText key us) ∧ (Phrase.value t).Spelled := by
  constructor
  · rintro ⟨_, h⟩
    cases h with
    | member _ hkey _ h => exact ⟨⟨_, hkey⟩, spelled_item_iff.1 ⟨_, h⟩⟩
  · rintro ⟨⟨key, hkey⟩, hvalue⟩
    obtain ⟨cs, h⟩ := spelled_item_iff.2 hvalue
    exact ⟨_, .member spaces_nil hkey spaces_nil h⟩

/-- Parts between commas are spelled if each of them is. -/
theorem Separated.spelled_of_forall {α : Type} {one : α → Phrase} {many : List α → Phrase}
    (hmany : Separated one many) {as : List α} :
    ∀ {a}, (∀ b ∈ a :: as, (one b).Spelled) → (many (a :: as)).Spelled := by
  induction as with
  | nil =>
    intro a h
    obtain ⟨cs, ha⟩ := h a List.mem_cons_self
    exact ⟨cs, hmany.last ha⟩
  | cons b as ih =>
    intro a h
    obtain ⟨⟨cs, ha⟩, hrest⟩ := List.forall_mem_cons.1 h
    obtain ⟨rest, has⟩ := ih hrest
    exact ⟨_, hmany.more ha has⟩

theorem Spells.forall_items {cs : List Char} {p : Phrase} (h : Spells cs p) :
    ∀ {ts}, p = .items ts → ∀ t ∈ ts, (Phrase.value t).Spelled := by
  induction h with
  | lastItem h =>
    rintro _ ⟨⟩
    exact List.forall_mem_singleton.2 (spelled_item_iff.1 ⟨_, h⟩)
  | moreItems h _ _ ih =>
    rintro _ ⟨⟩
    exact List.forall_mem_cons.2 ⟨spelled_item_iff.1 ⟨_, h⟩, ih rfl⟩
  | _ => rintro _ ⟨⟩

theorem Spells.forall_members {cs : List Char} {p : Phrase} (h : Spells cs p) :
    ∀ {ms}, p = .members ms → ∀ m ∈ ms, (Phrase.member m).Spelled := by
  induction h with
  | lastMember h =>
    rintro _ ⟨⟩
    exact List.forall_mem_singleton.2 ⟨_, h⟩
  | moreMembers h _ _ ih =>
    rintro _ ⟨⟩
    exact List.forall_mem_cons.2 ⟨⟨_, h⟩, ih rfl⟩
  | _ => rintro _ ⟨⟩

/-- **An array is spelled exactly if its items are.** -/
theorem spelled_array_iff {ts : List Tree} :
    (Phrase.value (.array ts true)).Spelled ↔ ∀ t ∈ ts, (Phrase.value t).Spelled := by
  constructor
  · rintro ⟨_, h⟩
    cases h with
    | emptyArray _ => exact List.forall_mem_nil _
    | array h => exact h.forall_items rfl
  · intro h
    cases ts with
    | nil => exact ⟨_, .emptyArray spaces_nil⟩
    | cons t ts =>
      obtain ⟨cs, hts⟩ := separated_items.spelled_of_forall fun t ht => spelled_item_iff.2 (h t ht)
      exact ⟨_, .array hts⟩

/-- **An object is spelled exactly if its members are.** -/
theorem spelled_object_iff {ms : List (List TextUnit × Tree)} :
    (Phrase.value (.object ms true)).Spelled ↔ ∀ m ∈ ms, (Phrase.member m).Spelled := by
  constructor
  · rintro ⟨_, h⟩
    cases h with
    | emptyObject _ => exact List.forall_mem_nil _
    | object h => exact h.forall_members rfl
  · intro h
    cases ms with
    | nil => exact ⟨_, .emptyObject spaces_nil⟩
    | cons m ms =>
      obtain ⟨cs, hms⟩ := separated_members.spelled_of_forall h
      exact ⟨_, .object hms⟩

end Json
end CardInventory
