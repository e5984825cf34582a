import CardInventory.Path
import CardInventory.Proofs.Text.Split

/-
# Paths of plain names

A path is plain when it starts at the root directory and goes only downwards. All that counts of
such a path is its names (`Path.Plain.route_eq`): repeated slashes and slashes at the end add none,
and joining a name adds that name and nothing else (`Path.names_join`).
-/

namespace CardInventory

/-! ## Damage -/

namespace RawText

theorem ofString_injective : Function.Injective ofString :=
  Function.LeftInverse.injective lossy_ofString

@[simp]
theorem char_mem_ofString {c : Char} {s : String} :
    .char c ∈ (ofString s).pieces ↔ c ∈ s.toList := by
  simp [ofString, ofChars]

/-- Is there no damage in a text? -/
def Undamaged (t : RawText) : Prop := t = .ofString t.lossy

instance (t : RawText) : Decidable t.Undamaged := inferInstanceAs (Decidable (t = _))

theorem undamaged_ofString (s : String) : (ofString s).Undamaged := by
  rw [Undamaged, lossy_ofString]

theorem toList_lossy (t : RawText) : t.lossy.toList = t.pieces.map Piece.shown := by
  rw [lossy, String.toList_ofList]

/-- A text is undamaged when each of its pieces is a character. -/
theorem undamaged_iff {t : RawText} : t.Undamaged ↔ ∀ p ∈ t.pieces, ∃ c, p = .char c := by
  constructor
  · intro h p hp
    rw [h] at hp
    obtain ⟨c, -, rfl⟩ := List.mem_map.1 hp
    exact ⟨c, rfl⟩
  · intro h
    obtain ⟨pieces⟩ := t
    have hpieces : pieces.map (Piece.char ∘ Piece.shown) = pieces := by
      refine (List.map_congr_left fun p hp => ?_).trans (List.map_id pieces)
      obtain ⟨c, rfl⟩ := h p hp
      rfl
    rw [Undamaged, ofString, ofChars, toList_lossy, List.map_map, hpieces]

end RawText

/-! ## Names -/

/-- A stretch that stands for no step upwards and is no point. -/
abbrev RawText.GoesDown (s : RawText) : Prop := s ≠ .ofString "." ∧ s ≠ .ofString ".."

/-- May a text, damaged or not, be a step downwards? Apart from the length, this is what a path asks
of the name of an entry; NUL is a character like others here. -/
structure IsEntryName (name : RawText) : Prop where
  nonempty : name.pieces ≠ []
  no_slash : .char '/' ∉ name.pieces
  goesDown : name.GoesDown

instance (name : RawText) : Decidable (IsEntryName name) :=
  decidable_of_iff (name.pieces ≠ [] ∧ .char '/' ∉ name.pieces ∧ name.GoesDown)
    ⟨fun ⟨h₁, h₂, h₃⟩ => ⟨h₁, h₂, h₃⟩, fun ⟨h₁, h₂, h₃⟩ => ⟨h₁, h₂, h₃⟩⟩

theorem isEntryName_ofString {name : String} (hne : name.toList ≠ []) (hslash : '/' ∉ name.toList)
    (hdot : name.toList ≠ ['.']) (hdots : name.toList ≠ ['.', '.']) : IsEntryName name where
  nonempty := mt List.map_eq_nil_iff.1 hne
  no_slash := mt RawText.char_mem_ofString.1 hslash
  goesDown := by
    constructor <;> intro heq <;> have hname := RawText.ofString_injective heq
    · exact hdot (congrArg String.toList hname)
    · exact hdots (congrArg String.toList hname)

/-- May a text be the name of an entry, in a tree whose names are not damaged? -/
structure IsName (name : RawText) : Prop extends IsEntryName name where
  no_nul : .char '\x00' ∉ name.pieces
  undamaged : name.Undamaged

instance (name : RawText) : Decidable (IsName name) :=
  decidable_of_iff (IsEntryName name ∧ .char '\x00' ∉ name.pieces ∧ name.Undamaged)
    ⟨fun ⟨h₁, h₂, h₃⟩ => ⟨h₁, h₂, h₃⟩, fun ⟨h₁, h₂, h₃⟩ => ⟨h₁, h₂, h₃⟩⟩

/-- What is shown of a name is the name. -/
theorem IsName.ofString_lossy {name : RawText} (h : IsName name) : .ofString name.lossy = name :=
  h.undamaged.symm

/-- What is shown without replacement characters is not damaged. -/
theorem RawText.undamaged_of_notMem {t : RawText} (h : '\ufffd' ∉ t.lossy.toList) :
    t.Undamaged := by
  rw [toList_lossy] at h
  refine undamaged_iff.2 fun p hp => ?_
  cases p with
  | char c => exact ⟨c, rfl⟩
  | junk bytes => exact absurd (List.mem_map_of_mem hp) h

/-- **What is shown of a name is a name.** -/
theorem IsEntryName.lossy {n : RawText} (h : IsEntryName n) : IsEntryName n.lossy := by
  have hdots : ∀ s : String, '\ufffd' ∉ s.toList → RawText.ofString n.lossy = .ofString s →
      n = .ofString s := fun s hs hshown => by
    rw [← RawText.ofString_injective hshown] at hs ⊢
    exact RawText.undamaged_of_notMem hs
  refine ⟨?_, ?_, fun hdot => h.goesDown.1 (hdots _ (by decide) hdot),
    fun hdotdot => h.goesDown.2 (hdots _ (by decide) hdotdot)⟩
  · rw [RawText.ofString, RawText.ofChars, RawText.toList_lossy]
    simpa using h.nonempty
  · rw [RawText.char_mem_ofString, RawText.toList_lossy, List.mem_map]
    rintro ⟨p, hp, hslash⟩
    cases p with
    | char c =>
      obtain rfl : c = '/' := hslash
      exact h.no_slash hp
    | junk bytes => exact absurd (show '\ufffd' = '/' from hslash) (by decide)

/-- A text without slashes stands for no path of its own. -/
theorem head?_ne_slash {name : RawText} (h : .char '/' ∉ name.pieces) :
    name.pieces.head? ≠ some (.char '/') := fun hhead => h (List.mem_of_head? hhead)

/-! ## Segments -/

namespace RawText

variable {sep : Char} {t s : RawText}

theorem splitAt_of_notMem (h : .char sep ∉ t.pieces) : t.splitAt sep = [t] := by
  rw [splitAt, List.splitOn_eq_singleton h, List.map_singleton]

theorem splitAt_append_cons (before after : List Piece) :
    splitAt sep ⟨before ++ .char sep :: after⟩ = splitAt sep ⟨before⟩ ++ splitAt sep ⟨after⟩ := by
  rw [splitAt, List.splitOn_append_cons_self, List.map_append]
  rfl

theorem splitAt_ne_nil (sep : Char) (t : RawText) : t.splitAt sep ≠ [] :=
  mt List.map_eq_nil_iff.1 (List.splitOn_ne_nil _ _)

/-- No stretch between separators holds one. -/
theorem notMem_of_mem_splitAt (h : s ∈ t.splitAt sep) : .char sep ∉ s.pieces := by
  obtain ⟨pieces, hpieces, rfl⟩ := List.mem_map.1 h
  exact notMem_of_mem_splitOn hpieces

end RawText

/-- The names among the stretches between slashes: those that are not empty. -/
def namesAmong (segments : List RawText) : List RawText := segments.filter (· ≠ ⟨[]⟩)

@[simp]
theorem namesAmong_cons_nil (rest : List RawText) : namesAmong (⟨[]⟩ :: rest) = namesAmong rest :=
  rfl

theorem namesAmong_cons {s : RawText} (h : s ≠ ⟨[]⟩) (rest : List RawText) :
    namesAmong (s :: rest) = s :: namesAmong rest :=
  List.filter_cons_of_pos (decide_eq_true h)

theorem namesAmong_append (before after : List RawText) :
    namesAmong (before ++ after) = namesAmong before ++ namesAmong after :=
  List.filter_append ..

theorem namesAmong_eq_nil {segments : List RawText} :
    namesAmong segments = [] ↔ ∀ s ∈ segments, s = ⟨[]⟩ := by
  simp [namesAmong]

namespace Path

variable {p : Path} {name : RawText}

/-- The stretches between slashes. -/
def segments (p : Path) : List RawText := p.raw.splitAt '/'

/-- A path that starts at the root directory and has no step that stays or goes up. -/
structure Plain (p : Path) : Prop where
  absolute : p.raw.pieces.head? = some (.char '/')
  downwards : ∀ s ∈ p.segments, s.GoesDown

/-- The names on the way that a path describes. -/
def names (p : Path) : List RawText := namesAmong p.segments

/-- What is put between a path and a name that is joined: a slash, unless the path ends with one or
is empty. -/
def junction (p : Path) : List Piece :=
  if p.raw.pieces.getLast?.all (· == .char '/') then [] else [.char '/']

theorem pieces_join (p : Path) (h : .char '/' ∉ name.pieces) :
    (p.join name).raw.pieces = p.raw.pieces ++ (p.junction ++ name.pieces) := by
  unfold join junction
  rw [if_neg (head?_ne_slash h)]
  split_ifs <;> rfl

theorem junction_of_slash {init : List Piece} (h : p.raw.pieces = init ++ [.char '/']) :
    p.junction = [] := by
  simp [junction, h]

theorem junction_of_ne_slash {last : Piece} (h : p.raw.pieces.getLast? = some last)
    (hlast : last ≠ .char '/') : p.junction = [.char '/'] := by
  simp [junction, h, hlast]

/-- The segments after a text without slashes is joined: a last one that is empty goes. -/
theorem segments_join (h : p.raw.pieces ≠ []) (hname : .char '/' ∉ name.pieces) :
    ∃ before ≠ [], (p.segments = before ∨ p.segments = before ++ [⟨[]⟩]) ∧
      (p.join name).segments = before ++ [name] := by
  have hconcat : ∀ init : List Piece, RawText.splitAt '/' ⟨init ++ .char '/' :: name.pieces⟩ =
      RawText.splitAt '/' ⟨init⟩ ++ [name] := fun init => by
    rw [RawText.splitAt_append_cons, RawText.splitAt_of_notMem hname]
  have hjoin : (p.join name).raw = ⟨p.raw.pieces ++ (p.junction ++ name.pieces)⟩ :=
    congrArg RawText.mk (p.pieces_join hname)
  obtain ⟨init, last, hlast⟩ : ∃ init last, p.raw.pieces = init ++ [last] :=
    ⟨_, _, (List.dropLast_append_getLast h).symm⟩
  by_cases hslash : last = .char '/'
  · subst hslash
    have hsegments : p.segments = RawText.splitAt '/' ⟨init⟩ ++ [⟨[]⟩] :=
      (congrArg (fun pieces => RawText.splitAt '/' ⟨pieces⟩) hlast).trans
        (RawText.splitAt_append_cons init [])
    refine ⟨_, RawText.splitAt_ne_nil '/' ⟨init⟩, .inr hsegments, ?_⟩
    rw [segments, hjoin, junction_of_slash hlast, hlast, List.nil_append, List.append_assoc,
      List.singleton_append, hconcat]
  · have hlast? : p.raw.pieces.getLast? = some last := by rw [hlast, List.getLast?_concat]
    refine ⟨p.segments, RawText.splitAt_ne_nil '/' _, .inl rfl, ?_⟩
    rw [segments, hjoin, junction_of_ne_slash hlast? hslash, List.singleton_append, hconcat]
    rfl

/-- **Joining a name adds that name.** -/
theorem names_join (h : p.raw.pieces ≠ []) (hname : IsEntryName name) :
    (p.join name).names = p.names ++ [name] := by
  obtain ⟨before, -, hp, hjoin⟩ := segments_join h hname.no_slash
  have hnames : p.names = namesAmong before := by
    rcases hp with hp | hp <;> simp [names, hp, namesAmong]
  have hne : name ≠ ⟨[]⟩ := fun hnil => hname.nonempty (congrArg RawText.pieces hnil)
  rw [hnames, names, hjoin, namesAmong_append, namesAmong_cons hne]
  rfl

theorem Plain.pieces_ne_nil (h : p.Plain) : p.raw.pieces ≠ [] := fun hnil => by
  simpa [hnil] using h.absolute

theorem Plain.downwards_tail (h : p.Plain) : ∀ s ∈ p.segments.tail, s.GoesDown := fun s hs =>
  h.downwards s (List.mem_of_mem_tail hs)

/-- A path that is not empty starts as before when a text without slashes is joined. -/
theorem head?_join (h : p.raw.pieces ≠ []) (hname : .char '/' ∉ name.pieces) :
    (p.join name).raw.pieces.head? = p.raw.pieces.head? := by
  rw [pieces_join p hname, List.head?_append_of_ne_nil _ h]

theorem join_pieces_ne_nil (h : p.raw.pieces ≠ []) (hname : .char '/' ∉ name.pieces) :
    (p.join name).raw.pieces ≠ [] := fun hnil => by
  have hhead := head?_join h hname
  rw [hnil, List.head?_nil] at hhead
  exact h (List.head?_eq_none_iff.1 hhead.symm)

/-- All pieces of a path come from what was joined, but for slashes. -/
theorem mem_pieces_join {piece : Piece} (h : piece ∈ (p.join name).raw.pieces) :
    piece ∈ p.raw.pieces ∨ piece = .char '/' ∨ piece ∈ name.pieces := by
  unfold join at h
  split_ifs at h
  · exact .inr (.inr h)
  · exact (List.mem_append.1 h).imp_right .inr
  · exact (List.mem_append.1 h).imp_right List.mem_cons.1

/-- So nothing is damaged by joining. -/
theorem undamaged_join (h : p.raw.Undamaged) (hname : name.Undamaged) :
    (p.join name).raw.Undamaged := by
  rw [RawText.undamaged_iff] at h hname ⊢
  intro piece hpiece
  rcases mem_pieces_join hpiece with hp | rfl | hn
  · exact h piece hp
  · exact ⟨'/', rfl⟩
  · exact hname piece hn

/-- A path stays plain when a name is joined. -/
theorem Plain.join (h : p.Plain) (hname : IsEntryName name) : (p.join name).Plain where
  absolute := by rw [head?_join h.pieces_ne_nil hname.no_slash, h.absolute]
  downwards := by
    obtain ⟨before, -, hp, hjoin⟩ := segments_join h.pieces_ne_nil hname.no_slash
    intro s hs
    rw [hjoin, List.mem_append, List.mem_singleton] at hs
    rcases hs with hs | rfl
    · refine h.downwards s ?_
      rcases hp with hp | hp <;> simp [hp, hs]
    · exact hname.goesDown

end Path

/-! ## Routes -/

/-- The route downwards along names from the root directory. -/
def Route.ofNames (names : List RawText) : Route := ⟨true, names.map .name⟩

theorem Route.ofNames_injective : Function.Injective Route.ofNames := fun _ _ h =>
  List.map_injective_iff.2 (fun _ _ => Step.name.inj) (congrArg Route.steps h)

/-- The step of a segment that is neither a point nor two. -/
theorem Step.ofSegment_of_goesDown {s : RawText} (h : s.GoesDown) :
    Step.ofSegment s = if s = ⟨[]⟩ then .here else .name s := by
  simp only [ofSegment, h.1, h.2, or_false, if_false]

/-- The steps that count are those of the segments that are not empty. -/
theorem Step.filter_ofSegment {segments : List RawText} (h : ∀ s ∈ segments, s.GoesDown) :
    (segments.map ofSegment).filter (· ≠ .here) = (namesAmong segments).map name := by
  induction segments with
  | nil => rfl
  | cons s rest ih =>
    obtain ⟨hs, hrest⟩ := List.forall_mem_cons.1 h
    rw [List.map_cons, List.filter_cons, ih hrest, ofSegment_of_goesDown hs]
    by_cases hnil : s = ⟨[]⟩
    · simp [hnil]
    · simp [hnil, namesAmong_cons]

/-- A path that starts at the root directory has an empty first segment. -/
theorem Path.segments_eq_cons {p : Path} (h : p.raw.pieces.head? = some (.char '/')) :
    p.segments = ⟨[]⟩ :: RawText.splitAt '/' ⟨p.raw.pieces.tail⟩ := by
  obtain ⟨rest, hrest⟩ := List.head?_eq_some_iff.1 h
  rw [segments, RawText.splitAt, hrest, List.splitOn_cons_eq_if_modifyHead,
    if_pos (beq_self_eq_true _), List.tail_cons, List.map_cons, RawText.splitAt]

/-- The route of such a path, a step for each later segment. -/
theorem Path.ofText_raw {p : Path} (h : p.raw.pieces.head? = some (.char '/')) :
    Route.ofText p.raw = ⟨true, p.segments.tail.map Step.ofSegment⟩ := by
  obtain ⟨⟨pieces⟩⟩ := p
  obtain ⟨rest, rfl⟩ := List.head?_eq_some_iff.1 h
  rw [segments_eq_cons h]
  rfl

theorem Path.Plain.namesAmong_tail {p : Path} (h : p.Plain) :
    namesAmong p.segments.tail = p.names := by
  have hcons := segments_eq_cons h.absolute
  rw [names, hcons, List.tail_cons, namesAmong_cons_nil]

/-- **Only the names of a plain path count.** -/
theorem Path.Plain.route_eq {p : Path} (h : p.Plain) : p.route = .ofNames p.names := by
  have hnormal : ∀ steps, (Route.mk true steps).normal = ⟨true, steps.filter (· ≠ .here)⟩ :=
    fun steps => rfl
  rw [route, ofText_raw h.absolute, hnormal, Step.filter_ofSegment h.downwards_tail,
    h.namesAmong_tail, Route.ofNames]

/-- No character of a path is lost in its names, but the slashes. -/
theorem Path.notMem_of_names {p : Path} {c : Char} (hc : c ≠ '/')
    (hnames : ∀ n ∈ p.names, .char c ∉ n.pieces) : .char c ∉ p.raw.pieces := by
  intro hmem
  have hsep : Piece.char c ≠ .char '/' := fun h => hc (Piece.char.inj h)
  obtain ⟨s, hs, hcs⟩ := exists_mem_splitOn hmem hsep
  refine hnames ⟨s⟩ (List.mem_filter.2 ⟨List.mem_map.2 ⟨s, hs, rfl⟩, decide_eq_true ?_⟩) hcs
  intro hnil
  rw [RawText.mk.inj hnil] at hcs
  cases hcs

/-! ## Paths below a root -/

/-- The path of names below a root, each joined to what is there. -/
def Path.descend (root : Path) (names : List RawText) : Path := names.foldl join root

theorem Path.Plain.descend {root : Path} (h : root.Plain) {names : List RawText}
    (hnames : ∀ n ∈ names, IsEntryName n) :
    (root.descend names).Plain ∧ (root.descend names).names = root.names ++ names := by
  induction names generalizing root with
  | nil => exact ⟨h, (List.append_nil _).symm⟩
  | cons n rest ih =>
    obtain ⟨hn, hrest⟩ := List.forall_mem_cons.1 hnames
    obtain ⟨hplain, hnames⟩ := ih (h.join hn) hrest
    refine ⟨hplain, ?_⟩
    rw [Path.descend, List.foldl_cons]
    rw [Path.descend] at hnames
    rw [hnames, names_join h.pieces_ne_nil hn, List.append_assoc, List.singleton_append]

/-- A path below a plain root ends with its last name. -/
theorem Path.Plain.getLast?_segments_descend {root : Path} (h : root.Plain) {names : List RawText}
    (hnames : ∀ n ∈ names, IsEntryName n) (hne : names ≠ []) :
    (root.descend names).segments.getLast? ≠ some ⟨[]⟩ := by
  rcases List.eq_nil_or_concat' names with rfl | ⟨init, last, rfl⟩
  · exact absurd rfl hne
  · obtain ⟨hinit, hlast⟩ := List.forall_mem_append.1 hnames
    have hlast := List.forall_mem_singleton.1 hlast
    obtain ⟨before, -, -, hjoin⟩ :=
      segments_join (h.descend hinit).1.pieces_ne_nil hlast.no_slash
    rw [Path.descend, List.foldl_append, List.foldl_cons, List.foldl_nil]
    rw [Path.descend] at hjoin
    rw [hjoin, List.getLast?_concat]
    exact fun hnil => hlast.nonempty (congrArg RawText.pieces (Option.some.inj hnil))

/-- The route of a path below a plain root. -/
theorem Path.Plain.route_descend {root : Path} (h : root.Plain) {names : List RawText}
    (hnames : ∀ n ∈ names, IsEntryName n) :
    (root.descend names).route = .ofNames (root.names ++ names) := by
  obtain ⟨hplain, hroute⟩ := h.descend hnames
  rw [hplain.route_eq, hroute]

end CardInventory
