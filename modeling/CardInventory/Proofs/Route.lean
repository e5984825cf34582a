import CardInventory.Proofs.Path

/-
# Routes below a route

A path need not be plain for its route to say where it leads. Whatever its spelling, joining the
name of an entry adds one step downwards (`Path.route_join`), and all steps downwards of a route
are such names (`Path.isEntryName_of_mem_route`). So what is joined to the path of a directory
stays under the route of that directory, and under two different names nothing is shared
(`Route.IsUnder.child_inj`).
-/

namespace CardInventory

/-! ## Steps of segments -/

theorem IsEntryName.ofSegment {name : RawText} (h : IsEntryName name) :
    Step.ofSegment name = .name name := by
  rw [Step.ofSegment_of_goesDown h.goesDown, if_neg]
  exact fun hnil => h.nonempty (congrArg RawText.pieces hnil)

/-- A segment that is a step downwards is the name of an entry. -/
theorem Step.isEntryName_of_ofSegment {s n : RawText} (hs : .char '/' ∉ s.pieces)
    (h : ofSegment s = .name n) : s = n ∧ IsEntryName n := by
  have hdown : s.GoesDown := by
    constructor <;> rintro rfl <;> cases h
  have hne : s ≠ ⟨[]⟩ := by
    rintro rfl
    cases h
  rw [ofSegment_of_goesDown hdown, if_neg hne, Step.name.injEq] at h
  subst h
  exact ⟨rfl, fun hnil => hne (congrArg RawText.mk hnil), hs, hdown⟩

/-! ## Joining -/

namespace Route

/-- The route with one more step downwards. -/
def child (r : Route) (n : RawText) : Route := { r with steps := r.steps ++ [.name n] }

/-- Only the first step of a relative route is looked at in another way than the others. -/
theorem normal_append {absolute : Bool} {steps : List Step} (h : absolute = true ∨ steps ≠ [])
    (more : List Step) :
    (Route.mk absolute (steps ++ more)).normal =
      { (Route.mk absolute steps).normal with
        steps := (Route.mk absolute steps).normal.steps ++ more.filter (· ≠ .here) } := by
  cases absolute with
  | true => simp [normal]
  | false =>
    obtain ⟨first, rest, rfl⟩ := List.exists_cons_of_ne_nil (h.resolve_left Bool.false_ne_true)
    cases first <;> simp [normal]

/-- A step that counts in place of a slash at the end. -/
theorem normal_concat {absolute : Bool} {before steps : List Step}
    (h : absolute = true ∨ before ≠ []) (hsteps : steps = before ∨ steps = before ++ [.here])
    {step : Step} (hstep : step ≠ .here) :
    (Route.mk absolute (before ++ [step])).normal =
      { (Route.mk absolute steps).normal with
        steps := (Route.mk absolute steps).normal.steps ++ [step] } := by
  rcases hsteps with rfl | rfl <;> simp [normal_append h, hstep]

end Route

namespace Path

variable {p : Path} {name : RawText}

/-- The route of a relative path has a step for each segment. -/
theorem ofText_raw_relative (hne : p.raw.pieces ≠ [])
    (h : p.raw.pieces.head? ≠ some (.char '/')) :
    Route.ofText p.raw = ⟨false, p.segments.map Step.ofSegment⟩ := by
  unfold Route.ofText
  split
  · next hnil => exact absurd hnil hne
  · next hslash => exact absurd (by rw [hslash, List.head?_cons]) h
  · rfl

/-- The route of the empty path. -/
theorem ofText_raw_nil (h : p.raw.pieces = []) : Route.ofText p.raw = ⟨false, []⟩ := by
  unfold Route.ofText
  rw [h]

/-- A stretch without slashes by itself is a path of one step. -/
theorem ofText_raw_segment (hne : name.pieces ≠ []) (hslash : .char '/' ∉ name.pieces) :
    Route.ofText name = ⟨false, [Step.ofSegment name]⟩ := by
  have hsegments : segments ⟨name⟩ = [name] := RawText.splitAt_of_notMem hslash
  have hroute := ofText_raw_relative (p := ⟨name⟩) hne (head?_ne_slash hslash)
  rwa [hsegments] at hroute

/-- Joined to the empty path, a stretch stands for itself. -/
theorem join_of_nil (hp : p.raw.pieces = []) (hslash : .char '/' ∉ name.pieces) :
    p.join name = ⟨name⟩ := by
  unfold join
  rw [if_neg (head?_ne_slash hslash), hp]
  rfl

/-- Joining a stretch that stands for a step adds that step. -/
theorem route_join_segment (p : Path) (name : RawText) (hne : name.pieces ≠ [])
    (hslash : .char '/' ∉ name.pieces) (hstep : Step.ofSegment name ≠ .here) :
    (p.join name).route =
      { p.route with steps := p.route.steps ++ [Step.ofSegment name] } := by
  by_cases hp : p.raw.pieces = []
  · rw [route, route, join_of_nil hp hslash, ofText_raw_segment hne hslash, ofText_raw_nil hp]
    simp [Route.normal, hstep]
  · have hhead := head?_join hp hslash
    obtain ⟨before, hbefore, hsegments, hjoin⟩ := segments_join hp hslash
    by_cases habs : p.raw.pieces.head? = some (.char '/')
    · -- Both paths have an empty first segment, which is no step.
      obtain ⟨first, before, rfl⟩ := List.exists_cons_of_ne_nil hbefore
      rw [route, route, ofText_raw habs, ofText_raw (hhead.trans habs), hjoin, List.cons_append,
        List.tail_cons, List.map_append, List.map_singleton]
      refine Route.normal_concat (.inl rfl) ?_ hstep
      rcases hsegments with hsegments | hsegments <;> simp [hsegments, Step.ofSegment]
    · rw [route, route, ofText_raw_relative hp habs,
        ofText_raw_relative (join_pieces_ne_nil hp hslash) (hhead ▸ habs), hjoin,
        List.map_append, List.map_singleton]
      refine Route.normal_concat (.inr (by simpa using hbefore)) ?_ hstep
      rcases hsegments with hsegments | hsegments <;> simp [hsegments, Step.ofSegment]

/-- **Joining the name of an entry adds one step downwards.** -/
theorem route_join (p : Path) (hname : IsEntryName name) :
    (p.join name).route = p.route.child name := by
  rw [route_join_segment p name hname.nonempty hname.no_slash (by simp [hname.ofSegment]),
    hname.ofSegment]
  rfl

/-- A path to which a name was joined does not end with a slash. -/
theorem getLast?_join (p : Path) (hname : IsEntryName name) :
    (p.join name).raw.pieces.getLast? = name.pieces.getLast? := by
  rw [pieces_join p hname.no_slash, ← List.append_assoc,
    List.getLast?_append_of_ne_nil _ hname.nonempty]

/-- Below a path that does not end with a slash, a name is one more step as it is spelled. -/
theorem ofText_join {last : Piece} (hlast : p.raw.pieces.getLast? = some last)
    (hslash : last ≠ .char '/') (hname : IsEntryName name) :
    Route.ofText (p.join name).raw = (Route.ofText p.raw).child name := by
  have hne : p.raw.pieces ≠ [] := fun hnil => by
    rw [hnil] at hlast
    cases hlast
  have hhead := head?_join hne hname.no_slash
  have hsegments : (p.join name).segments = p.segments ++ [name] := by
    have hjoin : (p.join name).raw = ⟨p.raw.pieces ++ (p.junction ++ name.pieces)⟩ :=
      congrArg RawText.mk (p.pieces_join hname.no_slash)
    rw [segments, hjoin, junction_of_ne_slash hlast hslash, List.singleton_append,
      RawText.splitAt_append_cons, RawText.splitAt_of_notMem hname.no_slash]
    rfl
  by_cases habs : p.raw.pieces.head? = some (.char '/')
  · have htail : (p.segments ++ [name]).tail = p.segments.tail ++ [name] :=
      List.tail_append_of_ne_nil (RawText.splitAt_ne_nil _ _)
    rw [ofText_raw habs, ofText_raw (hhead.trans habs), hsegments, htail, List.map_append,
      List.map_singleton, hname.ofSegment]
    rfl
  · rw [ofText_raw_relative hne habs,
      ofText_raw_relative (join_pieces_ne_nil hne hname.no_slash) (hhead ▸ habs), hsegments,
      List.map_append, List.map_singleton, hname.ofSegment]
    rfl

/-- So it is below a path to which a name was joined. -/
theorem ofText_join_join (p : Path) {dir : RawText} (hdir : IsEntryName dir)
    (hname : IsEntryName name) : Route.ofText ((p.join dir).join name).raw =
      (Route.ofText (p.join dir).raw).child name := by
  obtain ⟨last, hlast⟩ : ∃ last, dir.pieces.getLast? = some last :=
    ⟨_, List.getLast?_eq_some_getLast hdir.nonempty⟩
  refine ofText_join ((p.getLast?_join hdir).trans hlast) ?_ hname
  rintro rfl
  exact hdir.no_slash (List.mem_of_getLast? hlast)

/-- A name is joined to a path after its last step, in place of one that stands for a slash at the
end. -/
theorem exists_ofText_join (hp : p.raw.pieces ≠ []) (hname : IsEntryName name) :
    ∃ init, Route.ofText (p.join name).raw =
        ⟨(Route.ofText p.raw).absolute, init ++ [.name name]⟩ ∧
      ((Route.ofText p.raw).steps = init ∨ (Route.ofText p.raw).steps = init ++ [.here]) := by
  obtain ⟨before, hbefore, hsegments, hjoin⟩ := segments_join hp hname.no_slash
  have hhead := head?_join hp hname.no_slash
  by_cases habs : p.raw.pieces.head? = some (.char '/')
  · obtain ⟨first, before, rfl⟩ := List.exists_cons_of_ne_nil hbefore
    refine ⟨before.map Step.ofSegment, ?_, ?_⟩
    · rw [ofText_raw (hhead.trans habs), ofText_raw habs, hjoin, List.cons_append, List.tail_cons,
        List.map_append, List.map_singleton, hname.ofSegment]
    · rw [ofText_raw habs]
      rcases hsegments with hsegments | hsegments <;> simp [hsegments, Step.ofSegment]
  · refine ⟨before.map Step.ofSegment, ?_, ?_⟩
    · rw [ofText_raw_relative (join_pieces_ne_nil hp hname.no_slash) (hhead ▸ habs),
        ofText_raw_relative hp habs, hjoin, List.map_append, List.map_singleton, hname.ofSegment]
    · rw [ofText_raw_relative hp habs]
      rcases hsegments with hsegments | hsegments <;> simp [hsegments, Step.ofSegment]

/-- A name that was joined is the last step of a path as it is spelled. -/
theorem exists_steps_ofText_join (p : Path) (hname : IsEntryName name) :
    ∃ init, (Route.ofText (p.join name).raw).steps = init ++ [.name name] := by
  by_cases hp : p.raw.pieces = []
  · refine ⟨[], ?_⟩
    rw [join_of_nil hp hname.no_slash, ofText_raw_segment hname.nonempty hname.no_slash,
      hname.ofSegment]
    rfl
  · obtain ⟨init, hjoin, -⟩ := exists_ofText_join hp hname
    exact ⟨init, by rw [hjoin]⟩

/-- The steps of a route before those that do not count are left out. -/
theorem exists_segment_of_mem_ofText {step : Step} (h : step ∈ (Route.ofText p.raw).steps) :
    ∃ s ∈ p.segments, step = Step.ofSegment s := by
  by_cases hp : p.raw.pieces = []
  · rw [ofText_raw_nil hp] at h
    cases h
  · by_cases habs : p.raw.pieces.head? = some (.char '/')
    · rw [ofText_raw habs] at h
      obtain ⟨s, hs, rfl⟩ := List.mem_map.1 h
      exact ⟨s, List.mem_of_mem_tail hs, rfl⟩
    · rw [ofText_raw_relative hp habs] at h
      obtain ⟨s, hs, rfl⟩ := List.mem_map.1 h
      exact ⟨s, hs, rfl⟩

end Path

theorem Route.mem_of_mem_normal {r : Route} {step : Step} (h : step ∈ r.normal.steps) :
    step ∈ r.steps := by
  unfold normal at h
  split at h
  · next hsteps =>
    rw [hsteps]
    rcases List.mem_cons.1 h with rfl | h
    · exact List.mem_cons_self
    · exact List.mem_cons_of_mem _ (List.mem_of_mem_filter h)
  · exact List.mem_of_mem_filter h

namespace Path

end Path

/-- **All steps downwards are names of entries.** -/
theorem Path.isEntryName_of_mem_route {p : Path} {n : RawText} (h : .name n ∈ p.route.steps) :
    IsEntryName n := by
  obtain ⟨s, hs, hstep⟩ := exists_segment_of_mem_ofText (Route.mem_of_mem_normal h)
  exact (Step.isEntryName_of_ofSegment (RawText.notMem_of_mem_splitAt hs) hstep.symm).2

namespace Route

/-- A route is under another when it goes on from there, or ends there. -/
structure IsUnder (r dir : Route) : Prop where
  absolute : r.absolute = dir.absolute
  steps : dir.steps <+: r.steps

instance (r dir : Route) : Decidable (r.IsUnder dir) :=
  decidable_of_iff (r.absolute = dir.absolute ∧ dir.steps <+: r.steps)
    ⟨fun ⟨h₁, h₂⟩ => ⟨h₁, h₂⟩, fun ⟨h₁, h₂⟩ => ⟨h₁, h₂⟩⟩

theorem IsUnder.refl (r : Route) : r.IsUnder r := ⟨rfl, List.prefix_rfl⟩

theorem IsUnder.trans {r s t : Route} (hrs : r.IsUnder s) (hst : s.IsUnder t) : r.IsUnder t :=
  ⟨hrs.absolute.trans hst.absolute, hst.steps.trans hrs.steps⟩

theorem isUnder_child (r : Route) (n : RawText) : (r.child n).IsUnder r :=
  ⟨rfl, List.prefix_append _ _⟩

/-- What is joined to a path is under its route. -/
theorem isUnder_join (p : Path) {name : RawText} (h : IsEntryName name) :
    (p.join name).route.IsUnder p.route := by
  rw [Path.route_join p h]
  exact isUnder_child _ _

/-- **Nothing is under two different names of a directory.** -/
theorem IsUnder.child_inj {r dir : Route} {m n : RawText} (hm : r.IsUnder (dir.child m))
    (hn : r.IsUnder (dir.child n)) : m = n := by
  have hlength : (dir.child m).steps.length = (dir.child n).steps.length := by simp [child]
  have hprefix := List.prefix_of_prefix_length_le hm.steps hn.steps (Nat.le_of_eq hlength)
  have hsteps := hprefix.eq_of_length hlength
  simpa [child] using hsteps

/-- The name in the last step is in a step. -/
theorem mem_steps_of_fileName? {r : Route} {n : RawText} (h : r.fileName? = some n) :
    .name n ∈ r.steps := by
  unfold fileName? at h
  split at h
  · next hlast =>
    rw [← Option.some.inj h]
    exact List.mem_of_getLast? hlast
  · cases h

theorem child_inj {r s : Route} {m n : RawText} (h : r.child m = s.child n) : r = s ∧ m = n := by
  obtain ⟨absolute, steps⟩ := r
  obtain ⟨absolute', steps'⟩ := s
  simpa [child, and_assoc] using h

/-- The steps to a directory above a route are steps of the route. -/
theorem mem_steps_of_mem_lineage {r s : Route} {step : Step} (hr : r ∈ s.lineage)
    (h : step ∈ r.steps) : step ∈ s.steps := by
  obtain ⟨n, -, rfl⟩ := List.mem_map.1 (List.mem_of_mem_filter hr)
  exact List.mem_of_mem_take h

/-- What is above a route below a directory is above the directory, or the directory itself. -/
theorem lineage_child (dir : Route) (n : RawText) :
    (dir.child n).lineage = dir.lineage ++ [dir.child n] := by
  have htakes : (List.range (dir.steps.length + 1)).map
        (fun k => { dir with steps := (dir.steps ++ [Step.name n]).take k : Route }) =
      (List.range (dir.steps.length + 1)).map fun k => { dir with steps := dir.steps.take k } := by
    refine List.map_congr_left fun k hk => ?_
    rw [List.take_append_of_le_length (Nat.le_of_lt_succ (List.mem_range.1 hk))]
  have hlength : (dir.steps ++ [Step.name n]).length = dir.steps.length + 1 := by simp
  simp only [lineage, child, hlength]
  rw [List.range_succ, List.map_append, List.filter_append, htakes, List.map_singleton,
    ← hlength, List.take_length]
  simp [isEmpty]

/-- The routes right below a directory. -/
theorem eq_child_iff {r dir : Route} {n : RawText} :
    r.parent? = some dir ∧ r.fileName? = some n ↔ r = dir.child n := by
  obtain ⟨absolute, steps⟩ := r
  rcases List.eq_nil_or_concat' steps with rfl | ⟨init, last, rfl⟩
  · simp [parent?, child]
  · obtain ⟨absolute', steps'⟩ := dir
    cases last <;> simp [parent?, fileName?, child, and_assoc]

end Route
end CardInventory
