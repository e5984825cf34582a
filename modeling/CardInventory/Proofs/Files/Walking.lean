import CardInventory.Files.Disk
import CardInventory.Proofs.SortedMap

/-
# Walks on a disk

A walk that comes to an end is described by the steps that it takes (`Disk.Walks`), and these are
the walks that are taken (`Disk.walks_iff`). So what holds of walks is shown by induction on the
steps taken, links among them. A walk may be gone on from where it ends (`Disk.Walks.append`) and
cut before its last step (`Disk.Walks.exists_cut`), and steps that stay in place may be put in
anywhere but at the end (`Disk.Walks.of_filter`).

Where an entry is put in a place without one, walks end as before, but for those that found the
place vacant: they end at the entry (`Disk.Walks.set`).
-/

namespace CardInventory

/-- Is this a link, from which a walk goes on? -/
def Entry.isLink : Entry → Bool
  | .link _ => true
  | _ => false

/-- Where a walk ends when there is an entry at a place. -/
def Landing.filled (place : Place) : Landing → Landing
  | .found p => .found p
  | .vacant p => if p = place then .found p else .vacant p

namespace Disk

/-! ## Entries -/

theorem entry?_nil (d : Disk) : d.entry? [] = some .directory := if_pos rfl

theorem ne_nil_of_entry?_eq_none {d : Disk} {p : Place} (h : d.entry? p = none) : p ≠ [] :=
  fun hnil => by
    rw [hnil, entry?_nil] at h
    cases h

theorem isDirectory_iff {d : Disk} {p : Place} :
    d.isDirectory p = true ↔ d.entry? p = some .directory := decide_eq_true_iff

/-- Entries that are replaced are found where there were some. -/
theorem lookup_map_replace (p q : Place) (e : Entry) (es : List (Place × Entry)) :
    (es.map fun x => if x.1 = p then (p, e) else x).lookup q =
      if q = p then (es.lookup p).map fun _ => e else es.lookup q := by
  induction es with
  | nil => simp
  | cons x rest ih =>
    obtain ⟨p', e'⟩ := x
    by_cases hp : p' = p
    · subst hp
      rw [List.map_cons, if_pos rfl, lookup_cons_eq_ite, lookup_cons_eq_ite, lookup_cons_eq_ite, ih,
        if_pos rfl, Option.map_some]
      by_cases hq : q = p' <;> simp [hq]
    · rw [List.map_cons, if_neg hp, lookup_cons_eq_ite, lookup_cons_eq_ite, lookup_cons_eq_ite, ih,
        if_neg (Ne.symm hp)]
      by_cases hq : q = p
      · rw [if_neg (hq ▸ Ne.symm hp)]
        simp [hq]
      · simp [hq]

/-- **Putting an entry at a place is seen at that place only.** -/
theorem entry?_set (d : Disk) {p : Place} (hp : p ≠ []) (e : Entry) (q : Place) :
    entry? (d.set p e) q = if q = p then some e else d.entry? q := by
  have hlookup : (d.set p e).entries.lookup q = if q = p then some e else d.entries.lookup q := by
    have hany : (d.entries.any fun x => x.1 = p) = (d.entries.lookup p).isSome := by
      rw [Bool.eq_iff_iff, List.lookup_isSome_iff, List.any_eq_true]
      refine exists_congr fun x => and_congr_right fun _ => ?_
      rw [decide_eq_true_iff, beq_iff_eq, eq_comm]
    unfold set
    rw [hany]
    split_ifs with hsome hq hq
    · obtain ⟨e', he'⟩ := Option.isSome_iff_exists.1 hsome
      rw [lookup_map_replace, if_pos hq, he', Option.map_some]
    · rw [lookup_map_replace, if_neg hq]
    · rw [List.lookup_append, hq, Option.not_isSome_iff_eq_none.1 hsome, Option.none_or,
        List.lookup_cons_self]
    · rw [List.lookup_append, lookup_cons_eq_ite, if_neg hq, List.lookup_nil, Option.or_none]
  unfold entry?
  rw [hlookup]
  by_cases hq : q = []
  · rw [if_pos hq, if_pos hq, if_neg (hq ▸ hp.symm)]
  · rw [if_neg hq, if_neg hq]

/-- What is at another place stays when an entry is put in a vacant one. -/
theorem entry?_set_of_some {d : Disk} {p q : Place} {e e' : Entry} (hq : d.entry? q = none)
    (hp : d.entry? p = some e') : entry? (d.set q e) p = some e' := by
  rw [entry?_set d (ne_nil_of_entry?_eq_none hq), if_neg, hp]
  rintro rfl
  cases hq.symm.trans hp

/-- An entry that was put in is the only new one. -/
theorem mem_entries_set {d : Disk} {p : Place} {e : Entry} {x : Place × Entry}
    (h : x ∈ (d.set p e).entries) : x = (p, e) ∨ x ∈ d.entries := by
  unfold set at h
  split_ifs at h
  · obtain ⟨y, hy, rfl⟩ := List.mem_map.1 h
    split_ifs
    · exact .inl rfl
    · exact .inr hy
  · rcases List.mem_append.1 h with h | h
    · exact .inr h
    · exact .inl (List.mem_singleton.1 h)

theorem start_set (d : Disk) (p : Place) (e : Entry) (absolute : Bool) :
    (d.set p e).start absolute = d.start absolute := by
  have hworking : (d.set p e).workingDirectory = d.workingDirectory := by
    unfold set
    split_ifs <;> rfl
  rw [start, start, hworking]

/-! ## Walks -/

/-- Where the target of a link that stands in a directory starts. -/
def targetStart (p : Place) (target : RawText) : Place :=
  if (Route.ofText target).absolute then [] else p

/-- `d.Walks links p steps landing` says that a walk along `steps` from `p`, with `links` links
left to follow, ends at `landing`. -/
inductive Walks (d : Disk) : ℕ → Place → List Step → Landing → Prop
  | stop {links p} : Walks d links p [] (.found p)
  | here {links p rest landing} (hdir : d.isDirectory p = true)
    (hrest : Walks d links p rest landing) : Walks d links p (.here :: rest) landing
  | up {links p rest landing} (hdir : d.isDirectory p = true)
    (hrest : Walks d links p.dropLast rest landing) : Walks d links p (.up :: rest) landing
  /-- There is no entry of the last name. -/
  | vacant {links p n} (hdir : d.isDirectory p = true) (hsize : n.size ≤ nameLimit)
    (hentry : d.entry? (p ++ [n]) = none) : Walks d links p [.name n] (.vacant (p ++ [n]))
  | down {links p n rest landing e} (hdir : d.isDirectory p = true) (hsize : n.size ≤ nameLimit)
    (hentry : d.entry? (p ++ [n]) = some e) (he : e.isLink = false)
    (hrest : Walks d links (p ++ [n]) rest landing) : Walks d links p (.name n :: rest) landing
  | link {links p n rest landing target} (hdir : d.isDirectory p = true)
    (hsize : n.size ≤ nameLimit) (hentry : d.entry? (p ++ [n]) = some (.link target))
    (hrest : Walks d links (targetStart p target) ((Route.ofText target).steps ++ rest) landing) :
    Walks d (links + 1) p (.name n :: rest) landing

/-- How a walk goes on from a link. -/
def follower (d : Disk) : ℕ → Place → List Step → Except FileError Landing
  | 0 => fun _ _ => .error .linkLoop
  | links + 1 => d.walkLinks links

theorem walkLinks_eq (d : Disk) (links : ℕ) : d.walkLinks links = d.walk (d.follower links) := by
  cases links <;> rfl

/-- What is described is taken. -/
theorem Walks.walkLinks_eq_ok {d : Disk} {links : ℕ} {p : Place} {steps : List Step}
    {landing : Landing} (h : d.Walks links p steps landing) :
    d.walkLinks links p steps = .ok landing := by
  induction h with
  | stop => rw [walkLinks_eq, walk]
  | here hdir _ ih | up hdir _ ih =>
    rw [walkLinks_eq, walk, if_pos hdir, ← walkLinks_eq]
    exact ih
  | vacant hdir hsize hentry =>
    rw [walkLinks_eq, walk, if_pos hdir]
    dsimp only
    rw [if_neg (not_lt.2 hsize), hentry]
    rfl
  | @down _ _ _ _ _ e hdir hsize hentry he _ ih =>
    rw [walkLinks_eq, walk, if_pos hdir]
    dsimp only
    rw [if_neg (not_lt.2 hsize), hentry, ← walkLinks_eq]
    cases e with
    | link _ => cases he
    | _ => exact ih
  | link hdir hsize hentry _ ih =>
    rw [walkLinks_eq, walk, if_pos hdir]
    dsimp only
    rw [if_neg (not_lt.2 hsize), hentry]
    exact ih

/-- What is taken is described. -/
theorem walks_of_walk {d : Disk} {links : ℕ} (hfollow : ∀ p steps landing,
      d.follower links p steps = .ok landing → ∃ fewer, links = fewer + 1 ∧
        d.Walks fewer p steps landing) {p : Place} {steps : List Step} {landing : Landing}
    (h : d.walk (d.follower links) p steps = .ok landing) : d.Walks links p steps landing := by
  induction steps generalizing p with
  | nil =>
    obtain rfl := Except.ok.inj h
    exact .stop
  | cons step rest ih =>
    cases step with
    | here =>
      rw [walk] at h
      split_ifs at h with hdir
      exact .here hdir (ih h)
    | up =>
      rw [walk] at h
      split_ifs at h with hdir
      exact .up hdir (ih h)
    | name n =>
      rw [walk] at h
      have hdir : d.isDirectory p = true := by
        by_contra hno
        rw [if_neg hno] at h
        cases h
      have hsize : ¬ nameLimit < n.size := fun hlong => by
        rw [if_pos hdir] at h
        dsimp only at h
        rw [if_pos hlong] at h
        cases h
      rw [if_pos hdir] at h
      dsimp only at h
      rw [if_neg hsize] at h
      rw [not_lt] at hsize
      cases hentry : d.entry? (p ++ [n]) with
      | none =>
        rw [hentry] at h
        cases rest with
        | nil =>
          obtain rfl := Except.ok.inj h
          exact .vacant hdir hsize hentry
        | cons _ _ => cases h
      | some e =>
        rw [hentry] at h
        cases e with
        | link target =>
          obtain ⟨fewer, rfl, hrest⟩ := hfollow _ _ _ h
          exact .link hdir hsize hentry hrest
        | directory => exact .down hdir hsize hentry rfl (ih h)
        | file content => exact .down hdir hsize hentry rfl (ih h)

/-- **The walks that are described are those that are taken.** -/
theorem walks_iff {d : Disk} {links : ℕ} {p : Place} {steps : List Step} {landing : Landing} :
    d.Walks links p steps landing ↔ d.walkLinks links p steps = .ok landing := by
  refine ⟨Walks.walkLinks_eq_ok, fun h => ?_⟩
  induction links generalizing p steps landing with
  | zero =>
    refine walks_of_walk (fun _ _ _ h => ?_) h
    cases h
  | succ links ih => exact walks_of_walk (fun _ _ _ h => ⟨links, rfl, ih h⟩) h

namespace Walks

variable {d : Disk} {links : ℕ} {p q : Place} {steps : List Step} {landing : Landing}

/-- **A walk is gone on from where it ends**, whatever the count of links that are left. -/
theorem append (h : d.Walks links p steps (.found q)) {more : List Step}
    (hmore : ∀ fewer, d.Walks fewer q more landing) : d.Walks links p (steps ++ more) landing := by
  generalize hend : Landing.found q = ended at h
  induction h with
  | stop =>
    obtain rfl := Landing.found.inj hend
    exact hmore _
  | here hdir _ ih => exact .here hdir (ih hend)
  | up hdir _ ih => exact .up hdir (ih hend)
  | vacant => cases hend
  | down hdir hsize hentry he _ ih => exact .down hdir hsize hentry he (ih hend)
  | link hdir hsize hentry _ ih =>
    rw [List.append_assoc] at ih
    exact .link hdir hsize hentry (ih hend)

/-- **A walk may be cut at any step before its last.** It ends somewhere there, and goes on. -/
theorem exists_cut {before more : List Step} (hmore : more ≠ [])
    (h : d.Walks links p (before ++ more) landing) :
    ∃ q fewer, d.Walks links p before (.found q) ∧ d.Walks fewer q more landing := by
  generalize hsteps : before ++ more = all at h
  induction h generalizing before with
  | stop => exact absurd (List.append_eq_nil_iff.1 hsteps).2 hmore
  | here hdir hrest ih =>
    rcases List.append_eq_cons_iff.1 hsteps with ⟨rfl, rfl⟩ | ⟨before, rfl, rfl⟩
    · exact ⟨_, _, .stop, .here hdir hrest⟩
    · obtain ⟨q, fewer, hbefore, hlast⟩ := ih rfl
      exact ⟨q, fewer, .here hdir hbefore, hlast⟩
  | up hdir hrest ih =>
    rcases List.append_eq_cons_iff.1 hsteps with ⟨rfl, rfl⟩ | ⟨before, rfl, rfl⟩
    · exact ⟨_, _, .stop, .up hdir hrest⟩
    · obtain ⟨q, fewer, hbefore, hlast⟩ := ih rfl
      exact ⟨q, fewer, .up hdir hbefore, hlast⟩
  | vacant hdir hsize hentry =>
    rcases List.append_eq_cons_iff.1 hsteps with ⟨rfl, rfl⟩ | ⟨before, rfl, hrest⟩
    · exact ⟨_, 0, .stop, .vacant hdir hsize hentry⟩
    · exact absurd (List.append_eq_nil_iff.1 hrest.symm).2 hmore
  | down hdir hsize hentry he hrest ih =>
    rcases List.append_eq_cons_iff.1 hsteps with ⟨rfl, rfl⟩ | ⟨before, rfl, rfl⟩
    · exact ⟨_, _, .stop, .down hdir hsize hentry he hrest⟩
    · obtain ⟨q, fewer, hbefore, hlast⟩ := ih rfl
      exact ⟨q, fewer, .down hdir hsize hentry he hbefore, hlast⟩
  | @link _ _ _ _ _ target hdir hsize hentry hrest ih =>
    rcases List.append_eq_cons_iff.1 hsteps with ⟨rfl, rfl⟩ | ⟨before, rfl, rfl⟩
    · exact ⟨_, _, .stop, .link hdir hsize hentry hrest⟩
    · -- The steps of the target come before those that the walk is cut at.
      obtain ⟨q, fewer, hbefore, hlast⟩ :=
        @ih ((Route.ofText target).steps ++ before) (List.append_assoc ..)
      exact ⟨q, fewer, .link hdir hsize hentry hbefore, hlast⟩

/-- A step that stays in place may be put in before others. -/
theorem insert_here {before after : List Step} (hafter : after ≠ [])
    (h : d.Walks links p (before ++ after) landing) :
    d.Walks links p (before ++ .here :: after) landing := by
  generalize hsteps : before ++ after = all at h
  induction h generalizing before with
  | stop => exact absurd (List.append_eq_nil_iff.1 hsteps).2 hafter
  | here hdir hrest ih =>
    rcases List.append_eq_cons_iff.1 hsteps with ⟨rfl, rfl⟩ | ⟨before, rfl, rfl⟩
    · exact .here hdir (.here hdir hrest)
    · exact .here hdir (ih rfl)
  | up hdir hrest ih =>
    rcases List.append_eq_cons_iff.1 hsteps with ⟨rfl, rfl⟩ | ⟨before, rfl, rfl⟩
    · exact .here hdir (.up hdir hrest)
    · exact .up hdir (ih rfl)
  | vacant hdir hsize hentry =>
    rcases List.append_eq_cons_iff.1 hsteps with ⟨rfl, rfl⟩ | ⟨before, rfl, hrest⟩
    · exact .here hdir (.vacant hdir hsize hentry)
    · exact absurd (List.append_eq_nil_iff.1 hrest.symm).2 hafter
  | down hdir hsize hentry he hrest ih =>
    rcases List.append_eq_cons_iff.1 hsteps with ⟨rfl, rfl⟩ | ⟨before, rfl, rfl⟩
    · exact .here hdir (.down hdir hsize hentry he hrest)
    · exact .down hdir hsize hentry he (ih rfl)
  | @link _ _ _ _ _ target hdir hsize hentry hrest ih =>
    rcases List.append_eq_cons_iff.1 hsteps with ⟨rfl, rfl⟩ | ⟨before, rfl, rfl⟩
    · exact .here hdir (.link hdir hsize hentry hrest)
    · have htarget := @ih ((Route.ofText target).steps ++ before) (List.append_assoc ..)
      rw [List.append_assoc] at htarget
      exact .link hdir hsize hentry htarget

/-- **Steps that stay in place may be put in anywhere but at the end.** The induction is on the
steps before the last one. -/
theorem of_filter {init : List Step} {last : Step} {before : List Step}
    (h : d.Walks links p (before ++ (init.filter (· ≠ .here) ++ [last])) landing) :
    d.Walks links p (before ++ (init ++ [last])) landing := by
  induction init generalizing before with
  | nil => exact h
  | cons step rest ih =>
    by_cases hstep : step = .here
    · subst hstep
      rw [List.filter_cons_of_neg (by simp)] at h
      exact insert_here (by simp) (ih h)
    · rw [List.filter_cons_of_pos (by simpa using hstep), List.cons_append, List.append_cons] at h
      rw [List.cons_append, List.append_cons]
      exact ih h

end Walks

/-! ## Walks on a disk with one more entry -/

/-- **An entry in a vacant place changes no walk, but for those that end there.** -/
theorem Walks.set {d : Disk} {links : ℕ} {p q : Place} {steps : List Step} {landing : Landing}
    {e : Entry} (hq : d.entry? q = none) (he : e.isLink = false)
    (h : d.Walks links p steps landing) : (d.set q e).Walks links p steps (landing.filled q) := by
  have hne := ne_nil_of_entry?_eq_none hq
  have hsome : ∀ {p e'}, d.entry? p = some e' → entry? (d.set q e) p = some e' :=
    entry?_set_of_some hq
  have hdirectory : ∀ {p}, d.isDirectory p = true → (d.set q e).isDirectory p = true := fun hdir =>
    isDirectory_iff.2 (hsome (isDirectory_iff.1 hdir))
  induction h with
  | stop => exact .stop
  | here hdir _ ih => exact .here (hdirectory hdir) ih
  | up hdir _ ih => exact .up (hdirectory hdir) ih
  | @vacant links p n hdir hsize hentry =>
    rw [Landing.filled]
    split_ifs with hplace
    · refine .down (hdirectory hdir) hsize ?_ he .stop
      rw [entry?_set d hne, if_pos hplace]
    · refine .vacant (hdirectory hdir) hsize ?_
      rw [entry?_set d hne, if_neg hplace, hentry]
  | down hdir hsize hentry he' _ ih => exact .down (hdirectory hdir) hsize (hsome hentry) he' ih
  | link hdir hsize hentry _ ih => exact .link (hdirectory hdir) hsize (hsome hentry) ih

end Disk
end CardInventory
