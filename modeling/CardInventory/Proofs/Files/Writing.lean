import CardInventory.Proofs.Files.Disk
import CardInventory.Proofs.Files.Walking
import CardInventory.Proofs.Results
import CardInventory.Proofs.Route

/-
# Writing to a disk

A file that is written in a directory without an entry of its name is there afterwards
(`Disk.HasDirectory.writeFile`) and is read back (`Disk.HasDirectory.readText`), while all that
could be reached before still is (`Disk.Reaches.set`).

A name is new to a disk when there is no entry with it on the way. Making a directory of a new name,
with those above it, leads to a directory that was not there before and has no entries
(`Disk.makeDirectories_join`), for none of the directories above it brings the name in
(`Disk.LacksName.makeChain`).
-/

namespace CardInventory

/-! ## Routes -/

namespace Route

theorem normal_absolute (r : Route) : r.normal.absolute = r.absolute := by
  unfold normal
  split
  · next habsolute _ => exact habsolute.symm
  · rfl

theorem normal_normal (r : Route) : r.normal.normal = r.normal := by
  obtain ⟨absolute, steps⟩ := r
  cases absolute <;> rcases steps with _ | ⟨_ | _ | n, rest⟩ <;> simp [normal]

end Route

namespace Disk

/-! ## Names that are new -/

/-- Is there no entry with a name on the way to it? -/
def LacksName (d : Disk) (name : RawText) : Prop := ∀ x ∈ d.entries, name ∉ x.1

instance (d : Disk) (name : RawText) : Decidable (d.LacksName name) :=
  inferInstanceAs (Decidable (∀ x ∈ d.entries, name ∉ x.1))

namespace LacksName

variable {d d' : Disk} {name : RawText} {p : Place} {e : Entry}

theorem notMem (h : d.LacksName name) (hp : d.entry? p = some e) : name ∉ p := by
  unfold entry? at hp
  split_ifs at hp with hnil
  · rw [hnil]
    exact List.not_mem_nil
  · obtain ⟨before, after, hentries, -⟩ := List.lookup_eq_some_iff.1 hp
    exact h (p, e) (by simp [hentries])

theorem entry?_eq_none (h : d.LacksName name) (hp : name ∈ p) : d.entry? p = none :=
  Option.eq_none_iff_forall_not_mem.2 fun _ he => h.notMem he hp

theorem entry?_concat (h : d.LacksName name) (p : Place) : d.entry? (p ++ [name]) = none :=
  h.entry?_eq_none (List.mem_append_right p (List.mem_singleton_self _))

theorem set (h : d.LacksName name) (hp : name ∉ p) : (d.set p e).LacksName name := by
  intro x hx
  rcases mem_entries_set hx with rfl | hx
  · exact hp
  · exact h x hx

/-- A walk to a new name finds its place vacant. -/
theorem exists_eq_vacant (h : d.LacksName name) {links : ℕ} {before : List Step}
    {landing : Landing} (hwalks : d.Walks links p (before ++ [.name name]) landing) :
    ∃ q, landing = .vacant (q ++ [name]) := by
  obtain ⟨q, fewer, -, hlast⟩ := hwalks.exists_cut (List.cons_ne_nil _ _)
  cases hlast with
  | vacant => exact ⟨q, rfl⟩
  | down _ _ hentry | link _ _ hentry =>
    rw [h.entry?_concat] at hentry
    cases hentry

end LacksName

/-! ## Directories that are reached -/

/-- A route leads to a directory. -/
structure Reaches (d : Disk) (route : Route) (p : Place) : Prop where
  walks : d.Walks 40 (d.start route.absolute) route.steps (.found p)
  isDirectory : d.isDirectory p = true

/-- Where a route that is not empty leads. -/
theorem land_eq_ok_iff {d : Disk} {route : Route} (hroute : route.steps ≠ []) {landing : Landing} :
    d.land route = .ok landing ↔ d.Walks 40 (d.start route.absolute) route.steps landing := by
  have hempty : route.isEmpty = false := by simp [Route.isEmpty, hroute]
  rw [walks_iff, land, hempty, if_neg Bool.false_ne_true]

theorem walks_of_locate_eq_ok {d : Disk} {route : Route} {p : Place} (h : d.locate route = .ok p) :
    d.Walks 40 (d.start route.absolute) route.steps (.found p) := by
  unfold locate land at h
  split_ifs at h
  split at h
  · next hwalk =>
    rw [← Except.ok.inj h]
    exact walks_iff.2 hwalk
  · cases h
  · cases h

namespace Reaches

variable {d : Disk} {route : Route} {p q : Place} {n : RawText} {e : Entry}

/-- What is reached is reached after an entry was put in a vacant place. -/
theorem set (h : d.Reaches route p) (hq : d.entry? q = none) (he : e.isLink = false) :
    (d.set q e).Reaches route p where
  walks := by
    rw [start_set]
    exact h.walks.set hq he
  isDirectory := isDirectory_iff.2 (entry?_set_of_some hq (isDirectory_iff.1 h.isDirectory))

/-- A walk goes on from a directory that is reached. -/
theorem land_child (h : d.Reaches route p) {landing : Landing}
    (hlast : ∀ links, d.Walks links p [.name n] landing) : d.land (route.child n) = .ok landing :=
  (land_eq_ok_iff (by simp [Route.child])).2 (h.walks.append hlast)

/-- The entry of a name in a directory that is reached. -/
theorem land_child_of_some (h : d.Reaches route p) (hsize : n.size ≤ nameLimit)
    (hentry : d.entry? (p ++ [n]) = some e) (he : e.isLink = false) :
    d.land (route.child n) = .ok (.found (p ++ [n])) :=
  h.land_child fun _ => .down h.isDirectory hsize hentry he .stop

theorem land_child_of_none (h : d.Reaches route p) (hsize : n.size ≤ nameLimit)
    (hentry : d.entry? (p ++ [n]) = none) : d.land (route.child n) = .ok (.vacant (p ++ [n])) :=
  h.land_child fun _ => .vacant h.isDirectory hsize hentry

/-- A directory in a directory that is reached. -/
theorem child (h : d.Reaches route p) (hsize : n.size ≤ nameLimit)
    (hentry : d.entry? (p ++ [n]) = some .directory) : d.Reaches (route.child n) (p ++ [n]) where
  walks := h.walks.append fun _ => .down h.isDirectory hsize hentry rfl .stop
  isDirectory := isDirectory_iff.2 hentry

/-- Before a last name the steps that do not count make no difference. -/
theorem of_normal {init : List Step} (hsteps : route.steps = init ++ [.name n])
    (h : d.Reaches route.normal p) : d.Reaches route p where
  walks := by
    have hwalks := h.walks
    rw [Route.normal_absolute] at hwalks
    have hfilter : (init ++ [Step.name n]).filter (· ≠ .here) =
        init.filter (· ≠ .here) ++ [.name n] := by simp
    unfold Route.normal at hwalks
    split at hwalks
    · next rest _ hrest =>
      rw [hsteps] at hrest ⊢
      cases init with
      | nil => cases hrest
      | cons step init =>
        obtain ⟨rfl, rfl⟩ := List.cons.inj hrest
        have hinit : (init ++ [Step.name n]).filter (· ≠ .here) =
            init.filter (· ≠ .here) ++ [.name n] := by simp
        exact @Walks.of_filter d 40 _ _ init (.name n) [.here] (hinit ▸ hwalks)
    · rw [hsteps, hfilter] at hwalks
      rw [hsteps]
      exact @Walks.of_filter d 40 _ _ init (.name n) [] hwalks
  isDirectory := h.isDirectory

end Reaches

/-! ## Making directories -/

/-- A directory is made under a directory that is reached, where there is no entry of its name. -/
theorem exists_of_makeDirectory_eq_ok {d d' : Disk} {route : Route}
    (h : d.makeDirectory route = .ok d') : ∃ dir name p, route.normal = dir.child name ∧
      d.Reaches dir p ∧ name.size ≤ nameLimit ∧ d.entry? (p ++ [name]) = none ∧
      d' = d.set (p ++ [name]) .directory := by
  obtain ⟨place, hvacancy, rfl⟩ := exists_of_map_eq_ok h
  unfold vacancy at hvacancy
  split at hvacancy
  · next dir name hparent hname =>
    have hbind : (if dir.isEmpty then .ok d.workingDirectory else d.locate dir) >>= (fun p =>
        if !d.isDirectory p then .error .notDirectory
        else if nameLimit < name.size then .error .nameTooLong
        else if (d.entry? (p ++ [name])).isSome then .error .alreadyExists
        else .ok (p ++ [name])) = .ok place := by
      rw [← hvacancy]
      cases dir.isEmpty <;> rfl
    obtain ⟨p, hp, hplace⟩ := exists_of_bind_eq_ok hbind
    have hwalks : d.Walks 40 (d.start dir.absolute) dir.steps (.found p) := by
      split_ifs at hp with hempty
      · -- Of a route of one step the directory is the one that routes start in.
        obtain rfl := Except.ok.inj hp
        obtain ⟨absolute, steps⟩ := dir
        simp only [Route.isEmpty, Bool.and_eq_true, Bool.not_eq_true', List.isEmpty_iff] at hempty
        obtain ⟨rfl, rfl⟩ := hempty
        exact .stop
      · exact walks_of_locate_eq_ok hp
    split_ifs at hplace with hdir hsize hentry
    refine ⟨dir, name, p, Route.eq_child_iff.1 ⟨hparent, hname⟩, ⟨hwalks, by simpa using hdir⟩,
      not_lt.1 hsize, by simpa using hentry, ?_⟩
    rw [← Except.ok.inj hplace]
  · next hname =>
    obtain ⟨p, -, hvacancy⟩ := exists_of_bind_eq_ok hvacancy
    cases hvacancy
  · cases hvacancy

/-- What making a chain of directories can do: the last of them is made on the disk as it is or as
the directories above it leave it, or nothing more is made, which is well only if the last of them
is there already. -/
theorem makeChain_cons (d : Disk) (route : Route) (above : List Route) :
    ∃ d₁, (d₁ = d ∨ d₁ = (d.makeChain above).1) ∧
      ((∃ d', d₁.makeDirectory route = .ok d' ∧ d.makeChain (route :: above) = (d', .ok ())) ∨
        ((d.makeChain (route :: above)).1 = d₁ ∧
          ((d.makeChain (route :: above)).2 = .ok () → d₁.leadsToDirectory route = true))) := by
  have hthere : ∀ (d : Disk) (e : FileError),
      (if d.leadsToDirectory route then .ok () else .error e : Except FileError Unit) = .ok () →
        d.leadsToDirectory route = true := fun d e h => by
    split_ifs at h with hleads
    exact hleads
  generalize hresult : d.makeChain (route :: above) = result
  rw [makeChain] at hresult
  split at hresult
  · next d' hmake =>
    subst hresult
    exact ⟨d, .inl rfl, .inl ⟨d', hmake, rfl⟩⟩
  · split at hresult
    · next d₁ e habove =>
      subst hresult
      refine ⟨d₁, .inr (by rw [habove]), .inr ⟨rfl, fun h => ?_⟩⟩
      cases h
    · next d₁ habove =>
      refine ⟨d₁, .inr (by rw [habove]), ?_⟩
      split at hresult
      · next d' hmake =>
        subst hresult
        exact .inl ⟨d', hmake, rfl⟩
      · next e _ =>
        subst hresult
        exact .inr ⟨rfl, hthere d₁ e⟩
  · next e _ _ =>
    subst hresult
    exact ⟨d, .inl rfl, .inr ⟨rfl, hthere d e⟩⟩

namespace LacksName

variable {d d' : Disk} {name : RawText}

/-- A directory of another name does not bring a new name in. -/
theorem makeDirectory {route : Route} (hroute : route.normal.fileName? ≠ some name)
    (h : d.LacksName name) (hmake : d.makeDirectory route = .ok d') : d'.LacksName name := by
  obtain ⟨dir, n, p, hnormal, hreaches, -, -, rfl⟩ := exists_of_makeDirectory_eq_ok hmake
  refine h.set fun hmem => ?_
  rcases List.mem_append.1 hmem with hmem | hmem
  · exact h.notMem (isDirectory_iff.1 hreaches.isDirectory) hmem
  · rw [List.mem_singleton.1 hmem] at hroute
    exact hroute (Route.eq_child_iff.2 hnormal).2

/-- **No directory above a new name brings the name in.** -/
theorem makeChain {routes : List Route}
    (hroutes : ∀ route ∈ routes, route.normal.fileName? ≠ some name) (h : d.LacksName name) :
    (d.makeChain routes).1.LacksName name := by
  induction routes generalizing d with
  | nil => exact h
  | cons route above ih =>
    obtain ⟨hroute, habove⟩ := List.forall_mem_cons.1 hroutes
    obtain ⟨d₁, hd₁, hlast⟩ := d.makeChain_cons route above
    have hnew : d₁.LacksName name := by
      rcases hd₁ with rfl | rfl
      · exact h
      · exact ih habove h
    rcases hlast with ⟨d', hmake, hchain⟩ | ⟨hchain, -⟩
    · rw [hchain]
      exact hnew.makeDirectory hroute hmake
    · rw [hchain]
      exact hnew

/-- A new name is that of no directory. -/
theorem leadsToDirectory_eq_false (h : d.LacksName name) (dir : Route) :
    d.leadsToDirectory (dir.child name) = false := by
  unfold leadsToDirectory
  split
  · next p hp =>
    obtain ⟨q, hq⟩ := h.exists_eq_vacant (walks_of_locate_eq_ok hp)
    cases hq
  · rfl

/-- **A directory of a new name is made on a disk to which the name is new.** -/
theorem exists_of_makeChain {dir : Route} {above : List Route}
    (hnormal : (dir.child name).normal = dir.child name)
    (habove : ∀ route ∈ above, route.normal.fileName? ≠ some name) (h : d.LacksName name)
    (hchain : d.makeChain (dir.child name :: above) = (d', .ok ())) :
    ∃ (d₀ : Disk) (p : Place), d₀.LacksName name ∧ d₀.Reaches dir p ∧ name.size ≤ nameLimit ∧
      d' = d₀.set (p ++ [name]) .directory := by
  obtain ⟨d₀, hd₀, hlast⟩ := d.makeChain_cons (dir.child name) above
  have hnew : d₀.LacksName name := by
    rcases hd₀ with rfl | rfl
    · exact h
    · exact h.makeChain habove
  rw [hchain] at hlast
  rcases hlast with ⟨d'', hmake, heq⟩ | ⟨-, hleads⟩
  · obtain rfl := (Prod.mk.inj heq).1
    obtain ⟨dir', name', p, hdir, hreaches, hsize, -, rfl⟩ := exists_of_makeDirectory_eq_ok hmake
    rw [hnormal] at hdir
    obtain ⟨rfl, rfl⟩ := Route.child_inj hdir
    exact ⟨d₀, p, hnew, hreaches, hsize, rfl⟩
  · rw [hnew.leadsToDirectory_eq_false] at hleads
    cases hleads rfl

end LacksName

theorem routeOf_eq_ok {path : RawText} {route : Route} (h : routeOf path = .ok route) :
    route = Route.ofText path := by
  unfold routeOf at h
  split_ifs at h
  exact (Except.ok.inj h).symm

/-- What may be asked for has no NUL character and not too many bytes. -/
theorem routeOf_bounds {path : RawText} {route : Route} (h : routeOf path = .ok route) :
    .char '\x00' ∉ path.pieces ∧ path.size ≤ pathLimit := by
  unfold routeOf at h
  split_ifs at h with hnul hsize
  exact ⟨hnul, not_lt.1 hsize⟩

/-- A path may be asked for if a longer one may. -/
theorem routeOf_of_routeOf_join {dir : Path} {name : RawText} (hname : .char '/' ∉ name.pieces)
    {route : Route} (h : routeOf (dir.join name).raw = .ok route) :
    routeOf dir.raw = .ok (Route.ofText dir.raw) := by
  obtain ⟨hnul, hsize⟩ := routeOf_bounds h
  rw [dir.pieces_join hname, List.mem_append, not_or] at hnul
  rw [dir.size_join hname] at hsize
  rw [routeOf, if_neg hnul.1, if_neg (not_lt.2 (le_trans (Nat.le_add_right _ _) hsize))]

/-! ## Files -/

/-- A name that a file in a directory may have, neither it nor the path being too long. -/
structure FileName (dir : Path) (name : String) : Prop where
  isName : IsName name
  size_name : (RawText.ofString name).size ≤ nameLimit
  size_path : (dir.join name).raw.size ≤ pathLimit

/-- A path leads to a directory, and a name that is joined to it is one more step. -/
structure HasDirectory (d : Disk) (dir : Path) (p : Place) : Prop where
  routeOf_eq : routeOf dir.raw = .ok (Route.ofText dir.raw)
  reaches : d.Reaches (Route.ofText dir.raw) p
  ofText_join : ∀ {name}, IsEntryName name →
    Route.ofText (dir.join name).raw = (Route.ofText dir.raw).child name

namespace HasDirectory

variable {d : Disk} {dir : Path} {p q : Place} {m n : String} {e : Entry} {text text' : String}

/-- A path leads to the directory of its last name in the directory above, which is reached. -/
theorem of_reaches (hn : IsEntryName n)
    (hroute : routeOf (dir.join n).raw = .ok (Route.ofText (dir.join n).raw))
    (hreaches : d.Reaches dir.route p) (hsize : (RawText.ofString n).size ≤ nameLimit)
    (hentry : d.entry? (p ++ [.ofString n]) = some .directory) :
    d.HasDirectory (dir.join n) (p ++ [.ofString n]) := by
  have hchild : (Route.ofText (dir.join n).raw).normal = dir.route.child (.ofString n) :=
    dir.route_join hn
  obtain ⟨init, hsteps⟩ := dir.exists_steps_ofText_join hn
  exact ⟨hroute, .of_normal hsteps (hchild ▸ hreaches.child hsize hentry),
    fun hfile => dir.ofText_join_join hn hfile⟩

theorem set (h : d.HasDirectory dir p) (hq : d.entry? q = none) (he : e.isLink = false) :
    (d.set q e).HasDirectory dir p :=
  ⟨h.routeOf_eq, h.reaches.set hq he, h.ofText_join⟩

/-- A file in the directory may be asked for. -/
theorem routeOf_join (h : d.HasDirectory dir p) (hn : FileName dir n) :
    routeOf (dir.join n).raw = .ok ((Route.ofText dir.raw).child (.ofString n)) := by
  have hjoin : .char '\x00' ∉ (dir.join n).raw.pieces := fun hmem => by
    rcases Path.mem_pieces_join hmem with hdir | hslash | hname
    · exact (routeOf_bounds h.routeOf_eq).1 hdir
    · cases hslash
    · exact hn.isName.no_nul hname
  rw [routeOf, if_neg hjoin, if_neg (not_lt.2 hn.size_path), h.ofText_join hn.isName.toIsEntryName]

/-- **A file is written where there is no entry of its name.** -/
theorem writeFile (h : d.HasDirectory dir p) (hn : FileName dir n)
    (hentry : d.entry? (p ++ [.ofString n]) = none) (content : RawText) :
    d.writeFile (dir.join n).raw content = .ok (d.set (p ++ [.ofString n]) (.file content)) := by
  unfold Disk.writeFile
  rw [h.routeOf_join hn]
  simp only [bind, Except.bind, h.reaches.land_child_of_none hn.size_name hentry]
  rfl

/-- **The text of a file is read.** -/
theorem readText (h : d.HasDirectory dir p) (hn : FileName dir n)
    (hentry : d.entry? (p ++ [.ofString n]) = some (.file (.ofString text))) :
    d.system.readText (dir.join n) = .ok text := by
  have hlocate : d.locatePath (dir.join n) = .ok (p ++ [.ofString n]) := by
    rw [locatePath, h.routeOf_join hn]
    simp only [bind, Except.bind, locate, h.reaches.land_child_of_some hn.size_name hentry rfl]
  rw [system_readText, hlocate]
  simp only [bind, Except.bind, textAt, hentry, RawText.toString?_ofString, Option.elim_some]

/-- **Two files of different names are written and both are read back**, where there were none. -/
theorem exists_writeFile_writeFile (h : d.HasDirectory dir p) (hm : FileName dir m)
    (hn : FileName dir n) (hne : m ≠ n) (hempty : ∀ name, d.entry? (p ++ [name]) = none)
    (text text' : String) :
    ∃ d₁ d₂ : Disk, d.writeFile (dir.join m).raw (.ofString text) = .ok d₁ ∧
      d₁.writeFile (dir.join n).raw (.ofString text') = .ok d₂ ∧
      d₂.system.readText (dir.join m) = .ok text ∧
      d₂.system.readText (dir.join n) = .ok text' := by
  have hplaces : p ++ [.ofString m] ≠ p ++ [.ofString n] := by
    simpa [RawText.ofString_injective.eq_iff] using hne
  have hm₀ := hempty (.ofString m)
  have hm₁ := entry?_set d (ne_nil_of_entry?_eq_none hm₀) (.file (.ofString text))
  have hn₁ : entry? (d.set (p ++ [.ofString m]) (.file (.ofString text))) (p ++ [.ofString n]) =
      none := by
    rw [hm₁, if_neg hplaces.symm, hempty]
  have hn₂ := entry?_set (d.set (p ++ [.ofString m]) (.file (.ofString text)))
    (ne_nil_of_entry?_eq_none hn₁) (.file (.ofString text'))
  have hset := (h.set hm₀ rfl).set hn₁ (rfl : (Entry.file (.ofString text')).isLink = false)
  refine ⟨_, _, h.writeFile hm hm₀ _, (h.set hm₀ rfl).writeFile hn hn₁ _, hset.readText hm ?_,
    hset.readText hn ?_⟩
  · rw [hn₂, if_neg hplaces, hm₁, if_pos rfl]
  · rw [hn₂, if_pos rfl]

end HasDirectory

/-- **Making a directory of a new name leads to a directory without entries.** -/
theorem makeDirectories_join {d d' : Disk} {base : Path} {name : String} (hname : IsEntryName name)
    (hnew : d.LacksName (.ofString name)) (hbase : .name (.ofString name) ∉ base.route.steps)
    (h : d.makeDirectories (base.join name).raw = (d', .ok ())) :
    ∃ p, d'.HasDirectory (base.join name) p ∧ ∀ n, d'.entry? (p ++ [n]) = none := by
  unfold makeDirectories at h
  split at h
  · next route hroute =>
    obtain rfl := routeOf_eq_ok hroute
    have hchild : (Route.ofText (base.join name).raw).normal = base.route.child (.ofString name) :=
      base.route_join hname
    have hnormal : (base.route.child (.ofString name)).normal =
        base.route.child (.ofString name) := by
      rw [← hchild, Route.normal_normal]
    have habove : ∀ r ∈ base.route.lineage.reverse,
        r.normal.fileName? ≠ some (.ofString name) := fun r hr hfile => by
      have hstep := Route.mem_of_mem_normal (Route.mem_steps_of_fileName? hfile)
      exact hbase (Route.mem_steps_of_mem_lineage (List.mem_reverse.1 hr) hstep)
    rw [hchild, Route.lineage_child, List.reverse_append, List.reverse_singleton,
      List.singleton_append] at h
    obtain ⟨d₀, p, hd₀, hreaches, hsize, rfl⟩ := hnew.exists_of_makeChain hnormal habove h
    have hvacant := hd₀.entry?_concat p
    have hne := ne_nil_of_entry?_eq_none hvacant
    refine ⟨p ++ [.ofString name], .of_reaches hname hroute (hreaches.set hvacant rfl) hsize ?_,
      fun n => ?_⟩
    · rw [entry?_set d₀ hne, if_pos rfl]
    · rw [entry?_set d₀ hne, if_neg (by simp), hd₀.entry?_eq_none (by simp)]
  · cases (Prod.mk.inj h).2

end Disk
end CardInventory
