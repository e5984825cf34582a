import CardInventory.Proofs.Files.Writing

/-
# Disks that only grow

To make directories is to put new ones in vacant places, one after the other, whether all of them
are made in the end or not (`Disk.grows_makeDirectories`). A disk that grows in this way keeps all
its entries and has the same files (`Disk.Grows.fileAt?_eq`), and what could be reached before still
is (`Disk.Grows.reaches`).

Where a directory of a given name is made, it may have been made on the way to itself, as the route
may go up again. But it is new, if there was nothing of its name in the directory above
(`Disk.exists_of_makeDirectories_join`); and on a disk that is a tree nothing is below what is not
there, so that a file that is then written in it is new as well
(`Disk.HasDirectory.eq_set_of_writeFile`).
-/

namespace CardInventory
namespace Disk

/-! ## Trees -/

/-- Is every entry in a directory? -/
def IsTree (d : Disk) : Prop := ∀ x ∈ d.entries, d.isDirectory x.1.dropLast = true

instance (d : Disk) : Decidable d.IsTree :=
  inferInstanceAs (Decidable (∀ x ∈ d.entries, d.isDirectory x.1.dropLast = true))

/-- **In a tree nothing is below what is not there.** -/
theorem IsTree.entry?_concat_eq_none {d : Disk} (h : d.IsTree) {p : Place} (hp : d.entry? p = none)
    (n : RawText) : d.entry? (p ++ [n]) = none := by
  refine Option.eq_none_iff_forall_not_mem.2 fun e he => ?_
  have hlookup : d.entries.lookup (p ++ [n]) = some e := by
    rwa [Option.mem_def, entry?, if_neg (by simp)] at he
  obtain ⟨before, after, hentries, -⟩ := List.lookup_eq_some_iff.1 hlookup
  have hdir := h (p ++ [n], e) (by simp [hentries])
  rw [List.dropLast_concat, isDirectory_iff, hp] at hdir
  cases hdir

/-- The content of the file at a place, if there is one. -/
def fileAt? (d : Disk) (p : Place) : Option RawText :=
  match d.entry? p with
  | some (.file content) => some content
  | _ => none

theorem fileAt?_set_file (d : Disk) {p : Place} (hp : p ≠ []) (content : RawText) (q : Place) :
    (d.set p (.file content)).fileAt? q = if q = p then some content else d.fileAt? q := by
  unfold fileAt?
  rw [entry?_set d hp]
  split_ifs <;> rfl

/-! ## Growing -/

/-- A disk grows by new directories in vacant places. -/
inductive Grows (d : Disk) : Disk → Prop
  | refl : Grows d d
  | directory {d' : Disk} {p : Place} (h : Grows d d') (hp : d'.entry? p = none) :
    Grows d (d'.set p .directory)

namespace Grows

variable {d d' d'' : Disk} {p : Place} {e : Entry} {route : Route}

theorem trans (h : d.Grows d') (h' : d'.Grows d'') : d.Grows d'' := by
  induction h' with
  | refl => exact h
  | directory _ hp ih => exact ih.directory hp

/-- What is there stays. -/
theorem entry?_of_some (h : d.Grows d') (hp : d.entry? p = some e) : d'.entry? p = some e := by
  induction h with
  | refl => exact hp
  | directory _ hq ih => exact entry?_set_of_some hq ih

/-- What is new is a directory. -/
theorem eq_directory (h : d.Grows d') (hp : d.entry? p = none) (hp' : d'.entry? p = some e) :
    e = .directory := by
  induction h with
  | refl =>
    rw [hp] at hp'
    cases hp'
  | directory _ hq ih =>
    rw [entry?_set _ (ne_nil_of_entry?_eq_none hq)] at hp'
    split_ifs at hp'
    · exact (Option.some.inj hp').symm
    · exact ih hp'

/-- **A disk that grows has the same files.** -/
theorem fileAt?_eq (h : d.Grows d') (p : Place) : d'.fileAt? p = d.fileAt? p := by
  unfold fileAt?
  cases hp : d.entry? p with
  | some e => rw [h.entry?_of_some hp]
  | none =>
    cases hp' : d'.entry? p with
    | none => rfl
    | some e => rw [h.eq_directory hp hp']

/-- **What is reached stays reached.** -/
theorem reaches (h : d.Grows d') (hreaches : d.Reaches route p) : d'.Reaches route p := by
  induction h with
  | refl => exact hreaches
  | directory _ hq ih => exact ih.set hq rfl

end Grows

/-! ## Making directories -/

theorem grows_makeDirectory {d d' : Disk} {route : Route} (h : d.makeDirectory route = .ok d') :
    d.Grows d' := by
  obtain ⟨dir, name, p, -, -, -, hvacant, rfl⟩ := exists_of_makeDirectory_eq_ok h
  exact Grows.refl.directory hvacant

/-- A chain of directories makes the disk grow, as far as it is made. -/
theorem grows_makeChain (d : Disk) (routes : List Route) : d.Grows (d.makeChain routes).1 := by
  induction routes with
  | nil => exact .refl
  | cons route above ih =>
    obtain ⟨d₁, hd₁, hlast⟩ := d.makeChain_cons route above
    have hgrows : d.Grows d₁ := by
      rcases hd₁ with rfl | rfl
      · exact .refl
      · exact ih
    rcases hlast with ⟨d', hmake, hchain⟩ | ⟨hchain, -⟩
    · rw [hchain]
      exact hgrows.trans (grows_makeDirectory hmake)
    · rw [hchain]
      exact hgrows

/-- **Making directories makes a disk grow**, whether it succeeds or fails. -/
theorem grows_makeDirectories (d : Disk) (path : RawText) :
    d.Grows (d.makeDirectories path).1 := by
  unfold makeDirectories
  split
  · exact grows_makeChain _ _
  · exact .refl

/-- A walk to a name ends in a directory that the steps before lead to. -/
theorem exists_reaches_of_locate {d : Disk} {dir : Route} {n : RawText} {q : Place}
    (h : d.locate (dir.child n) = .ok q) :
    ∃ p, d.Reaches dir p ∧ n.size ≤ nameLimit ∧ ∃ e, d.entry? (p ++ [n]) = some e := by
  obtain ⟨p, fewer, hbefore, hlast⟩ :=
    Walks.exists_cut (List.cons_ne_nil _ _) (walks_of_locate_eq_ok h)
  cases hlast with
  | down hdir hsize hentry => exact ⟨p, ⟨hbefore, hdir⟩, hsize, _, hentry⟩
  | link hdir hsize hentry => exact ⟨p, ⟨hbefore, hdir⟩, hsize, _, hentry⟩

/-- **A directory of a name is made in the directory above, which is reached.** This holds of the
disk on which only the directory above is made, too, so that it has the same place there. Where
there was nothing of the name in it, there is a directory then. -/
theorem exists_of_makeDirectories_join {d d' : Disk} {dir : Path} {name : String}
    (hname : IsEntryName name) (h : d.makeDirectories (dir.join name).raw = (d', .ok ())) :
    routeOf (dir.join name).raw = .ok (Route.ofText (dir.join name).raw) ∧
      ∃ p, d'.Reaches dir.route p ∧ (d.makeDirectories dir.raw).1.Reaches dir.route p ∧
        (RawText.ofString name).size ≤ nameLimit ∧
        (d.entry? (p ++ [.ofString name]) = none →
          d'.entry? (p ++ [.ofString name]) = some .directory) := by
  have habove : ∀ route, routeOf (dir.join name).raw = .ok route →
      (d.makeDirectories dir.raw).1 = (d.makeChain dir.route.lineage.reverse).1 := by
    intro route hroute
    rw [makeDirectories, routeOf_of_routeOf_join hname.no_slash hroute]
    rfl
  have hgrows := d.grows_makeDirectories dir.raw
  unfold makeDirectories at h
  split at h
  · next route hroute =>
    rw [habove route hroute] at hgrows ⊢
    obtain rfl := routeOf_eq_ok hroute
    have hchild : (Route.ofText (dir.join name).raw).normal = dir.route.child (.ofString name) :=
      dir.route_join hname
    rw [hchild, Route.lineage_child, List.reverse_append, List.reverse_singleton,
      List.singleton_append] at h
    obtain ⟨d₀, hd₀, hlast⟩ :=
      d.makeChain_cons (dir.route.child (.ofString name)) dir.route.lineage.reverse
    have hbefore : d.Grows d₀ ∧ d₀.Grows (d.makeChain dir.route.lineage.reverse).1 := by
      rcases hd₀ with rfl | rfl
      · exact ⟨.refl, hgrows⟩
      · exact ⟨hgrows, .refl⟩
    refine ⟨hroute, ?_⟩
    rw [h] at hlast
    rcases hlast with ⟨d₁, hmake, heq⟩ | ⟨rfl, hleads⟩
    · -- The directory is made last.
      obtain rfl := (Prod.mk.inj heq).1
      obtain ⟨dir', name', p, hdir, hreaches, hsize, hvacant, rfl⟩ :=
        exists_of_makeDirectory_eq_ok hmake
      rw [← hchild, Route.normal_normal, hchild] at hdir
      obtain ⟨rfl, rfl⟩ := Route.child_inj hdir
      refine ⟨p, hreaches.set hvacant rfl, hbefore.2.reaches hreaches, hsize, fun _ => ?_⟩
      rw [entry?_set d₀ (ne_nil_of_entry?_eq_none hvacant), if_pos rfl]
    · -- It was there, or was made on the way.
      have hlocate : ∃ q, d'.locate (dir.route.child (.ofString name)) = .ok q := by
        have hleads := hleads rfl
        unfold leadsToDirectory at hleads
        split at hleads
        · next q hq => exact ⟨q, hq⟩
        · cases hleads
      obtain ⟨q, hq⟩ := hlocate
      obtain ⟨p, hreaches, hsize, e, hentry⟩ := exists_reaches_of_locate hq
      refine ⟨p, hreaches, hbefore.2.reaches hreaches, hsize, fun hnew => ?_⟩
      rw [hentry, hbefore.1.eq_directory hnew hentry]
  · cases (Prod.mk.inj h).2

/-- **A file that is written where there is at most a directory is new**, and it is the only
change. -/
theorem HasDirectory.eq_set_of_writeFile {d d' : Disk} {dir : Path} {p : Place} {n : String}
    {content : RawText} (h : d.HasDirectory dir p) (hn : IsName n)
    (hsize : (RawText.ofString n).size ≤ nameLimit)
    (hentry : ∀ e, d.entry? (p ++ [.ofString n]) = some e → e = .directory)
    (hwrite : d.writeFile (dir.join n).raw content = .ok d') :
    d.entry? (p ++ [.ofString n]) = none ∧ d' = d.set (p ++ [.ofString n]) (.file content) := by
  obtain ⟨route, hroute, hland⟩ := exists_of_bind_eq_ok hwrite
  have hfile : FileName dir n := ⟨hn, hsize, (routeOf_bounds hroute).2⟩
  cases hplace : d.entry? (p ++ [.ofString n]) with
  | none =>
    rw [h.writeFile hfile hplace] at hwrite
    exact ⟨rfl, (Except.ok.inj hwrite).symm⟩
  | some e =>
    -- A directory is not written over.
    obtain rfl := hentry e hplace
    rw [h.routeOf_join hfile] at hroute
    obtain rfl := Except.ok.inj hroute
    rw [h.reaches.land_child_of_some hsize hplace rfl] at hland
    simp only [bind, Except.bind, isDirectory_iff.2 hplace] at hland
    cases hland

end Disk
end CardInventory
