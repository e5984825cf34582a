import CardInventory.Proofs.Files.Writing

/-
# Damaged names

A directory may have entries whose names are no text, and these are shown with replacement
characters for the damage. What is shown is a name again (`IsEntryName.lossy`), but
it is no longer the name of the entry: a path that is made of it leads to the entry that is named
by just this text, if there is one. So what is read below a shown name is read below an entry of
the directory that is undamaged (`Disk.mem_of_readText`), and a damaged entry is shown as
another one where the replacement of its damage spells the name of that one.
-/

namespace CardInventory

/-! ## What is below a shown name -/

namespace Disk

/-- A walk has one end. -/
theorem Walks.unique {d : Disk} {links : ℕ} {p : Place} {steps : List Step}
    {landing₁ landing₂ : Landing} (h₁ : d.Walks links p steps landing₁)
    (h₂ : d.Walks links p steps landing₂) : landing₁ = landing₂ :=
  Except.ok.inj (h₁.walkLinks_eq_ok.symm.trans h₂.walkLinks_eq_ok)

/-- The names at a place are those of the entries right below it. -/
theorem mem_namesIn_iff {d : Disk} {p : Place} {n : RawText} :
    n ∈ d.namesIn p ↔ ∃ e, d.entry? (p ++ [n]) = some e := by
  have hlookup : d.entry? (p ++ [n]) = d.entries.lookup (p ++ [n]) := if_neg (by simp)
  simp only [hlookup, ← Option.isSome_iff_exists, List.lookup_isSome_iff, beq_iff_eq, namesIn,
    List.mem_filterMap, Option.ite_none_right_eq_some]
  refine exists_congr fun e => and_congr_right fun _ => ⟨?_, ?_⟩
  · rintro ⟨rfl, hlast⟩
    exact List.dropLast_append_getLast? n hlast
  · intro h
    rw [← h]
    exact ⟨List.dropLast_concat, List.getLast?_concat⟩

/-- A step stands for a slash at the end of a path: the walk ends in the same place without it. -/
theorem walks_of_steps {d : Disk} {links : ℕ} {p q : Place} {steps init : List Step}
    (hsteps : steps = init ∨ steps = init ++ [.here])
    (h : d.Walks links p steps (.found q)) : d.Walks links p init (.found q) := by
  rcases hsteps with rfl | rfl
  · exact h
  · obtain ⟨q', fewer, hinit, hlast⟩ := h.exists_cut (by simp)
    cases hlast with
    | here _ hstop =>
      cases hstop
      exact hinit

/-- **What is read below a name is read below an entry of that name**, however the path of the
directory is spelled. -/
theorem mem_of_readText {d : Disk} {root : Path} {names : List RawText}
    (hlist : d.system.readNames root = .ok names) {id file : RawText} (hid : IsEntryName id)
    (hfile : IsEntryName file) {content : String}
    (h : d.system.readText ((root.join id).join file) = .ok content) : id ∈ names := by
  rw [system_readNames] at hlist
  rw [system_readText] at h
  obtain ⟨p, hp, hnames⟩ := exists_of_bind_eq_ok hlist
  obtain ⟨q, hq, -⟩ := exists_of_bind_eq_ok h
  unfold locatePath at hp hq
  obtain ⟨rootRoute, hrootRoute, hp⟩ := exists_of_bind_eq_ok hp
  obtain ⟨fileRoute, hfileRoute, hq⟩ := exists_of_bind_eq_ok hq
  obtain rfl := routeOf_eq_ok hrootRoute
  obtain rfl := routeOf_eq_ok hfileRoute
  have hroot : root.raw.pieces ≠ [] := fun hnil => by
    rw [Path.ofText_raw_nil hnil] at hp
    cases hp
  obtain ⟨init, hjoin, hsteps⟩ := Path.exists_ofText_join hroot hid
  have hdir := walks_of_steps hsteps (walks_of_locate_eq_ok hp)
  have hbelow := walks_of_locate_eq_ok hq
  rw [Path.ofText_join_join root hid hfile, hjoin] at hbelow
  unfold Route.child at hbelow
  rw [List.append_assoc] at hbelow
  obtain ⟨p', fewer, hdir', hlast⟩ := hbelow.exists_cut (by simp)
  -- The walk to the file comes by the directory that was listed.
  obtain rfl : p = p' := Landing.found.inj (hdir.unique hdir')
  have hentry : ∃ e, d.entry? (p ++ [id]) = some e := by
    cases hlast with
    | down _ _ hentry _ _ => exact ⟨_, hentry⟩
    | link _ _ hentry _ => exact ⟨_, hentry⟩
  obtain ⟨e, he⟩ := hentry
  unfold namesAt at hnames
  split_ifs at hnames
  rw [← Except.ok.inj hnames]
  exact mem_namesIn_iff.2 ⟨e, he⟩

end Disk
end CardInventory
