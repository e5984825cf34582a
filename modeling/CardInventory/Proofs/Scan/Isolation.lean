import CardInventory.Proofs.Files.Additions
import CardInventory.Proofs.Scan.Agreement
import CardInventory.Proofs.Scan.Grouping

/-
# Functions do not interfere

All that a scan asks about a function is in the directory of the function (`Asked.isUnder`), and
nothing is in the directories of two functions. So whatever is added, removed or damaged in the
directory of one function, all others are found as before (`MemoryTree.SameOutside.examine_eq`),
and what the scan gathers changes by what that one function gives and no more. A function whose
name is damaged is listed by what is shown of the name, which may come to the listing or go from it
with the function; but nothing is found under a name that is that of no entry
(`MemoryTree.result_examine_of_notMem`), so that this changes nothing.
-/

namespace CardInventory

/-! ## What is asked -/

namespace MemoryTree

variable {adds : List (Path × TreeEntry)} {tree t₁ t₂ : MemoryTree} {root dir path : Path}
  {id lead : String} {name : RawText}

/-- What is found in a directory is listed there. -/
theorem exists_list_of_found? {found : String} (h : tree.reader.found? dir lead = some found) :
    ∃ names, tree.list dir = .ok names ∧ found ∈ names := by
  change ((tree.list dir).map fun names => names.find? (beginsWith lead)).toOption.join =
    some found at h
  cases hlist : tree.list dir with
  | error e => simp [hlist, Except.map, Except.toOption] at h
  | ok names =>
    rw [hlist] at h
    exact ⟨names, rfl, List.mem_of_find?_eq_some h⟩

/-- **All that is asked about a function is in its directory.** -/
theorem asked_isUnder
    (hpath : Asked (ofEntries adds).reader (.withRoot root) id path) :
    path.route.IsUnder (root.join id).route := by
  obtain ⟨hfiles, hserial, hshell, htimestamp⟩ := Layout.isName_withRoot root
  have hfound : ∀ {name lead : String},
      (ofEntries adds).reader.found? ((Layout.withRoot root).functionDir id) lead = some name →
      IsEntryName name := fun h => by
    obtain ⟨names, hlist, hname⟩ := exists_list_of_found? h
    exact isEntryName_of_mem_children ((list_eq_ok_iff.1 hlist).2 ▸ hname)
  have hentry : ∀ {name file : String}, IsEntryName name → IsName file →
      ((((Layout.withRoot root).functionDir id).join name).join file).route.IsUnder
        (root.join id).route := fun hname hfile =>
    (Route.isUnder_join _ hfile.toIsEntryName).trans (Route.isUnder_join _ hname)
  cases hpath with
  | dir => exact .refl _
  | file h => exact Route.isUnder_join _ (hfiles _ h).toIsEntryName
  | serialNumber h => exact hentry (hfound h) hserial
  | shellVersion h => exact hentry (hfound h) hshell
  | timestamp h => exact hentry (hfound h) htimestamp
  | graphics h => exact Route.isUnder_join _ (hfound h)

/-- Nothing is in the directories of two functions. -/
theorem not_isUnder_of_ne {r : Route} (hid : IsEntryName id) (hname : IsEntryName name)
    (hne : .ofString id ≠ name) (hr : r.IsUnder (root.join id).route) :
    ¬ r.IsUnder (root.join name).route := by
  rw [Path.route_join root hid] at hr
  rw [Path.route_join root hname]
  exact fun hr' => hne (hr.child_inj hr')

/-- **What is in the directory of one function has no bearing on the others.** -/
theorem SameOutside.examine_eq {adds₁ adds₂ : List (Path × TreeEntry)}
    (h : (ofEntries adds₁).SameOutside (ofEntries adds₂) (root.join name).route)
    (hname : IsEntryName name) (hid : IsEntryName id) (hne : .ofString id ≠ name) :
    examine (ofEntries adds₁).reader (.withRoot root) id =
      examine (ofEntries adds₂).reader (.withRoot root) id := by
  refine examine_congr (fun path hpath => ?_) fun hcontroller => ?_
  · have hunder := asked_isUnder hpath
    have hapart : ∀ r : Route, r.IsUnder path.route → ¬ r.IsUnder (root.join name).route :=
      fun r hr => not_isUnder_of_ne hid hname hne (hr.trans hunder)
    have hlist := h.list_eq hapart
    refine ⟨?_, h.present_eq (hapart _ (.refl _)), fun lead => ?_⟩
    · exact congrArg Except.toOption (h.read_eq (hapart _ (.refl _)))
    · change ((list _ path).map _).toOption = ((list _ path).map _).toOption
      rw [hlist]
  · obtain ⟨found, hfound⟩ := Option.isSome_iff_exists.1 hcontroller
    obtain ⟨names, hlist, -⟩ := exists_list_of_found? hfound
    change ((list _ _).map _).toOption.isSome
    rw [hlist]
    rfl

/-- The functions that are shown by other names are listed as before. -/
theorem SameOutside.mem_children_iff {adds₁ adds₂ : List (Path × TreeEntry)}
    (h : (ofEntries adds₁).SameOutside (ofEntries adds₂) (root.join name).route)
    (hname : IsEntryName name) (hne : id ≠ name.lossy) :
    id ∈ (ofEntries adds₁).children root.route ↔ id ∈ (ofEntries adds₂).children root.route := by
  rw [mem_children, mem_children]
  refine exists_congr fun n => and_congr_left fun hshown => h.mem_routes fun hunder => hne ?_
  rw [Path.route_join root hname] at hunder
  rw [← hshown, (Route.IsUnder.refl _).child_inj hunder]

/-- **Under a name that is not listed there is no vendor**, as there would be a directory then. -/
theorem result_examine_of_notMem (hroot : root.route ∈ (ofEntries adds).dirs)
    (hid : IsEntryName id) (h : id ∉ (ofEntries adds).children root.route) :
    (examine (ofEntries adds).reader (.withRoot root) id).result = .error .vendorUnreadable := by
  have hfile : IsEntryName (Layout.withRoot root).vendorFile :=
    ((Layout.isName_withRoot root).1 _ List.mem_cons_self).toIsEntryName
  have hlisted : ∀ {dir : Path} {n : String}, IsEntryName n → dir.route.isEmpty = false →
      (dir.join n).route ∈ (ofEntries adds).routes →
      dir.route ∈ (ofEntries adds).dirs ∧ n ∈ (ofEntries adds).children dir.route :=
    fun {dir n} hn hne hroutes => by
      obtain ⟨hparent, hlast⟩ := Route.eq_child_iff.2 (Path.route_join dir hn)
      obtain ⟨names, hlist, hmem⟩ :=
        mem_list_of_present (decide_eq_true hroutes) hlast hparent hne
      obtain ⟨hdir, rfl⟩ := list_eq_ok_iff.1 hlist
      rw [RawText.lossy_ofString] at hmem
      exact ⟨hdir, hmem⟩
  have hvendor : (ofEntries adds).files.lookup (((Layout.withRoot root).functionDir id).join
      (Layout.withRoot root).vendorFile).route = none := by
    refine Option.not_isSome_iff_eq_none.1 fun hsome => h ?_
    have hbelow : (root.join id).route.isEmpty = false := by
      rw [Path.route_join root hid]
      simp [Route.isEmpty, Route.child]
    have hdir := (hlisted hfile hbelow (mem_routes_iff.2 (.inr hsome))).1
    exact (hlisted hid (mem_dirs_iff.1 hroot).1 (mem_routes_iff.2 (.inl hdir))).2
  unfold examine
  rw [PciFunction.probe_eq, content?_reader, hvendor]
  rfl

end MemoryTree

/-! ## What is gathered -/

section
variable {reader r₁ r₂ : Reader} {layout : Layout} {ids : List String}

/-- Functions that give no node may be left out of the listing. -/
theorem identifiedFunctions_filter {p : String → Bool} (h : ∀ id ∈ ids, p id = false →
      ∀ f, (examine reader layout id).result ≠ .ok f) :
    identifiedFunctions reader layout (ids.filter p) = identifiedFunctions reader layout ids := by
  unfold identifiedFunctions
  rw [List.filterMap_filter]
  refine List.filterMap_congr fun id hid => ?_
  cases hp : p id with
  | true => rfl
  | false =>
    cases hresult : (examine reader layout id).result with
    | ok f => exact absurd hresult (h id hid hp f)
    | error reason => rfl

/-- A function that is left out is left out under its own name. -/
theorem id_of_leftOut?_eq_some {id : String} {result : Except SkipReason IdentifiedFunction}
    {s : SkippedFunction} (h : leftOut? id result = some s) : s.id = id := by
  unfold leftOut? at h
  split at h <;> cases h
  rfl

/-- Without some functions in the listing, only their own entries are gone from those left out. -/
theorem leftOutFunctions_filter (p : String → Bool) :
    leftOutFunctions reader layout (ids.filter p) =
      (leftOutFunctions reader layout ids).filter fun s => p s.id := by
  unfold leftOutFunctions
  rw [List.filterMap_filter, List.filter_filterMap]
  refine List.filterMap_congr fun id _ => ?_
  cases hresult : leftOut? id (examine reader layout id).result with
  | none => simp
  | some s =>
    rw [← id_of_leftOut?_eq_some hresult]
    cases hp : p s.id <;> simp [hp, Option.filter]

/-- Functions without a vendor may be listed or not. -/
theorem gathered_filter {p : String → Bool} (h : ∀ id ∈ ids, p id = false →
      (examine reader layout id).result = .error .vendorUnreadable) :
    identifiedFunctions reader layout (ids.filter p) = identifiedFunctions reader layout ids ∧
      leftOutFunctions reader layout (ids.filter p) = leftOutFunctions reader layout ids := by
  constructor
  · refine identifiedFunctions_filter fun id hid hp f hf => ?_
    rw [h id hid hp] at hf
    cases hf
  · rw [leftOutFunctions_filter, List.filter_eq_self]
    intro s hs
    obtain ⟨id, hid, hleftOut⟩ := List.mem_filterMap.1 hs
    rw [id_of_leftOut?_eq_some hleftOut]
    cases hp : p id with
    | true => rfl
    | false =>
      rw [h id hid hp] at hleftOut
      cases hleftOut

/-- Readers that examine listed functions alike gather the same. -/
theorem gathered_congr
    (h : ∀ id ∈ ids, examine r₁ layout id = examine r₂ layout id) :
    identifiedFunctions r₁ layout ids = identifiedFunctions r₂ layout ids ∧
      leftOutFunctions r₁ layout ids = leftOutFunctions r₂ layout ids :=
  gathered_eq layout fun id hid => by rw [h id hid]

end

namespace MemoryTree

variable {adds : List (Path × TreeEntry)} {root : Path} {names : List String}
  (hroot : root.route ∈ (ofEntries adds).dirs) (hnames : ∀ id ∈ names, IsEntryName id)
include hroot hnames

/-- What a scan gathers from a listing it would gather from any that has more names. -/
theorem gathered_of_subset (hascending : names.Pairwise (· < ·))
    (hsub : ∀ id ∈ (ofEntries adds).children root.route, id ∈ names) :
    identifiedFunctions (ofEntries adds).reader (.withRoot root)
        ((ofEntries adds).children root.route) =
      identifiedFunctions (ofEntries adds).reader (.withRoot root) names ∧
    leftOutFunctions (ofEntries adds).reader (.withRoot root)
        ((ofEntries adds).children root.route) =
      leftOutFunctions (ofEntries adds).reader (.withRoot root) names := by
  have hlisted : (ofEntries adds).children root.route =
      names.filter (· ∈ (ofEntries adds).children root.route) :=
    children_ascending.eq_of_mem_iff (hascending.filter _) fun id => by
      rw [List.mem_filter, decide_eq_true_iff]
      exact (and_iff_right_of_imp (hsub id)).symm
  rw [hlisted]
  refine gathered_filter fun id hid hother => ?_
  exact result_examine_of_notMem hroot (hnames id hid) (of_decide_eq_false hother)

/-- A function that gives no node where it is listed gives none where it is not. -/
theorem identifiedFunctions_filter_ne {name : RawText}
    (hnone : ∀ id ∈ (ofEntries adds).children root.route, .ofString id = name → ∀ f,
      (examine (ofEntries adds).reader (.withRoot root) id).result ≠ .ok f) :
    identifiedFunctions (ofEntries adds).reader (.withRoot root)
        (names.filter (.ofString · ≠ name)) =
      identifiedFunctions (ofEntries adds).reader (.withRoot root) names := by
  refine identifiedFunctions_filter fun id hid hname f hf => ?_
  by_cases hlisted : id ∈ (ofEntries adds).children root.route
  · exact hnone id hlisted (not_not.1 (of_decide_eq_false hname)) f hf
  · rw [result_examine_of_notMem hroot (hnames id hid) hlisted] at hf
    cases hf

end MemoryTree

open MemoryTree in
/-- **Functions do not interfere.** Two trees in memory have the directory of functions and hold
the same entries but for the directory of one function; all paths may be spelled in any way and be
damaged. Every function that is shown by another name is listed in both or in neither, and all that
are listed but the one itself give the same finding. Where the one function gives no node in either
tree, the cards are the same, and so are the functions that are left out, but for its own entry. -/
theorem functions_do_not_interfere {root : Path} {name : RawText} (hname : IsEntryName name)
    {adds₁ adds₂ : List (Path × TreeEntry)}
    (hroot₁ : root.route ∈ (ofEntries adds₁).dirs) (hroot₂ : root.route ∈ (ofEntries adds₂).dirs)
    (hsame : (ofEntries adds₁).SameOutside (ofEntries adds₂) (root.join name).route) :
    ∃ ids₁ ids₂ outcome₁ outcome₂,
      (ofEntries adds₁).reader.list root = .ok ids₁ ∧
      (ofEntries adds₂).reader.list root = .ok ids₂ ∧
      (scan (ofEntries adds₁).reader (.withRoot root)).result = .ok outcome₁ ∧
      (scan (ofEntries adds₂).reader (.withRoot root)).result = .ok outcome₂ ∧
      (∀ id, id ≠ name.lossy → (id ∈ ids₁ ↔ id ∈ ids₂)) ∧
      (∀ id ∈ ids₁ ++ ids₂, .ofString id ≠ name →
        examine (ofEntries adds₁).reader (.withRoot root) id =
          examine (ofEntries adds₂).reader (.withRoot root) id) ∧
      ((∀ id ∈ ids₁, .ofString id = name → ∀ f,
          (examine (ofEntries adds₁).reader (.withRoot root) id).result ≠ .ok f) →
        (∀ id ∈ ids₂, .ofString id = name → ∀ f,
          (examine (ofEntries adds₂).reader (.withRoot root) id).result ≠ .ok f) →
        outcome₁.devices = outcome₂.devices ∧
          outcome₁.skipped.filter (fun s => .ofString s.id ≠ name) =
            outcome₂.skipped.filter (fun s => .ofString s.id ≠ name)) := by
  have hlist₁ := list_eq_ok_iff.2 ⟨hroot₁, rfl⟩
  have hlist₂ := list_eq_ok_iff.2 ⟨hroot₂, rfl⟩
  have hscan₁ := scan_of_list (ofEntries adds₁).reader (.withRoot root) hlist₁
  have hscan₂ := scan_of_list (ofEntries adds₂).reader (.withRoot root) hlist₂
  have hnames : ∀ id ∈ (ofEntries adds₁).children root.route ++
      (ofEntries adds₂).children root.route, IsEntryName id := fun id hid =>
    (List.mem_append.1 hid).elim isEntryName_of_mem_children isEntryName_of_mem_children
  refine ⟨_, _, _, _, hlist₁, hlist₂, hscan₁, hscan₂, fun id => hsame.mem_children_iff hname,
    fun id hid => hsame.examine_eq hname (hnames id hid), fun hnone₁ hnone₂ => ?_⟩
  -- Both trees are looked at under all names that either of them lists.
  let ids := sortedNames ((ofEntries adds₁).children root.route ++
    (ofEntries adds₂).children root.route)
  have hids : ∀ id ∈ ids, IsEntryName id := fun id hid => hnames id (mem_sortedNames.1 hid)
  obtain ⟨hidentified₁, hleftOut₁⟩ := gathered_of_subset hroot₁ hids (sortedNames_ascending _)
    fun id hid => mem_sortedNames.2 (List.mem_append_left _ hid)
  obtain ⟨hidentified₂, hleftOut₂⟩ := gathered_of_subset hroot₂ hids (sortedNames_ascending _)
    fun id hid => mem_sortedNames.2 (List.mem_append_right _ hid)
  have hothers : ∀ id ∈ ids.filter (.ofString · ≠ name),
      examine (ofEntries adds₁).reader (.withRoot root) id =
        examine (ofEntries adds₂).reader (.withRoot root) id := fun id hid => by
    obtain ⟨hid, hne⟩ := List.mem_filter.1 hid
    exact hsame.examine_eq hname (hids id hid) (of_decide_eq_true hne)
  obtain ⟨hidentified, hleftOut⟩ := gathered_congr hothers
  constructor
  · rw [devices_ofListed, devices_ofListed, hidentified₁, hidentified₂,
      ← identifiedFunctions_filter_ne hroot₁ hids hnone₁,
      ← identifiedFunctions_filter_ne hroot₂ hids hnone₂, hidentified]
  · rw [leftOutFunctions_filter, leftOutFunctions_filter] at hleftOut
    rwa [skipped_ofListed, skipped_ofListed, hleftOut₁, hleftOut₂]

/-- The files of a ready function of a card. -/
def readyFunction (dir : Path) (serialNumber : String) : List (Path × TreeEntry) :=
  [("vendor", "0x10ee"), ("user_pf", ""), ("ready", "0x1"), ("device", "0x5000"),
    ("xmc.u.1/serial_num", serialNumber), ("rom.u.1/VBNV", "v1"), ("rom.u.1/timestamp", "0x5"),
    ("drm/renderD128", "")].map fun e => (dir.join e.1, .file e.2)

/-- A ready function, and one that has no role. -/
def sampleBefore : List (Path × TreeEntry) :=
  readyFunction "../d/a" "S" ++ [(⟨"../d/b/vendor"⟩, .file "0x10ee")]

/-- The second function belongs to others now. It has a file under the name of the first, and a
directory whose name is damaged. -/
def sampleAfter : List (Path × TreeEntry) :=
  [(⟨"../d//b/vendor"⟩, .file "0x8086"), (⟨"../d/./b/../a/ready"⟩, .file "0x0"),
    (Path.join "../d/b" ⟨[.junk [0xff]]⟩, .directory)] ++ readyFunction "../d/a" "S"

/-- The card of the sample is found before and after, under a root that is relative. -/
theorem functions_do_not_interfere_sample :
    (MemoryTree.ofEntries sampleBefore).SameOutside (.ofEntries sampleAfter)
        (Path.join "../d/" "b").route ∧
      ∃ outcome₁ outcome₂,
        (scan (MemoryTree.ofEntries sampleBefore).reader (.withRoot "../d/")).result =
          .ok outcome₁ ∧
        (scan (MemoryTree.ofEntries sampleAfter).reader (.withRoot "../d/")).result =
          .ok outcome₂ ∧
        outcome₁.devices = outcome₂.devices ∧ outcome₁.devices.keys = ["S"] ∧
        outcome₁.skipped.length = 1 ∧ outcome₂.skipped.filter (fun s => s.id ≠ "b") = [] := by
  have hsame : (MemoryTree.ofEntries sampleBefore).SameOutside (.ofEntries sampleAfter)
      (Path.join "../d/" "b").route := by decide +kernel
  have hkeys : (scan (MemoryTree.ofEntries sampleBefore).reader
      (.withRoot "../d/")).result.toOption.map (fun outcome =>
        (outcome.devices.keys, outcome.skipped.map SkippedFunction.id)) = some (["S"], ["b"]) := by
    decide +kernel
  have hnone₁ : (examine (MemoryTree.ofEntries sampleBefore).reader (.withRoot "../d/")
      "b").result = .error .noRole := by decide +kernel
  have hnone₂ : (examine (MemoryTree.ofEntries sampleAfter).reader (.withRoot "../d/")
      "b").result = .error (.foreignVendor "0x8086") := by decide +kernel
  obtain ⟨ids₁, ids₂, outcome₁, outcome₂, -, -, hscan₁, hscan₂, -, -, hequal⟩ :=
    functions_do_not_interfere (by decide) (by decide +kernel) (by decide +kernel) hsame
  simp only [ne_eq, RawText.ofString_injective.eq_iff] at hequal
  obtain ⟨hdevices, hskipped⟩ := hequal
    (fun _ _ heq f hf => by rw [heq, hnone₁] at hf; cases hf)
    fun _ _ heq f hf => by rw [heq, hnone₂] at hf; cases hf
  rw [hscan₁] at hkeys
  obtain ⟨hcard, hleftOut⟩ := Prod.mk.inj (Option.some.inj hkeys)
  refine ⟨hsame, outcome₁, outcome₂, hscan₁, hscan₂, hdevices, hcard, ?_, ?_⟩
  · rw [← List.length_map SkippedFunction.id, hleftOut]
    rfl
  · rw [← hskipped, List.filter_eq_nil_iff]
    intro s hs
    have hb : s.id ∈ outcome₁.skipped.map SkippedFunction.id := List.mem_map_of_mem hs
    rw [hleftOut, List.mem_singleton] at hb
    simp [hb]

end CardInventory
