import CardInventory.Proofs.Files.Names
import CardInventory.Proofs.Scan.Agreement
import CardInventory.Proofs.Scan.Events
import CardInventory.Proofs.Scan.UnitIds
import CardInventory.Text.Utf8
import Mathlib.Data.List.Perm.Subperm
import Mathlib.Data.List.Sort

/-
# Entries of a disk and nodes

Over a disk, a function is listed under the name that is shown of its entry, and examined below the
path of that name. So a node comes from the undamaged entry that has its address for a name
(`Disk.ofString_mem_of_showsUsable`), but it comes as often as entries are shown under that name.
Entries give one node each exactly where no damaged one is shown as a function that gives a node
(`Disk.nodup_addresses_iff`). Two entries are enough to give one function a second node.
-/

namespace CardInventory

/-! ## Addresses of an outcome -/

/-- The addresses of all nodes, card by card. -/
def ScanOutcome.addresses (outcome : ScanOutcome) : List String :=
  (outcome.devices.values.flatMap Device.nodes).map Node.address

theorem ScanOutcome.length_addresses (outcome : ScanOutcome) :
    outcome.addresses.length = outcome.devices.nodeCount := by
  rw [addresses, List.length_map, DeviceMap.nodeCount_eq_length]

section
variable (reader : Reader) (layout : Layout)

/-- Does a listed function give a node? -/
def givesNode (id : String) : Bool :=
  (examine reader layout id).result.toOption.isSome

/-- **The addresses are the listed names that give nodes**, each as often as it is listed. -/
theorem addresses_ofListed_perm (ids : List String) :
    (ScanOutcome.ofListed reader layout ids).addresses.Perm
      (ids.filter (givesNode reader layout)) := by
  have hnodes := (DeviceMap.nodes_foldl_addFunction (identifiedFunctions reader layout ids)).map
    Node.address
  have hids : (identifiedFunctions reader layout ids).map (fun f => f.node.address) =
      ids.filter (givesNode reader layout) := by
    rw [identifiedFunctions, List.map_filterMap, ← List.filterMap_eq_filter]
    refine List.filterMap_congr fun id _ => ?_
    cases h : (examine reader layout id).result.toOption with
    | none => simp [Option.guard, givesNode, h]
    | some f => simp [Option.guard, givesNode, h, address_of_identified reader layout h]
  rw [List.map_map, Function.comp_def, hids, ← devices_ofListed] at hnodes
  exact hnodes

/-- A function that gives a node is usable. -/
theorem showsUsable_of_givesNode {id : String} (h : givesNode reader layout id = true) :
    reader.ShowsUsable layout id := by
  obtain ⟨f, hf⟩ := Option.isSome_iff_exists.1 h
  rw [toOption_eq_some_iff] at hf
  rcases examine_decided reader layout id with ⟨hok, -⟩ | ⟨reason, -, herror⟩
  · rw [Observations.checks, verdict_append] at hok
    obtain ⟨_, hadmission, -⟩ := exists_of_bind_eq_ok hok
    exact (verdict_admissionChecks_eq_ok_iff reader layout).1 hadmission
  · rw [hf] at herror
    cases herror

instance (id : String) : Decidable (reader.ShowsUsable layout id) :=
  decidable_of_iff _ (verdict_admissionChecks_eq_ok_iff reader layout)

end

/-! ## Names of entries -/

namespace Disk

section
variable {d : Disk} {root : Path} {names : List RawText}

/-- **A usable function is that of an undamaged entry**, the one that has its name. -/
theorem ofString_mem_of_showsUsable (hlist : d.system.readNames root = .ok names) {id : String}
    (hid : IsEntryName id) (h : d.reader.ShowsUsable (.withRoot root) id) :
    .ofString id ∈ names := by
  obtain ⟨vendor, hvendor, -⟩ := h.vendor
  obtain ⟨content, hcontent, -⟩ := exists_of_map_eq_ok hvendor
  have hfile : IsName (Layout.withRoot root).vendorFile :=
    (Layout.isName_withRoot root).1 _ List.mem_cons_self
  exact mem_of_readText hlist hid hfile.toIsEntryName hcontent

/-- Different entries are shown as one text where a damaged one is among them. -/
theorem count_map_lossy_le_one_iff (hnodup : names.Nodup) {s : String} (hs : .ofString s ∈ names) :
    (names.map RawText.lossy).count s ≤ 1 ↔ ∀ n ∈ names, n.lossy = s → n = .ofString s := by
  have hcount : (names.map RawText.lossy).count s = names.countP fun n => n.lossy == s :=
    List.countP_map
  rw [hcount]
  constructor
  · intro hle n hn hshown
    by_contra hne
    have hsub : [n, .ofString s] ⊆ names.filter fun n => n.lossy == s := by
      simp [hn, hshown, hs, RawText.lossy_ofString]
    have htwo := (List.subperm_of_subset (by simpa using hne) hsub).length_le
    rw [← List.countP_eq_length_filter, List.length_cons, List.length_singleton] at htwo
    omega
  · intro h
    calc names.countP (fun n => n.lossy == s)
        ≤ names.countP (· == .ofString s) := by
          refine List.countP_mono_left fun n hn hshown => ?_
          exact beq_iff_eq.2 (h n hn (beq_iff_eq.1 hshown))
      _ ≤ 1 := List.nodup_iff_count_le_one.1 hnodup _

/-- Is an entry a ready user function? A damaged one is never read. -/
def IsUsable (d : Disk) (root : Path) (n : RawText) : Prop :=
  n = .ofString n.lossy ∧ d.reader.ShowsUsable (.withRoot root) n.lossy

instance (d : Disk) (root : Path) (n : RawText) : Decidable (d.IsUsable root n) :=
  inferInstanceAs (Decidable (_ ∧ _))

/-- A scan of a root whose names can be read has an outcome, and its addresses are the shown names
that give nodes. -/
theorem exists_addresses_perm (hlist : d.system.readNames root = .ok names) :
    ∃ outcome, (scan d.reader (.withRoot root)).result = .ok outcome ∧ outcome.addresses.Perm
      ((names.map RawText.lossy).filter (givesNode d.reader (.withRoot root))) := by
  let ids := (names.map RawText.lossy).mergeSort fun a b => decide (a ≤ b)
  have hlisted : d.reader.list (Layout.withRoot root).functions = .ok ids := by
    show d.system.list root = _
    rw [System.list, hlist]
    rfl
  refine ⟨_, scan_of_list d.reader _ hlisted, (addresses_ofListed_perm _ _ ids).trans ?_⟩
  exact (List.mergeSort_perm (names.map RawText.lossy) _).filter _

section
variable {addresses : List String} (hlist : d.system.readNames root = .ok names)
  (hnodup : names.Nodup) (hentry : ∀ n ∈ names, IsEntryName n)
  (hperm : addresses.Perm
    ((names.map RawText.lossy).filter (givesNode d.reader (.withRoot root))))

include hperm in
/-- An address comes as often as entries are shown under it. -/
theorem count_addresses {s : String} (hs : s ∈ addresses) :
    addresses.count s = (names.map RawText.lossy).count s := by
  rw [hperm.count_eq, List.count_filter (List.mem_filter.1 (hperm.mem_iff.1 hs)).2]

include hlist hentry hperm in
/-- An address is the name of an undamaged entry, a ready user function. -/
theorem isUsable_of_mem_addresses {s : String} (hs : s ∈ addresses) :
    .ofString s ∈ names ∧ d.IsUsable root (.ofString s) := by
  obtain ⟨hshown, hgives⟩ := List.mem_filter.1 (hperm.mem_iff.1 hs)
  obtain ⟨n, hn, rfl⟩ := List.mem_map.1 hshown
  have husable := showsUsable_of_givesNode d.reader (.withRoot root) hgives
  refine ⟨ofString_mem_of_showsUsable hlist (hentry n hn).lossy husable, ?_⟩
  unfold IsUsable
  rw [RawText.lossy_ofString]
  exact ⟨rfl, husable⟩

include hlist hnodup hentry hperm in
/-- **No address comes twice when no damaged entry is shown as one.** -/
theorem nodup_addresses_iff :
    addresses.Nodup ↔ ∀ n ∈ names, n.lossy ∈ addresses → n = .ofString n.lossy := by
  rw [List.nodup_iff_count_le_one]
  constructor
  · intro hle n hn hshown
    have hcount := count_addresses hperm hshown
    have hmem := (isUsable_of_mem_addresses hlist hentry hperm hshown).1
    exact (count_map_lossy_le_one_iff hnodup hmem).1 (hcount ▸ hle n.lossy) n hn rfl
  · intro h s
    by_cases hs : s ∈ addresses
    · have hmem := (isUsable_of_mem_addresses hlist hentry hperm hs).1
      rw [count_addresses hperm hs, count_map_lossy_le_one_iff hnodup hmem]
      rintro n hn rfl
      exact h n hn hs
    · rw [List.count_eq_zero_of_not_mem hs]
      omega

include hlist hentry hperm in
/-- Addresses that do not come twice are no more than ready user functions. -/
theorem length_addresses_le (hunique : addresses.Nodup) :
    addresses.length ≤ names.countP fun n => d.IsUsable root n := by
  have hsub : addresses.map RawText.ofString ⊆ names.filter fun n => d.IsUsable root n := by
    intro n hn
    obtain ⟨s, hs, rfl⟩ := List.mem_map.1 hn
    obtain ⟨hmem, husable⟩ := isUsable_of_mem_addresses hlist hentry hperm hs
    exact List.mem_filter.2 ⟨hmem, decide_eq_true husable⟩
  have hle := (List.subperm_of_subset (hunique.map RawText.ofString_injective) hsub).length_le
  rwa [List.length_map, ← List.countP_eq_length_filter] at hle

end

/-- **Entries give one node each, unless a damaged one is shown as a function.** Under a root whose
entries are different names, damaged or not, a scan has an outcome. A node comes from a ready user
function, the undamaged entry that has the address for its name, and comes as often as entries are
shown under that name. So no address comes twice exactly where every entry that is shown as a node
is undamaged, and then there are no more nodes than ready user functions. -/
theorem addresses_of_entries (d : Disk) (root : Path) (names : List RawText)
    (hlist : d.system.readNames root = .ok names) (hnodup : names.Nodup)
    (hentry : ∀ n ∈ names, IsEntryName n) :
    ∃ outcome, (scan d.reader (.withRoot root)).result = .ok outcome ∧
      (∀ s ∈ outcome.addresses, .ofString s ∈ names ∧ d.IsUsable root (.ofString s) ∧
        outcome.addresses.count s = names.countP fun n => n.lossy = s) ∧
      (outcome.addresses.Nodup ↔
        ∀ n ∈ names, n.lossy ∈ outcome.addresses → n = .ofString n.lossy) ∧
      (outcome.addresses.Nodup →
        outcome.devices.nodeCount ≤ names.countP fun n => d.IsUsable root n) := by
  obtain ⟨outcome, hscan, hperm⟩ := exists_addresses_perm hlist
  refine ⟨outcome, hscan, fun s hs => ?_, nodup_addresses_iff hlist hnodup hentry hperm,
    fun hunique => ?_⟩
  · obtain ⟨hmem, husable⟩ := isUsable_of_mem_addresses hlist hentry hperm hs
    refine ⟨hmem, husable, (count_addresses hperm hs).trans ?_⟩
    rw [List.count, List.countP_map]
    exact List.countP_congr fun n _ => by simp
  · rw [← ScanOutcome.length_addresses]
    exact length_addresses_le hlist hentry hperm hunique

/-- The entries of a ready user function in a directory. -/
def cardFunction (dir : Place) (serial : RawText) : List (Place × Entry) :=
  let entries : List (Place × Entry) :=
    [([], .directory), (["xmc.u.1"], .directory), (["rom.u.1"], .directory),
      (["drm"], .directory), (["drm", "renderD128"], .directory), (["vendor"], .file "0x10ee"),
      (["user_pf"], .file ""), (["ready"], .file "0x1"), (["device"], .file "0x5001"),
      (["xmc.u.1", "serial_num"], .file serial), (["rom.u.1", "VBNV"], .file "v1"),
      (["rom.u.1", "timestamp"], .file "1111")]
  entries.map fun e => (dir ++ e.1, e.2)

/-- A ready user function of a given name, and beside it an entry whose name is the byte ff. -/
def sampleDamaged (name : String) : Disk where
  entries := ([.ofString "pci"], .directory) :: cardFunction ["pci", name] "ABC123" ++
    [([.ofString "pci", Utf8.decode [0xff]], .directory)]

/-- The reader of a disk with its names sorted by insertion, which can be computed. -/
theorem reader_eq (d : Disk) : d.reader = .ofListing d.system.read
    (fun path => (d.system.readNames path).map fun names =>
      (names.map RawText.lossy).insertionSort (· ≤ ·)) d.system.present := by
  have hlist : d.system.list = fun path => (d.system.readNames path).map fun names =>
      (names.map RawText.lossy).insertionSort (· ≤ ·) := by
    funext path
    unfold System.list
    simp only [List.mergeSort_eq_insertionSort]
  rw [reader, System.reader, hlist]

/-- Where the damaged entry is shown as no function, the function gives one node. -/
theorem addresses_of_entries_sample :
    ∃ outcome, (scan (sampleDamaged "0000:03:00.1").reader (.withRoot "pci")).result = .ok outcome ∧
      outcome.addresses = ["0000:03:00.1"] ∧ outcome.devices.nodeCount ≤ 1 := by
  have hlist : (sampleDamaged "0000:03:00.1").system.readNames "pci" =
      .ok [.ofString "0000:03:00.1", Utf8.decode [0xff]] := by decide +kernel
  have hscan : (scan (sampleDamaged "0000:03:00.1").reader (.withRoot "pci")).result.toOption.map
      ScanOutcome.addresses = some ["0000:03:00.1"] := by
    rw [reader_eq]
    decide +kernel
  have husable : [RawText.ofString "0000:03:00.1", Utf8.decode [0xff]].countP
      (fun n => (sampleDamaged "0000:03:00.1").IsUsable "pci" n) = 1 := by decide +kernel
  obtain ⟨outcome, houtcome, -, -, hle⟩ :=
    addresses_of_entries (sampleDamaged "0000:03:00.1") "pci" _ hlist (by decide) (by decide)
  rw [houtcome] at hscan
  have haddresses : outcome.addresses = ["0000:03:00.1"] := Option.some.inj hscan
  have hnodup : outcome.addresses.Nodup := haddresses ▸ List.nodup_singleton _
  exact ⟨outcome, houtcome, haddresses, husable ▸ hle hnodup⟩

/-- Where it is shown as the function, the one function gives two nodes of one address. -/
theorem damaged_entry_gives_second_node :
    (sampleDamaged "\ufffd").system.readNames "pci" =
        .ok [.ofString "\ufffd", Utf8.decode [0xff]] ∧
      RawText.ofString "\ufffd" ≠ Utf8.decode [0xff] ∧
      IsEntryName "\ufffd" ∧ IsEntryName (Utf8.decode [0xff]) ∧
      ([RawText.ofString "\ufffd", Utf8.decode [0xff]].countP
        fun n => (sampleDamaged "\ufffd").IsUsable "pci" n) = 1 ∧
      (scan (sampleDamaged "\ufffd").reader (.withRoot "pci")).result.toOption.map (fun outcome =>
        (outcome.addresses, outcome.devices.nodeCount)) = some (["\ufffd", "\ufffd"], 2) := by
  refine ⟨by decide +kernel, by decide, by decide, by decide, by decide +kernel, ?_⟩
  rw [reader_eq]
  decide +kernel

end
end Disk
end CardInventory
