import CardInventory.Files.Memory
import CardInventory.Proofs.Results
import CardInventory.Proofs.Scan.Admission
import CardInventory.Proofs.SortedMap
import Mathlib.Data.List.Induction

/-
# A scan groups functions by serial number

A scan visits one function after the other. A visit takes the outcome of the functions so far to
that of one more (`visit_ofListed`), and the run over a listing follows by induction
(`scan_of_list`): cards, functions that are left out and events are those of the functions of the
listing, in its order. A scan fails where the listing does and only there (`scan_eq_error_iff`).

What is left of the order in the cards is said here once and for all: under a serial number stands
the card that its functions make up (`get?_foldl_addFunction`). The first of them fixes the shell
image, and each gives one node. How cards are made up does not depend on the nodes, so that a change
of all nodes can be made before or after (`DeviceMap.mapNodes_foldl_addFunction`). Each listed
function is a node, left out or hardware of others, and never two of them, so that all of the
listing is accounted for (`length_listing`).
-/

namespace CardInventory

/-! ## Cards of given functions -/

/-- The card that functions make up; the first one fixes all but the nodes. -/
def Device.ofFunctions? : List IdentifiedFunction → Option Device
  | [] => none
  | f :: rest => some {
      serialNumber := f.identity.serialNumber
      shellVersion := f.identity.shellVersion
      buildTimestamp := f.identity.buildTimestamp
      health := .healthy
      nodes := (f :: rest).map IdentifiedFunction.node }

/-- One more function adds its node to the card, or makes up a card if there is none. -/
theorem Device.ofFunctions?_concat (functions : List IdentifiedFunction) (f : IdentifiedFunction) :
    ofFunctions? (functions ++ [f]) = some (match ofFunctions? functions with
      | some device => { device with nodes := device.nodes ++ [f.node] }
      | none => .ofNode f.identity.serialNumber f.identity.shellVersion f.identity.buildTimestamp
          f.node) := by
  cases functions with
  | nil => rfl
  | cons g rest => simp [ofFunctions?]

/-- The card has the shell image of the first function and the nodes of all. -/
theorem Device.eq_of_ofFunctions?_eq_some {functions : List IdentifiedFunction} {device : Device}
    (h : ofFunctions? functions = some device) :
    ∃ first, functions.head? = some first ∧ device = {
      serialNumber := first.identity.serialNumber
      shellVersion := first.identity.shellVersion
      buildTimestamp := first.identity.buildTimestamp
      health := .healthy
      nodes := functions.map IdentifiedFunction.node } := by
  cases functions with
  | nil => simp [ofFunctions?] at h
  | cons first rest => exact ⟨first, rfl, (Option.some.inj h).symm⟩

/-- The functions of one card among some, in their order. -/
def IdentifiedFunction.ofCard (serial : String) (functions : List IdentifiedFunction) :
    List IdentifiedFunction :=
  functions.filter fun f => f.identity.serialNumber = serial

theorem IdentifiedFunction.mem_ofCard {serial : String} {functions : List IdentifiedFunction}
    {f : IdentifiedFunction} :
    f ∈ ofCard serial functions ↔ f ∈ functions ∧ f.identity.serialNumber = serial := by
  rw [ofCard, List.mem_filter, decide_eq_true_iff]

/-- There is a card of a serial number when some function has it. -/
theorem Device.exists_ofFunctions?_ofCard {serial : String}
    {functions : List IdentifiedFunction} :
    (∃ device, ofFunctions? (IdentifiedFunction.ofCard serial functions) = some device) ↔
      ∃ f ∈ functions, f.identity.serialNumber = serial := by
  simp only [← IdentifiedFunction.mem_ofCard]
  cases IdentifiedFunction.ofCard serial functions with
  | nil => simp [ofFunctions?]
  | cons f rest => exact ⟨fun _ => ⟨f, List.mem_cons_self⟩, fun _ => ⟨_, rfl⟩⟩

namespace DeviceMap

/-- What adding a function changes: the card of its serial number, and no other. -/
theorem get?_addFunction (devices : DeviceMap) (f : IdentifiedFunction) (serial : String) :
    SortedMap.get? (devices.addFunction f) serial =
      if serial = f.identity.serialNumber then
        some (match SortedMap.get? devices f.identity.serialNumber with
          | some device => { device with nodes := device.nodes ++ [f.node] }
          | none => .ofNode f.identity.serialNumber f.identity.shellVersion
              f.identity.buildTimestamp f.node)
      else SortedMap.get? devices serial := by
  refine (SortedMap.get?_update devices f.identity.serialNumber _ serial).trans ?_
  cases SortedMap.get? devices f.identity.serialNumber <;> rfl

/-- **Under a serial number stands the card that its functions make up.** The induction is on the
functions taken so far, so that its step is one more function. -/
theorem get?_foldl_addFunction (functions : List IdentifiedFunction) (serial : String) :
    SortedMap.get? (functions.foldl addFunction {}) serial =
      Device.ofFunctions? (IdentifiedFunction.ofCard serial functions) := by
  induction functions using List.reverseRecOn with
  | nil => rfl
  | append_singleton functions f ih =>
    rw [List.foldl_append, List.foldl_cons, List.foldl_nil, get?_addFunction]
    split_ifs with h
    · subst h
      have hcard : IdentifiedFunction.ofCard f.identity.serialNumber (functions ++ [f]) =
          IdentifiedFunction.ofCard f.identity.serialNumber functions ++ [f] := by
        simp [IdentifiedFunction.ofCard]
      rw [hcard, Device.ofFunctions?_concat, ih]
    · have hcard : IdentifiedFunction.ofCard serial (functions ++ [f]) =
          IdentifiedFunction.ofCard serial functions := by
        simp [IdentifiedFunction.ofCard, Ne.symm h]
      rw [hcard, ih]

/-- A function is one more node. -/
theorem nodes_addFunction (devices : DeviceMap) (f : IdentifiedFunction) :
    ((devices.addFunction f).values.flatMap Device.nodes).Perm
      (devices.values.flatMap Device.nodes ++ [f.node]) :=
  SortedMap.flatMap_values_update devices .rfl fun _ => .rfl

/-- **The nodes of all cards are those of the functions.** -/
theorem nodes_foldl_addFunction (functions : List IdentifiedFunction) :
    ((functions.foldl addFunction {}).values.flatMap Device.nodes).Perm
      (functions.map IdentifiedFunction.node) := by
  induction functions using List.reverseRecOn with
  | nil => exact .nil
  | append_singleton functions f ih =>
    rw [List.foldl_append, List.foldl_cons, List.foldl_nil, List.map_append, List.map_singleton]
    exact (nodes_addFunction _ f).trans (ih.append_right _)

theorem nodeCount_eq_length (devices : DeviceMap) :
    devices.nodeCount = (devices.values.flatMap Device.nodes).length := by
  unfold nodeCount
  induction devices.values with
  | nil => rfl
  | cons device rest ih => rw [List.foldr_cons, List.flatMap_cons, List.length_append, ih]

/-- There are as many nodes as functions. -/
theorem nodeCount_foldl_addFunction (functions : List IdentifiedFunction) :
    (functions.foldl addFunction {}).nodeCount = functions.length := by
  rw [nodeCount_eq_length, (nodes_foldl_addFunction functions).length_eq, List.length_map]

/-- There are no more cards than functions. -/
theorem size_foldl_addFunction_le (functions : List IdentifiedFunction) :
    SortedMap.size (functions.foldl addFunction {}) ≤ functions.length := by
  induction functions using List.reverseRecOn with
  | nil => exact le_rfl
  | append_singleton functions f ih =>
    rw [List.foldl_append, List.foldl_cons, List.foldl_nil, List.length_append]
    exact (SortedMap.size_update_le _ _ _).trans (Nat.succ_le_succ ih)

end DeviceMap

/-! ## Changes of nodes -/

/-- The card with another node for each. -/
def Device.mapNodes (g : Node → Node) (device : Device) : Device :=
  { device with nodes := device.nodes.map g }

/-- The cards with another node for each. -/
def DeviceMap.mapNodes (g : Node → Node) (devices : DeviceMap) : DeviceMap :=
  SortedMap.map (Device.mapNodes g) devices

/-- The function with another node. -/
def IdentifiedFunction.mapNode (g : Node → Node) (f : IdentifiedFunction) : IdentifiedFunction :=
  { f with node := g f.node }

/-- A function is added to its card whatever its node is. -/
theorem DeviceMap.mapNodes_addFunction (g : Node → Node) (devices : DeviceMap)
    (f : IdentifiedFunction) :
    (devices.addFunction f).mapNodes g = (devices.mapNodes g).addFunction (f.mapNode g) := by
  refine SortedMap.map_update (fun device? => ?_) devices f.identity.serialNumber
  cases device? with
  | none => rfl
  | some device => simp [Device.mapNodes]

/-- **Cards are made up in the same way of functions with other nodes.** -/
theorem DeviceMap.mapNodes_foldl_addFunction (g : Node → Node)
    (functions : List IdentifiedFunction) :
    DeviceMap.mapNodes g (functions.foldl addFunction {}) =
      (functions.map (IdentifiedFunction.mapNode g)).foldl addFunction {} := by
  rw [List.foldl_map]
  exact (List.foldl_hom (mapNodes g) fun devices f => (mapNodes_addFunction g devices f).symm).symm

/-! ## Listed functions -/

/-- Is the result that of hardware of others? -/
def isForeignResult : Except SkipReason IdentifiedFunction → Bool
  | .error .vendorUnreadable => true
  | .error (.foreignVendor _) => true
  | _ => false

/-- The entry of a function that is left out, if its result says so. -/
def leftOut? (id : String) (result : Except SkipReason IdentifiedFunction) :
    Option SkippedFunction :=
  match result with
  | .ok _ => none
  | .error .vendorUnreadable => none
  | .error (.foreignVendor _) => none
  | .error reason => some ⟨id, reason⟩

/-- A result is that of a node, of a function that is left out, or of hardware of others. -/
theorem result_cases (id : String) (result : Except SkipReason IdentifiedFunction) :
    (∃ f, result.toOption = some f ∧ leftOut? id result = none ∧ isForeignResult result = false) ∨
      (∃ s, result.toOption = none ∧ leftOut? id result = some s ∧
        isForeignResult result = false) ∨
      (result.toOption = none ∧ leftOut? id result = none ∧ isForeignResult result = true) := by
  rcases result with reason | f
  · cases reason
    case vendorUnreadable | foreignVendor => exact .inr (.inr ⟨rfl, rfl, rfl⟩)
    all_goals exact .inr (.inl ⟨_, rfl, rfl, rfl⟩)
  · exact .inl ⟨f, rfl, rfl, rfl⟩

/-- Why a function is left out does not depend on what is made of those that are not. -/
theorem leftOut?_map (g : IdentifiedFunction → IdentifiedFunction) (id : String)
    (result : Except SkipReason IdentifiedFunction) :
    leftOut? id (result.map g) = leftOut? id result := by
  rcases result with reason | f
  · cases reason <;> rfl
  · rfl

section
variable (reader : Reader) (layout : Layout)

/-- The listed functions that give a node, in the order of the listing. -/
def identifiedFunctions (ids : List String) : List IdentifiedFunction :=
  ids.filterMap fun id => (examine reader layout id).result.toOption

/-- The functions that are left out, in the order of the listing. -/
def leftOutFunctions (ids : List String) : List SkippedFunction :=
  ids.filterMap fun id => leftOut? id (examine reader layout id).result

theorem mem_identifiedFunctions {ids : List String} {f : IdentifiedFunction} :
    f ∈ identifiedFunctions reader layout ids ↔
      ∃ id ∈ ids, (examine reader layout id).result = .ok f := by
  simp only [identifiedFunctions, List.mem_filterMap, toOption_eq_some_iff]

/-- Readers that identify listed functions alike gather the same. -/
theorem gathered_eq {r₁ r₂ : Reader} {ids : List String}
    (h : ∀ id ∈ ids, (examine r₁ layout id).result =
      (examine r₂ layout id).result) :
    identifiedFunctions r₁ layout ids = identifiedFunctions r₂ layout ids ∧
      leftOutFunctions r₁ layout ids = leftOutFunctions r₂ layout ids :=
  ⟨List.filterMap_congr fun id hid => by rw [h id hid],
    List.filterMap_congr fun id hid => by rw [h id hid]⟩

/-- Readers that identify listed functions alike, but for their nodes, leave the same out and gather
the same but for the nodes. -/
theorem gathered_eq_of_map {r₁ r₂ : Reader} {layout : Layout} (ids : List String)
    (g : IdentifiedFunction → IdentifiedFunction)
    (h : ∀ id, (examine r₁ layout id).result.map g =
      (examine r₂ layout id).result.map g) :
    (identifiedFunctions r₁ layout ids).map g = (identifiedFunctions r₂ layout ids).map g ∧
      leftOutFunctions r₁ layout ids = leftOutFunctions r₂ layout ids := by
  unfold identifiedFunctions leftOutFunctions
  constructor
  · simp only [List.map_filterMap, ← toOption_map, h]
  · refine List.filterMap_congr fun id _ => ?_
    rw [← leftOut?_map g, h, leftOut?_map]

/-! ## Visits -/

/-- What is told of a listed function: what its examination tells, then why it is left out. -/
def eventsOf (id : String) : List Event :=
  (examine reader layout id).events ++ match (examine reader layout id).result with
    | .ok _ => []
    | .error reason => [.skipped id reason]

/-- What is told of a function that gives a node is told of the search for streaming DMA. -/
theorem eventsOf_of_ok {id : String} {f : IdentifiedFunction}
    (h : (examine reader layout id).result = .ok f) :
    eventsOf reader layout id = (IdentifiedFunction.streamingDma reader layout id).2 := by
  rw [eventsOf, tellsInTheEnd_examine reader layout id, h]
  exact List.append_nil _

/-- What is told of a function that is left out is its reason. -/
theorem eventsOf_of_error {id : String} {reason : SkipReason}
    (h : (examine reader layout id).result = .error reason) :
    eventsOf reader layout id = [.skipped id reason] := by
  rw [eventsOf, tellsInTheEnd_examine reader layout id, h]
  rfl

/-- What is found of given functions. -/
def ScanOutcome.ofListed (ids : List String) : ScanOutcome where
  devices := (identifiedFunctions reader layout ids).foldl DeviceMap.addFunction {}
  skipped := leftOutFunctions reader layout ids

theorem devices_ofListed (ids : List String) : (ScanOutcome.ofListed reader layout ids).devices =
    (identifiedFunctions reader layout ids).foldl DeviceMap.addFunction {} := rfl

theorem skipped_ofListed (ids : List String) :
    (ScanOutcome.ofListed reader layout ids).skipped = leftOutFunctions reader layout ids := rfl

/-- A visit of a function that is identified adds it to its card. -/
theorem visit_of_ok {id : String} {f : IdentifiedFunction}
    (h : (examine reader layout id).result = .ok f) (outcome : ScanOutcome) :
    ScanOutcome.visit reader layout outcome id =
      ⟨eventsOf reader layout id,
        .ok { outcome with devices := outcome.devices.addFunction f }⟩ := by
  unfold ScanOutcome.visit eventsOf
  rw [Logged.attempt_bind, h]
  rfl

/-- A visit of another function puts it among those left out, unless it is hardware of others. -/
theorem visit_of_error {id : String} {reason : SkipReason}
    (h : (examine reader layout id).result = .error reason) (outcome : ScanOutcome) :
    ScanOutcome.visit reader layout outcome id =
      ⟨eventsOf reader layout id,
        .ok { outcome with
          skipped := outcome.skipped ++ (leftOut? id (.error reason)).toList }⟩ := by
  unfold ScanOutcome.visit eventsOf
  rw [Logged.attempt_bind, h]
  cases reason <;> simp [Logged.tell, Logged.bind_of_ok, leftOut?, SkipReason.isForeign]

/-- **A visit takes what is found of some functions to what is found of one more.** -/
theorem visit_ofListed (ids : List String) (id : String) :
    ScanOutcome.visit reader layout (.ofListed reader layout ids) id =
      ⟨eventsOf reader layout id, .ok (.ofListed reader layout (ids ++ [id]))⟩ := by
  cases h : (examine reader layout id).result with
  | ok f =>
    rw [visit_of_ok reader layout h]
    simp [ScanOutcome.ofListed, identifiedFunctions, leftOutFunctions, h, leftOut?,
      Except.toOption]
  | error reason =>
    rw [visit_of_error reader layout h]
    cases hleft : leftOut? id (.error reason) <;>
      simp [ScanOutcome.ofListed, identifiedFunctions, leftOutFunctions, h, hleft, Except.toOption]

/-- **Visits one after the other find what is found of all.** The induction is on the functions
still to come. -/
theorem foldlM_visit (before ids : List String) :
    ids.foldlM (ScanOutcome.visit reader layout) (.ofListed reader layout before) =
      ⟨ids.flatMap (eventsOf reader layout), .ok (.ofListed reader layout (before ++ ids))⟩ := by
  induction ids generalizing before with
  | nil => rw [List.foldlM_nil, List.append_nil]; rfl
  | cons id rest ih =>
    rw [List.foldlM_cons, visit_ofListed, Logged.bind_of_ok rfl, ih, List.append_assoc,
      List.singleton_append, List.flatMap_cons]

/-- **A scan of what can be listed finds what is found of all functions**, tells of each in the
order of the listing, and of the outcome last. -/
theorem scan_eq_of_list {ids : List String} (hlist : reader.list layout.functions = .ok ids) :
    scan reader layout =
      ⟨ids.flatMap (eventsOf reader layout) ++ [(ScanOutcome.ofListed reader layout ids).summary],
        .ok (.ofListed reader layout ids)⟩ := by
  have hrun : ids.foldlM (ScanOutcome.visit reader layout) {} =
      ⟨ids.flatMap (eventsOf reader layout), .ok (.ofListed reader layout ids)⟩ :=
    foldlM_visit reader layout [] ids
  unfold scan
  rw [hlist, Logged.bind_of_ok rfl, hrun]
  rfl

/-- A scan of what cannot be listed finds and tells nothing. -/
theorem scan_eq_of_list_error {e : FileError} (hlist : reader.list layout.functions = .error e) :
    scan reader layout = ⟨[], .error (.listFunctions layout.functions e)⟩ := by
  unfold scan
  rw [hlist]
  rfl

theorem scan_of_list {ids : List String} (hlist : reader.list layout.functions = .ok ids) :
    (scan reader layout).result = .ok (.ofListed reader layout ids) := by
  rw [scan_eq_of_list reader layout hlist]

/-- **Only a listing that fails ends a scan**, and with its error. -/
theorem scan_eq_error_iff {failure : Failure} :
    (scan reader layout).result = .error failure ↔
      ∃ e, reader.list layout.functions = .error e ∧
        failure = .listFunctions layout.functions e := by
  cases hlist : reader.list layout.functions with
  | error e =>
    rw [scan_eq_of_list_error reader layout hlist]
    simp [eq_comm]
  | ok ids =>
    rw [scan_of_list reader layout hlist]
    simp

/-- An outcome is that of what was listed. -/
theorem exists_list_of_scan {outcome : ScanOutcome}
    (h : (scan reader layout).result = .ok outcome) :
    ∃ ids, reader.list layout.functions = .ok ids ∧ outcome = .ofListed reader layout ids := by
  cases hlist : reader.list layout.functions with
  | error e =>
    rw [scan_eq_of_list_error reader layout hlist] at h
    cases h
  | ok ids =>
    rw [scan_of_list reader layout hlist] at h
    exact ⟨ids, rfl, (Except.ok.inj h).symm⟩

/-- Readers that list the same functions both fail to, or both have an outcome of the same ones. -/
theorem scan_cases_of_list_eq {r₁ r₂ : Reader} {layout : Layout}
    (h : r₁.list layout.functions = r₂.list layout.functions) :
    (∃ failure, scan r₁ layout = ⟨[], .error failure⟩ ∧ scan r₂ layout = ⟨[], .error failure⟩) ∨
      ∃ ids, r₁.list layout.functions = .ok ids ∧ r₂.list layout.functions = .ok ids := by
  cases hlist : r₁.list layout.functions with
  | error e =>
    refine .inl ⟨_, scan_eq_of_list_error r₁ layout hlist, scan_eq_of_list_error r₂ layout ?_⟩
    rw [← h, hlist]
  | ok ids => exact .inr ⟨ids, rfl, h ▸ hlist⟩

/-- There are no more cards and no more nodes than listed functions. -/
theorem size_devices_ofListed_le (ids : List String) :
    (ScanOutcome.ofListed reader layout ids).devices.size ≤ ids.length ∧
      (ScanOutcome.ofListed reader layout ids).devices.nodeCount ≤
        ids.length := by
  have hlength : (identifiedFunctions reader layout ids).length ≤ ids.length :=
    List.length_filterMap_le _ _
  rw [devices_ofListed, DeviceMap.nodeCount_foldl_addFunction]
  exact ⟨(DeviceMap.size_foldl_addFunction_le _).trans hlength, hlength⟩

/-- Each node of a card is that of a listed function. -/
theorem exists_of_mem_nodes {ids : List String} {device : Device} {node : Node}
    (hdevice : device ∈
      (ScanOutcome.ofListed reader layout ids).devices.values)
    (hnode : node ∈ device.nodes) :
    ∃ id ∈ ids, ∃ f, (examine reader layout id).result = .ok f ∧ f.node = node := by
  rw [devices_ofListed] at hdevice
  have hmem := (DeviceMap.nodes_foldl_addFunction (identifiedFunctions reader layout ids)).mem_iff.1
    (List.mem_flatMap_of_mem hdevice hnode)
  obtain ⟨f, hf, rfl⟩ := List.mem_map.1 hmem
  obtain ⟨id, hid, hok⟩ := (mem_identifiedFunctions reader layout).1 hf
  exact ⟨id, hid, f, hok, rfl⟩

/-- A listed function is a node, left out or hardware of others, and only one of them. -/
theorem length_listing (ids : List String) :
    (identifiedFunctions reader layout ids).length + (leftOutFunctions reader layout ids).length +
      ids.countP (fun id => isForeignResult (examine reader layout id).result) =
        ids.length := by
  induction ids with
  | nil => rfl
  | cons id rest ih =>
    unfold identifiedFunctions leftOutFunctions at ih ⊢
    rw [List.countP_cons, List.filterMap_cons, List.filterMap_cons]
    rcases result_cases id (examine reader layout id).result with
      ⟨f, hnode, hleft, hforeign⟩ | ⟨s, hnode, hleft, hforeign⟩ | ⟨hnode, hleft, hforeign⟩ <;>
    · simp only [hnode, hleft, hforeign, List.length_cons]
      simp
      omega

/-- **A scan groups functions by serial number.** A serial number is a key when some listed
function has it; its card has the nodes of all functions with it, in the order of the listing, and
the shell image of the first of them. What gives no node is left out with its reason, but for
hardware of others, and nothing listed is lost. -/
theorem scan_groups_by_serial {ids : List String} (hlist : reader.list layout.functions = .ok ids) :
    ∃ outcome, (scan reader layout).result = .ok outcome ∧
      (∀ serial, serial ∈ outcome.devices.keys ↔ ∃ id ∈ ids, ∃ f,
        (examine reader layout id).result = .ok f ∧
          f.identity.serialNumber = serial) ∧
      (∀ serial device, outcome.devices.get? serial = some device →
        device.serialNumber = serial ∧ device.health = .healthy ∧ device.nodes ≠ [] ∧
          device.nodes = (IdentifiedFunction.ofCard serial
            (identifiedFunctions reader layout ids)).map IdentifiedFunction.node ∧
          ∃ first, (IdentifiedFunction.ofCard serial
              (identifiedFunctions reader layout ids)).head? = some first ∧
            device.shellVersion = first.identity.shellVersion ∧
            device.buildTimestamp = first.identity.buildTimestamp) ∧
      outcome.skipped = leftOutFunctions reader layout ids ∧
      outcome.devices.nodeCount + outcome.skipped.length +
        ids.countP (fun id =>
          isForeignResult (examine reader layout id).result) = ids.length := by
  refine ⟨_, scan_of_list reader layout hlist, ?_, ?_, ?_, ?_⟩
  · intro serial
    rw [devices_ofListed, SortedMap.mem_keys_iff, DeviceMap.get?_foldl_addFunction,
      Device.exists_ofFunctions?_ofCard]
    simp only [mem_identifiedFunctions]
    constructor
    · rintro ⟨f, ⟨id, hid, hf⟩, hserial⟩
      exact ⟨id, hid, f, hf, hserial⟩
    · rintro ⟨id, hid, f, hf, hserial⟩
      exact ⟨f, ⟨id, hid, hf⟩, hserial⟩
  · intro serial device hdevice
    rw [devices_ofListed, DeviceMap.get?_foldl_addFunction] at hdevice
    obtain ⟨first, hfirst, rfl⟩ := Device.eq_of_ofFunctions?_eq_some hdevice
    have hmem := List.mem_of_head? hfirst
    refine ⟨(IdentifiedFunction.mem_ofCard.1 hmem).2, rfl, ?_, rfl, first, hfirst, rfl, rfl⟩
    exact List.ne_nil_of_mem (List.mem_map_of_mem hmem)
  · rfl
  · rw [devices_ofListed, skipped_ofListed, DeviceMap.nodeCount_foldl_addFunction]
    exact length_listing reader layout ids

end

/-- The tree with the files of a ready function of a card. -/
def MemoryTree.addCardFunction (tree : MemoryTree) (dir : Path)
    (serialNumber shellVersion : String) : MemoryTree :=
  [("vendor", "0x10ee"), ("user_pf", ""), ("ready", "0x1"), ("device", "0x5000"),
    ("xmc.u.1/serial_num", serialNumber), ("rom.u.1/VBNV", shellVersion),
    ("rom.u.1/timestamp", "0x5"), ("drm/renderD128", "")].foldl
      (fun tree e => tree.addFile (dir.join e.1) e.2) tree

/-- A reader of ready functions of one card. The shell version of each is the path of its file. -/
def Reader.ofCardFunctions (serialNumber : String) (ids : List String) : Reader where
  read path :=
    let endsWith (name : String) := name.toList.isSuffixOf path.text.toList
    if endsWith "/vendor" then .ok "0x10ee"
    else if endsWith "/ready" then .ok "0x1"
    else if endsWith "/serial_num" then .ok serialNumber
    else .ok path.text
  list _ := .ok ids
  present path := "/user_pf".toList.isSuffixOf path.text.toList
  find _ lead := .ok (some lead)

/-- Two functions of one card that disagree on the shell, and hardware of others between them. -/
def sampleCard : MemoryTree :=
  let first := ({} : MemoryTree).addCardFunction ⟨"/d/a"⟩ "S" "v1"
  (first.addFile ⟨"/d/b/vendor"⟩ "0x8086").addCardFunction ⟨"/d/c"⟩ "S" "v2"

/-- The first function of the sample fixes the shell, and both give a node. -/
theorem scan_groups_by_serial_sample :
    sampleCard.reader.list ⟨"/d"⟩ = .ok ["a", "b", "c"] ∧
      ∃ outcome, (scan sampleCard.reader (.withRoot "/d")).result = .ok outcome ∧
        ∃ device, outcome.devices.get? "S" = some device ∧ device.shellVersion = "v1" ∧
          device.nodes.map Node.address = ["a", "c"] := by
  have hlist : sampleCard.reader.list ⟨"/d"⟩ = .ok ["a", "b", "c"] := by decide +kernel
  have hcard : (IdentifiedFunction.ofCard "S" (identifiedFunctions sampleCard.reader
      (.withRoot "/d") ["a", "b", "c"])).map (fun f => (f.identity.shellVersion, f.node.address)) =
        [("v1", "a"), ("v2", "c")] := by decide +kernel
  obtain ⟨outcome, hscan, hkeys, hdevice, -⟩ :=
    scan_groups_by_serial sampleCard.reader (.withRoot "/d") hlist
  obtain ⟨f, rest, hfunctions, hf, -⟩ := List.map_eq_cons_iff.1 hcard
  obtain ⟨hfunction, hserial⟩ := IdentifiedFunction.mem_ofCard.1 (hfunctions ▸ List.mem_cons_self)
  obtain ⟨id, hid, hok⟩ := (mem_identifiedFunctions _ _).1 hfunction
  obtain ⟨device, hget⟩ := SortedMap.mem_keys_iff.1 ((hkeys "S").2 ⟨id, hid, f, hok, hserial⟩)
  obtain ⟨-, -, -, hnodes, first, hfirst, hshell, -⟩ := hdevice "S" device hget
  refine ⟨hlist, outcome, hscan, device, hget, ?_, ?_⟩
  · rw [hfunctions, List.head?_cons] at hfirst
    rw [hshell, ← Option.some.inj hfirst]
    exact congrArg Prod.fst hf
  · have haddresses := congrArg (List.map Prod.snd) hcard
    rw [List.map_map] at haddresses
    rw [hnodes, List.map_map]
    exact haddresses

end CardInventory
