import CardInventory.Proofs.Scan.StreamingDma

/-
# A streaming DMA path belongs to one function

The path of a streaming DMA node is a join of the directory of control nodes with a name that ends
in the instance number. Which way the join goes is the same for all numbers, since digits are no
slashes; so the number is read back from the path under every layout, also where the fixed part of
the name is empty, absolute or itself ends in digits (`Layout.streamingDmaPath_inj`). With the
number goes the address (`PciAddress.number_inj`), and with an address in its written form its text.
So two nodes share a path exactly where their addresses spell the same (`streamingDmaPath_eq_iff`).
-/

namespace CardInventory

/-! ## From paths to numbers -/

/-- Of names that are both absolute, or both not, a join loses nothing. -/
theorem Path.join_inj {dir : Path} {m n : RawText}
    (habsolute : m.pieces.head? = some (.char '/') ↔ n.pieces.head? = some (.char '/'))
    (h : dir.join m = dir.join n) : m = n := by
  unfold join at h
  by_cases hm : m.pieces.head? = some (.char '/')
  · rw [if_pos hm, if_pos (habsolute.1 hm)] at h
    exact congrArg raw h
  · rw [if_neg hm, if_neg (mt habsolute.2 hm)] at h
    have hpieces := congrArg (fun p => p.raw.pieces) h
    refine congrArg RawText.mk (?_ : m.pieces = n.pieces)
    split_ifs at hpieces <;> simpa using hpieces

/-- A name that goes on with a number is absolute when what is before the number is. -/
theorem head?_append_toString {lead : String} {n : ℕ} :
    (RawText.ofString (lead ++ toString n)).pieces.head? = some (.char '/') ↔
      lead.toList.head? = some '/' := by
  have hhead : (RawText.ofString (lead ++ toString n)).pieces.head? = some (.char '/') ↔
      (lead ++ toString n).toList.head? = some '/' := by
    simp [RawText.ofString, RawText.ofChars]
  rw [hhead, String.toList_append, List.head?_append]
  cases lead.toList with
  | cons c cs => rfl
  | nil =>
    have hdigits : (toString n).toList.head? ≠ some '/' := fun h =>
      absurd (Nat.isDigit_of_mem_toDigits (by decide) (by decide)
        (Nat.toList_repr ▸ List.mem_of_head? h)) (by decide)
    simpa using hdigits

/-- **A streaming DMA path tells the instance number**, under every layout. -/
theorem Layout.streamingDmaPath_inj {layout : Layout} {m n : ℕ} :
    layout.streamingDmaPath m = layout.streamingDmaPath n ↔ m = n := by
  refine ⟨fun h => ?_, fun h => by rw [h]⟩
  have hjoin : ∀ k, ((Path.mk layout.subdeviceRoot).join (layout.dmaLead ++ toString k)).raw =
      .ofString (layout.streamingDmaPath k) := fun k =>
    Path.undamaged_join (RawText.undamaged_ofString _) (RawText.undamaged_ofString _)
  have hname := RawText.ofString_injective
    (Path.join_inj (head?_append_toString.trans head?_append_toString.symm)
      (congrArg Path.mk ((hjoin m).trans ((congrArg RawText.ofString h).trans (hjoin n).symm))))
  have hdigits : Nat.toDigits 10 m = Nat.toDigits 10 n := by
    rw [← Nat.toList_repr, ← Nat.toList_repr]
    exact congrArg String.toList ((String.append_right_inj _).1 hname)
  rw [← Nat.ofDigitChars_ten_toDigits (n := m), hdigits, Nat.ofDigitChars_ten_toDigits]

/-! ## From numbers to nodes -/

section
variable {reader : Reader} {layout : Layout} {outcome : ScanOutcome}

/-- The address of a node with a streaming DMA path is one, and the path is that of its number. -/
theorem exists_of_streamingDmaPath (hscan : (scan reader layout).result = .ok outcome)
    {device : Device} (hdevice : device ∈ outcome.devices.values) {node : Node}
    (hnode : node ∈ device.nodes) {path : String} (hpath : node.streamingDmaPath = some path) :
    ∃ a, PciAddress.parse node.address = .ok a ∧ path = layout.streamingDmaPath a.number := by
  obtain ⟨ids, -, rfl⟩ := exists_list_of_scan reader layout hscan
  obtain ⟨id, -, f, hok, rfl⟩ := exists_of_mem_nodes reader layout hdevice hnode
  rw [streamingDmaPath_of_examine reader layout hok] at hpath
  obtain ⟨a, -, hparse, -, rfl⟩ :=
    (IdentifiedFunction.fst_streamingDma_eq_some_iff reader layout).1 hpath
  exact ⟨a, address_of_examine reader layout hok ▸ hparse, rfl⟩

/-- **Streaming DMA paths are the same where the addresses spell the same.** -/
theorem streamingDmaPath_eq_iff (hscan : (scan reader layout).result = .ok outcome) {d₁ d₂ : Device}
    (hd₁ : d₁ ∈ outcome.devices.values) (hd₂ : d₂ ∈ outcome.devices.values) {n₁ n₂ : Node}
    (hn₁ : n₁ ∈ d₁.nodes) (hn₂ : n₂ ∈ d₂.nodes) {path₁ path₂ : String}
    (hpath₁ : n₁.streamingDmaPath = some path₁) (hpath₂ : n₂.streamingDmaPath = some path₂) :
    path₁ = path₂ ↔
      ∃ a, PciAddress.parse n₁.address = .ok a ∧ PciAddress.parse n₂.address = .ok a := by
  obtain ⟨a, ha, rfl⟩ := exists_of_streamingDmaPath hscan hd₁ hn₁ hpath₁
  obtain ⟨b, hb, rfl⟩ := exists_of_streamingDmaPath hscan hd₂ hn₂ hpath₂
  rw [Layout.streamingDmaPath_inj,
    PciAddress.number_inj (PciAddress.parse_inRange ha) (PciAddress.parse_inRange hb), ha, hb]
  constructor
  · rintro rfl
    exact ⟨a, rfl, rfl⟩
  · rintro ⟨c, hac, hbc⟩
    exact (Except.ok.inj hac).trans (Except.ok.inj hbc).symm

/-- Where no function is listed twice no two nodes of an outcome have one address. -/
theorem nodup_address_nodes {ids : List String} (hlist : reader.list layout.functions = .ok ids)
    (hnodup : ids.Nodup) (hscan : (scan reader layout).result = .ok outcome) :
    ((outcome.devices.values.flatMap Device.nodes).map Node.address).Nodup := by
  rw [scan_of_list reader layout hlist] at hscan
  obtain rfl := Except.ok.inj hscan
  have hperm := (DeviceMap.nodes_foldl_addFunction (identifiedFunctions reader layout ids)).map
    Node.address
  rw [List.map_map] at hperm
  rw [devices_ofListed]
  exact hperm.nodup_iff.2 (nodup_address_identifiedFunctions reader layout hnodup)

end

/-- **A streaming DMA path belongs to one function.** Two nodes of a scan that have such paths have
the same one exactly where their addresses spell the same PCI address. So where no function is
listed twice and all nodes with such paths have addresses as they are written, no path comes twice
among all nodes of all cards. -/
theorem streamingDma_paths_tell_addresses {reader : Reader} {layout : Layout}
    {outcome : ScanOutcome} (hscan : (scan reader layout).result = .ok outcome) :
    (∀ d₁ ∈ outcome.devices.values, ∀ n₁ ∈ d₁.nodes, ∀ path₁, n₁.streamingDmaPath = some path₁ →
      ∀ d₂ ∈ outcome.devices.values, ∀ n₂ ∈ d₂.nodes, ∀ path₂, n₂.streamingDmaPath = some path₂ →
        (path₁ = path₂ ↔
          ∃ a, PciAddress.parse n₁.address = .ok a ∧ PciAddress.parse n₂.address = .ok a)) ∧
    ∀ ids, reader.list layout.functions = .ok ids → ids.Nodup →
      (∀ device ∈ outcome.devices.values, ∀ node ∈ device.nodes, node.streamingDmaPath ≠ none →
        ∃ a : PciAddress, node.address = a.render) →
      ((outcome.devices.values.flatMap Device.nodes).filterMap Node.streamingDmaPath).Nodup := by
  constructor
  · intro d₁ hd₁ n₁ hn₁ path₁ hpath₁ d₂ hd₂ n₂ hn₂ path₂ hpath₂
    exact streamingDmaPath_eq_iff hscan hd₁ hd₂ hn₁ hn₂ hpath₁ hpath₂
  · intro ids hlist hnodup hwritten
    have haddresses := nodup_address_nodes hlist hnodup hscan
    unfold List.Nodup at haddresses ⊢
    rw [List.pairwise_map] at haddresses
    rw [List.pairwise_filterMap]
    refine haddresses.imp_of_mem fun {n₁ n₂} hn₁ hn₂ hne path₁ hpath₁ path₂ hpath₂ heq => hne ?_
    obtain ⟨d₁, hd₁, hn₁⟩ := List.mem_flatMap.1 hn₁
    obtain ⟨d₂, hd₂, hn₂⟩ := List.mem_flatMap.1 hn₂
    obtain ⟨c, hc₁, hc₂⟩ := (streamingDmaPath_eq_iff hscan hd₁ hd₂ hn₁ hn₂ hpath₁ hpath₂).1 heq
    -- Both addresses are the written form of what they spell.
    obtain ⟨a, ha⟩ := hwritten d₁ hd₁ n₁ hn₁ (by simp [hpath₁])
    obtain ⟨b, hb⟩ := hwritten d₂ hd₂ n₂ hn₂ (by simp [hpath₂])
    rw [ha] at hc₁
    rw [hb] at hc₂
    rw [ha, hb, ← PciAddress.eq_of_parse_render hc₁, ← PciAddress.eq_of_parse_render hc₂]

/-- Two functions of one card, named by two spellings of one address. -/
def sampleSpellings : Reader := .ofCardFunctions "S" ["0:3:0.1", "0000:03:00.1"]

/-- Two functions of one card, named by addresses as they are written. -/
def sampleWritten : Reader := .ofCardFunctions "S" ["0000:03:00.1", "0000:03:00.2"]

/-- The two spellings of the first sample share a path, the two addresses of the second have two. -/
theorem streamingDma_paths_tell_addresses_sample :
    (∃ outcome, (scan sampleSpellings (.withRoot "/d")).result = .ok outcome ∧
      ∃ device ∈ outcome.devices.values, ∃ n₁ ∈ device.nodes, ∃ n₂ ∈ device.nodes,
        n₁.address = "0:3:0.1" ∧ n₂.address = "0000:03:00.1" ∧ n₁.streamingDmaPath ≠ none ∧
        n₁.streamingDmaPath = n₂.streamingDmaPath) ∧
    ∃ outcome, (scan sampleWritten (.withRoot "/d")).result = .ok outcome ∧
      ∃ path₁ path₂, path₁ ≠ path₂ ∧
        (outcome.devices.values.flatMap Device.nodes).filterMap Node.streamingDmaPath =
          [path₁, path₂] := by
  constructor
  · have hnodes : (scan sampleSpellings (.withRoot "/d")).result.toOption.map (fun outcome =>
        outcome.devices.values.map fun d => d.nodes.map fun n =>
          (n.address, n.streamingDmaPath.isSome)) =
        some [[("0:3:0.1", true), ("0000:03:00.1", true)]] := by decide +kernel
    obtain ⟨outcome, hscan, hnodes⟩ := Option.map_eq_some_iff.1 hnodes
    rw [toOption_eq_some_iff] at hscan
    obtain ⟨device, rest, hdevices, hnodes, -⟩ := List.map_eq_cons_iff.1 hnodes
    obtain ⟨n₁, rest₁, hrest₁, hn₁, hnodes⟩ := List.map_eq_cons_iff.1 hnodes
    obtain ⟨n₂, rest₂, rfl, hn₂, -⟩ := List.map_eq_cons_iff.1 hnodes
    obtain ⟨haddress₁, hsome₁⟩ := Prod.mk.inj hn₁
    obtain ⟨haddress₂, hsome₂⟩ := Prod.mk.inj hn₂
    obtain ⟨path₁, hpath₁⟩ := Option.isSome_iff_exists.1 hsome₁
    obtain ⟨path₂, hpath₂⟩ := Option.isSome_iff_exists.1 hsome₂
    have hdevice : device ∈ outcome.devices.values := hdevices ▸ List.mem_cons_self
    have hmem₁ : n₁ ∈ device.nodes := hrest₁ ▸ List.mem_cons_self
    have hmem₂ : n₂ ∈ device.nodes := hrest₁ ▸ List.mem_cons_of_mem _ List.mem_cons_self
    refine ⟨outcome, hscan, device, hdevice, n₁, hmem₁, n₂, hmem₂, haddress₁, haddress₂,
      by simp [hpath₁], ?_⟩
    have hsame := (streamingDma_paths_tell_addresses hscan).1 device hdevice n₁ hmem₁ path₁ hpath₁
      device hdevice n₂ hmem₂ path₂ hpath₂
    rw [hpath₁, hpath₂, hsame.2 ⟨⟨0, 3, 0, 1⟩, ?_, ?_⟩]
    · rw [haddress₁]
      decide +kernel
    · rw [haddress₂]
      decide +kernel
  · have hnodes : (scan sampleWritten (.withRoot "/d")).result.toOption.map (fun outcome =>
        ((outcome.devices.values.flatMap Device.nodes).map Node.address,
          ((outcome.devices.values.flatMap Device.nodes).filterMap
            Node.streamingDmaPath).length)) =
        some (["0000:03:00.1", "0000:03:00.2"], 2) := by decide +kernel
    obtain ⟨outcome, hscan, hnodes⟩ := Option.map_eq_some_iff.1 hnodes
    rw [toOption_eq_some_iff] at hscan
    obtain ⟨haddresses, hlength⟩ := Prod.mk.inj hnodes
    have hwritten : ∀ device ∈ outcome.devices.values, ∀ node ∈ device.nodes,
        node.streamingDmaPath ≠ none → ∃ a : PciAddress, node.address = a.render := by
      intro device hdevice node hnode _
      have haddress := List.mem_map_of_mem (f := Node.address)
        (List.mem_flatMap_of_mem hdevice hnode)
      rw [haddresses] at haddress
      simp only [List.mem_cons, List.not_mem_nil, or_false] at haddress
      rcases haddress with h | h
      · exact ⟨⟨0, 3, 0, 1⟩, h.trans (by decide +kernel)⟩
      · exact ⟨⟨0, 3, 0, 2⟩, h.trans (by decide +kernel)⟩
    have hnodup := (streamingDma_paths_tell_addresses hscan).2 _ rfl (by decide) hwritten
    obtain ⟨path₁, path₂, hpaths⟩ := List.length_eq_two.1 hlength
    rw [hpaths] at hnodup
    refine ⟨outcome, hscan, path₁, path₂, ?_, hpaths⟩
    simpa using hnodup

end CardInventory
