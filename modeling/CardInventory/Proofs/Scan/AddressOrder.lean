import CardInventory.Proofs.Pci.Order
import CardInventory.Proofs.Scan.UnitIds

/-
# Cards list their functions in the order of addresses

A listing in ascending order takes the names of functions as texts. Where these are the written
addresses of functions, the texts are in the order of the addresses, and so are the nodes of each
card, whatever functions of other cards stand between them (`exists_addresses`). The first function
of a card, which fixes its shell image, is then the one with the least address.
-/

namespace CardInventory

section
variable (reader : Reader) (layout : Layout)

/-- In an ascending listing the functions that give a node have ascending addresses. -/
theorem ascending_address_identifiedFunctions {ids : List String} (h : ids.Pairwise (· < ·)) :
    (identifiedFunctions reader layout ids).Pairwise fun f g =>
      f.node.address < g.node.address := by
  refine h.filterMap _ fun id₁ id₂ hlt f hf g hg => ?_
  rwa [address_of_identified reader layout hf,
    address_of_identified reader layout hg]

end

/-- Functions whose names ascend are in the order of their addresses, where their names are written
addresses. -/
theorem exists_addresses {functions : List IdentifiedFunction}
    (hascending : functions.Pairwise fun f g => f.node.address < g.node.address)
    (hname : ∀ f ∈ functions, ∃ a : PciAddress, a.InRange ∧ f.node.address = a.render) :
    ∃ addresses : List PciAddress,
      functions.map (fun f => f.node.address) = addresses.map PciAddress.render ∧
        (∀ a ∈ addresses, a.InRange) ∧ addresses.Pairwise (· < ·) := by
  induction functions with
  | nil => exact ⟨[], rfl, List.forall_mem_nil _, .nil⟩
  | cons f rest ih =>
    obtain ⟨hfirst, hrest⟩ := List.pairwise_cons.1 hascending
    obtain ⟨⟨a, ha, hf⟩, hname⟩ := List.forall_mem_cons.1 hname
    obtain ⟨addresses, hnames, hrange, hlt⟩ := ih hrest hname
    have hleast : ∀ b ∈ addresses, a < b := by
      intro b hb
      have hmem : b.render ∈ rest.map fun f => f.node.address := hnames ▸ List.mem_map_of_mem hb
      obtain ⟨g, hg, hgb⟩ := List.mem_map.1 hmem
      rw [← PciAddress.render_lt_render_iff ha (hrange b hb), ← hf, ← hgb]
      exact hfirst g hg
    refine ⟨a :: addresses, ?_, List.forall_mem_cons.2 ⟨ha, hrange⟩,
      List.pairwise_cons.2 ⟨hleast, hlt⟩⟩
    rw [List.map_cons, List.map_cons, hf, hnames]

/-- **The addresses that their names spell ascend**, and so do the instance numbers. -/
theorem exists_parsed_addresses {functions : List IdentifiedFunction}
    (hascending : functions.Pairwise fun f g => f.node.address < g.node.address)
    (hname : ∀ f ∈ functions, ∃ a : PciAddress, a.InRange ∧ f.node.address = a.render) :
    ∃ addresses : List PciAddress,
      functions.map (fun f => PciAddress.parse f.node.address) = addresses.map .ok ∧
        addresses.Pairwise (· < ·) ∧ (addresses.map PciAddress.number).Pairwise (· < ·) := by
  obtain ⟨addresses, hnames, hrange, hlt⟩ := exists_addresses hascending hname
  refine ⟨addresses, ?_, hlt, ?_⟩
  · calc functions.map (fun f => PciAddress.parse f.node.address)
        = (functions.map fun f => f.node.address).map PciAddress.parse := by
          simp only [List.map_map, Function.comp_def]
      _ = addresses.map fun a => PciAddress.parse a.render := by
          rw [hnames]
          simp only [List.map_map, Function.comp_def]
      _ = addresses.map .ok :=
          List.map_congr_left fun a ha => PciAddress.parse_render (hrange a ha)
  · rw [List.pairwise_map]
    exact hlt.imp_of_mem fun ha hb => (PciAddress.lt_iff_number_lt (hrange _ ha) (hrange _ hb)).1

/-- **Cards list their functions in the order of addresses.** A tree in memory lists names in
ascending order. For any reader that does, a scan has an outcome. Where the functions that give a
node are named by written addresses in range, the nodes of each card are in the strict order of
their addresses, and of their instance numbers, and the card has the shell image of the function of
it with the least address. -/
theorem nodes_in_address_order (layout : Layout) :
    (∀ (tree : MemoryTree) path ids, tree.reader.list path = .ok ids → ids.Pairwise (· < ·)) ∧
    ∀ (reader : Reader) ids, reader.list layout.functions = .ok ids → ids.Pairwise (· < ·) →
      (∀ id ∈ ids, ∀ f, (examine reader layout id).result = .ok f →
        ∃ a : PciAddress, a.device ≤ 0x1f ∧ a.function ≤ 0x7 ∧ id = a.render) →
      ∃ outcome, (scan reader layout).result = .ok outcome ∧
        ∀ serial device, outcome.devices.get? serial = some device →
          ∃ addresses : List PciAddress,
            device.nodes.map (fun node => PciAddress.parse node.address) = addresses.map .ok ∧
            addresses.Pairwise (· < ·) ∧ (addresses.map PciAddress.number).Pairwise (· < ·) ∧
            ∃ id ∈ ids, ∃ f least, (examine reader layout id).result = .ok f ∧
              f.identity.serialNumber = serial ∧ PciAddress.parse id = .ok least ∧
              least ∈ addresses ∧ (∀ a ∈ addresses, a = least ∨ least < a) ∧
              device.shellVersion = f.identity.shellVersion ∧
              device.buildTimestamp = f.identity.buildTimestamp := by
  refine ⟨fun tree path ids h => MemoryTree.list_ascending h,
    fun reader ids hlist hascending hname => ?_⟩
  refine ⟨_, scan_of_list reader layout hlist, fun serial device hdevice => ?_⟩
  rw [devices_ofListed, DeviceMap.get?_foldl_addFunction] at hdevice
  obtain ⟨first, hfirst, rfl⟩ := Device.eq_of_ofFunctions?_eq_some hdevice
  have hcard : (IdentifiedFunction.ofCard serial (identifiedFunctions reader layout ids)).Pairwise
      fun f g => f.node.address < g.node.address :=
    (ascending_address_identifiedFunctions reader layout hascending).filter _
  have hnamed : ∀ f ∈ IdentifiedFunction.ofCard serial (identifiedFunctions reader layout ids),
      ∃ a : PciAddress, a.InRange ∧ f.node.address = a.render := by
    intro f hf
    obtain ⟨id, hid, hok⟩ := (mem_identifiedFunctions reader layout).1
      (IdentifiedFunction.mem_ofCard.1 hf).1
    obtain ⟨a, hdevice, hfunction, ha⟩ := hname id hid f hok
    exact ⟨a, ⟨hdevice, hfunction⟩, (address_of_examine reader layout hok).trans ha⟩
  obtain ⟨addresses, hparsed, hlt, hnumber⟩ := exists_parsed_addresses hcard hnamed
  refine ⟨addresses, ?_, hlt, hnumber, ?_⟩
  · rw [List.map_map]
    exact hparsed
  · obtain ⟨hfunction, hserial⟩ := IdentifiedFunction.mem_ofCard.1 (List.mem_of_head? hfirst)
    obtain ⟨id, hid, hok⟩ := (mem_identifiedFunctions reader layout).1 hfunction
    -- The card begins with its first function, and so the addresses with the one of that function.
    obtain ⟨rest, hcons⟩ := List.head?_eq_some_iff.1 hfirst
    rw [hcons, List.map_cons] at hparsed
    obtain ⟨least, others, rfl, hleast, -⟩ := List.map_eq_cons_iff.1 hparsed.symm
    refine ⟨id, hid, first, least, hok, hserial, ?_, List.mem_cons_self, ?_, rfl, rfl⟩
    · rw [← address_of_examine reader layout hok, hleast]
    · intro a ha
      exact (List.mem_cons.1 ha).imp_right ((List.pairwise_cons.1 hlt).1 a)

/-- Three functions of one card, in the order of their names. -/
def sampleBuses : Reader := .ofCardFunctions "S" ["0000:09:1f.7", "0000:0a:00.0", "0001:00:00.0"]

/-- The nodes of the card ascend, and the function on the least bus gives the shell. -/
theorem nodes_in_address_order_sample :
    ∃ outcome, (scan sampleBuses (.withRoot "/d")).result = .ok outcome ∧
      ∃ device, outcome.devices.get? "S" = some device ∧
        device.shellVersion = "/d/0000:09:1f.7/rom.u/VBNV" ∧
        ∃ addresses : List PciAddress,
          device.nodes.map (fun node => PciAddress.parse node.address) = addresses.map .ok ∧
          addresses.length = 3 ∧ addresses.Pairwise (· < ·) ∧
          (addresses.map PciAddress.number).Pairwise (· < ·) := by
  have hname : ∀ id ∈ ["0000:09:1f.7", "0000:0a:00.0", "0001:00:00.0"],
      ∃ a : PciAddress, a.device ≤ 0x1f ∧ a.function ≤ 0x7 ∧ id = a.render := by
    intro id hid
    simp only [List.mem_cons, List.not_mem_nil, or_false] at hid
    rcases hid with rfl | rfl | rfl
    · exact ⟨⟨0, 9, 0x1f, 7⟩, by decide, by decide, by decide +kernel⟩
    · exact ⟨⟨0, 10, 0, 0⟩, by decide, by decide, by decide +kernel⟩
    · exact ⟨⟨1, 0, 0, 0⟩, by decide, by decide, by decide +kernel⟩
  have hcard : ((scan sampleBuses (.withRoot "/d")).result.toOption.bind fun outcome =>
      outcome.devices.get? "S").map (fun device => (device.shellVersion, device.nodes.length)) =
        some ("/d/0000:09:1f.7/rom.u/VBNV", 3) := by decide +kernel
  obtain ⟨outcome, hscan, haddresses⟩ := (nodes_in_address_order (.withRoot "/d")).2 sampleBuses _
    rfl (by decide +kernel) fun id hid _ _ => hname id hid
  rw [hscan] at hcard
  obtain ⟨device, hdevice, hfields⟩ := Option.map_eq_some_iff.1 hcard
  obtain ⟨hshell, hlength⟩ := Prod.mk.inj hfields
  obtain ⟨addresses, hparsed, hlt, hnumber, -⟩ := haddresses "S" device hdevice
  refine ⟨outcome, hscan, device, hdevice, hshell, addresses, hparsed, ?_, hlt, hnumber⟩
  rw [← hlength, ← List.length_map, ← hparsed, List.length_map]

end CardInventory
