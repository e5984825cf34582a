import CardInventory.Proofs.Card.Json
import CardInventory.Proofs.Json.Arrangement

/-
# Inventories of any arrangement are read alike

The members of nodes, cards, units and inventories may stand in any order and others between them,
and the cards of an inventory in any order of their keys: the same is read
(`reading_ignores_arrangement`). So an inventory is read from a text with more members than are
known, at whatever depth these are.
-/

namespace CardInventory

open Json

/-- **What is read ignores how a text is arranged.** Of a text from which a node, a card, a device
file, a unit or an inventory is read, the members of any record may be put in another order, the
entries of the map of cards too, if their keys are distinct, and members of other names may be added
to any record: there is a text of the changed tree, and from every such text the same is read. -/
theorem reading_ignores_arrangement :
    IgnoresArrangement Node ∧ IgnoresArrangement Device ∧ IgnoresArrangement DeviceSpec ∧
      IgnoresArrangement AllocatableUnit ∧ IgnoresArrangement Inventory :=
  ⟨ignoresArrangement _, ignoresArrangement _, ignoresArrangement _, ignoresArrangement _,
    ignoresArrangement _⟩

/-- The members of a node. -/
def sampleNodeMembers : List (String × Json) :=
  [("primary_device_path", .text "p"), ("subdevice_path", .text "q"), ("address", .text "a")]

/-- The members of a card with a node. -/
def sampleCardMembers (node : List (String × Json)) : List (String × Json) :=
  [("serial_number", .text "S"), ("shell_version", .text "v"), ("build_timestamp", .text "t"),
    ("health", .text "Healthy"), ("nodes", .array [.object node])]

/-- A card as it is written. -/
def sampleCardJson : Json := .object (sampleCardMembers sampleNodeMembers)

/-- The members of the node with one that is not known. -/
def sampleLongerNode : List (String × Json) :=
  ("internal_device_id", .text "0x5001") :: sampleNodeMembers

/-- The members of the card with one that is not known, its node being the longer one, the other way
round. -/
def sampleLongerCard : List (String × Json) :=
  ("slot", .array [.null]) :: sampleCardMembers sampleLongerNode.reverse

/-- The longer card the other way round. -/
def sampleReversedJson : Json := .object sampleLongerCard.reverse

/-- From one to the other there are four changes, two of them in the node. -/
theorem rearranges_sample :
    Rearranges (Shaped.shape Device) sampleCardJson.tree sampleReversedJson.tree := by
  have hspelled : ∀ (key : String) (j : Json), j.tree.intact = true →
      (Phrase.member (units key, j.tree)).Spelled := fun key j h =>
    spelled_member_iff.2 ⟨⟨_, spellsText_textChars key⟩, _, spells_chars Style.lawful_compact j 0 h⟩
  have hreverse : ∀ {name fields} (ms : List (String × Json)),
      Rearranged (.record name fields) (object ms).tree (object ms.reverse).tree := by
    intro name fields ms
    rw [tree, tree, memberTrees_eq_map, memberTrees_eq_map, List.map_reverse]
    exact .members (List.reverse_perm _).symm
  -- a change in the node is one in the card
  have hinNode : ∀ {node node' : List (String × Json)},
      Rearranged (Shaped.shape Node) (object node).tree (object node').tree →
        Rearranged (Shaped.shape Device) (object (sampleCardMembers node)).tree
          (object (sampleCardMembers node')).tree := by
    intro node node' h
    have hitem : Rearranged (.list (Shaped.shape Node)) (array [.object node]).tree
        (array [.object node']).tree := @Rearranged.inItem _ [] [] _ _ h
    exact @Rearranged.inField _ _ (memberTrees ((sampleCardMembers node).take 4)) [] _ _ _ _ _
      (unitText?_units "nodes") rfl hitem
  have hnode : Rearranged (Shaped.shape Node) (object sampleNodeMembers).tree
      (object sampleLongerNode).tree :=
    @Rearranged.unknown _ _ [] _ _ _ _ (hspelled _ (.text "0x5001") rfl) (unitText?_units _)
      (by decide)
  have hcard : Rearranged (Shaped.shape Device)
      (object (sampleCardMembers sampleLongerNode.reverse)).tree (object sampleLongerCard).tree :=
    @Rearranged.unknown _ _ [] _ _ _ _ (hspelled _ (.array [.null]) rfl) (unitText?_units _)
      (by decide)
  have hreversed : Rearranges (Shaped.shape Device) (object sampleLongerCard).tree
      sampleReversedJson.tree := .single (hreverse _)
  exact .head (hinNode hnode) (.head (hinNode (hreverse _)) (.head hcard hreversed))

/-- Both texts are read as one card, whose node has no device id. -/
theorem reading_ignores_arrangement_sample : ∃ card : Device,
    decode Device sampleCardJson.compact = .ok card ∧
      decode Device sampleReversedJson.pretty = .ok card ∧
      card.nodes.map (·.internalDeviceId) = [""] := by
  obtain ⟨-, ⟨-, -, hread⟩, -⟩ := reading_ignores_arrangement
  have hids : (decode Device sampleCardJson.compact).toOption.map
      (fun card => card.nodes.map (·.internalDeviceId)) = some [""] := by
    decide +kernel
  obtain ⟨card, hcard, hnodes⟩ := Option.map_eq_some_iff.1 hids
  rw [toOption_eq_some_iff] at hcard
  refine ⟨card, hcard, (hread _ _ _ _ ?_ ?_ rearranges_sample card).1 hcard, hnodes⟩
  · exact readTree_eq_iff.1 (readTree_render Style.lawful_compact _ rfl)
  · exact readTree_eq_iff.1 (readTree_render Style.lawful_pretty _ rfl)

end CardInventory
