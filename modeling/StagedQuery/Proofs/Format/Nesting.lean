import StagedQuery.Proofs.Dispatch.Built
import StagedQuery.Proofs.Format.Dispatch

/-!
# How deeply a plan nests

A text is read only if its brackets do not nest deeper than the reader has room for, so it
matters how deep the text of a plan is. Everything in it but the trees of its stages takes eight
levels at the most, and a tree has four above it (`StagedQuery.StageGraph.levels_toJson_le`).

Cutting a tree makes nothing deeper: an exchange gives way to a receive, which is shallower than
the exchange was, and the send over what was below takes the very levels of the exchange
(`StagedQuery.PlanTree.levels_opened_le`). Only the border at which the result is collected has
no exchange in the query, and adds two levels (`StagedQuery.PlanTree.levels_fragments_le`). So the
plan of a query nests at most six levels deeper than the query.
-/

namespace StagedQuery

open Json

/-! ### Lists and maps -/

namespace Json

variable {α : Type}

theorem levels_ofList_le {write : α → Json} {items : List α} {room : Nat} :
    (ofList write items).levels ≤ room + 1 ↔ ∀ a ∈ items, (write a).levels ≤ room := by
  rw [ofList, levels_array_le, List.forall_mem_map]

theorem levels_ofIdMap_le {what : Named} {write : α → Json} {map : IdMap what α} {room : Nat} :
    (ofIdMap write map).levels ≤ room + 1 ↔
      ∀ (id : Id what) (a : α), map[id]? = some a → (write a).levels ≤ room := by
  rw [ofIdMap, levels_object_le, List.forall_mem_map]
  simp only [Prod.forall, Std.ExtTreeMap.mem_toList_iff_getElem?_eq_some]

/-- A list of plain values takes one level. -/
theorem levels_ofList_plain {write : α → Json} {items : List α} (h : ∀ a, (write a).levels = 0) :
    (ofList write items).levels = 1 := by
  have hitems : levelsOfItems (items.map write) ≤ 0 :=
    levelsOfItems_le.mpr (List.forall_mem_map.mpr fun a _ => Nat.le_of_eq (h a))
  rw [ofList, levels, Nat.le_zero.mp hitems]

@[simp] theorem levels_ofTexts (texts : List String) : (ofTexts texts).levels = 1 :=
  levels_ofList_plain levels_ofString

@[simp] theorem levels_ofIds {what : Named} (ids : List (Id what)) :
    (ofList ofId ids).levels = 1 :=
  levels_ofList_plain levels_ofId

end Json

/-! ### Trees that are cut -/

namespace Operator

theorem levels_send (send : Send) : (Operator.send send).toJson.levels = 3 := by
  simp [toJson, parameters, Send.toJson, ofFields, levels, levelsOfMembers]

theorem levels_receive (receive : Receive) : (Operator.receive receive).toJson.levels = 2 := by
  simp [toJson, parameters, Receive.toJson, ofFields, levels, levelsOfMembers]

theorem levels_exchange (distribution : Distribution) (keys : List String) :
    (Operator.exchange distribution keys).toJson.levels = 3 := by
  simp [toJson, parameters, ofFields, levels, levelsOfMembers]

end Operator

namespace PlanTree

/-- What is written for a tree takes two levels at the least. -/
theorem two_le_levels_toJson (tree : PlanTree) : 2 ≤ tree.toJson.levels := by
  obtain ⟨id, stage, operator, inputs⟩ := tree
  rw [levels_toJson]
  omega

/-- **What is kept of a tree** nests no deeper than the tree. -/
theorem levels_kept_le :
    (∀ s k n tree, (kept s k n tree).toJson.levels ≤ tree.toJson.levels) ∧
    ∀ s k n inputs, levelsOfItems ((keptList s k n inputs).map toJson) ≤
      levelsOfItems (inputs.map toJson) := by
  refine cutInduction (fun s k n id stage distribution keys inputs ih => ?_)
    (fun s k n id stage operator inputs h ih => ?_) (fun s k n => ?_)
    fun s k n node rest hnode hrest => ?_
  · rw [kept_exchange, levels_toJson, levels_toJson, Operator.levels_receive,
      Operator.levels_exchange, List.map_nil, levelsOfItems]
    omega
  · rw [kept_inner _ _ _ _ _ _ h, levels_toJson, levels_toJson]
    omega
  · rw [keptList]
  · rw [keptList, List.map_cons, List.map_cons, levelsOfItems, levelsOfItems]
    omega

/-- The stage over an exchange nests no deeper than the exchange did. -/
theorem levels_stageOver_le (s : StageId) (k n : Nat) (id : NodeId) (stage : StageId)
    (distribution : Distribution) (keys : List String) (inputs : List PlanTree) :
    (stageOver s k n distribution keys inputs).root.toJson.levels ≤
      (toJson ⟨id, stage, .exchange distribution keys, inputs⟩).levels := by
  have hkept := levels_kept_le.2 (Id.ofNat k) (k + 1) (n + 2) inputs
  rw [stageOver, levels_toJson, levels_toJson, Operator.levels_send, Operator.levels_exchange]
  omega

/-- **The stages cut off below a tree** nest no deeper than the tree. -/
theorem levels_opened_le :
    (∀ s k n tree, ∀ opening ∈ opened s k n tree,
      opening.root.toJson.levels ≤ tree.toJson.levels) ∧
    ∀ s k n inputs, ∀ opening ∈ openedList s k n inputs,
      opening.root.toJson.levels ≤ levelsOfItems (inputs.map toJson) := by
  refine cutInduction (fun s k n id stage distribution keys inputs ih opening hopening => ?_)
    (fun s k n id stage operator inputs h ih opening hopening => ?_)
    (fun s k n opening hopening => ?_) fun s k n node rest hnode hrest opening hopening => ?_
  · rw [opened_exchange] at hopening
    rcases List.mem_cons.mp hopening with rfl | hbelow
    · exact levels_stageOver_le ..
    · have hle := ih opening hbelow
      rw [levels_toJson]
      omega
  · rw [opened_inner _ _ _ _ _ _ h] at hopening
    have hle := ih opening hopening
    rw [levels_toJson]
    omega
  · rw [openedList] at hopening
    exact absurd hopening List.not_mem_nil
  · rw [openedList] at hopening
    rw [List.map_cons, levelsOfItems]
    rcases List.mem_append.mp hopening with hfirst | hlater
    · exact Nat.le_trans (hnode opening hfirst) (Nat.le_max_left ..)
    · exact Nat.le_trans (hrest opening hlater) (Nat.le_max_right ..)

/-- **The stages of a query** nest at most two levels deeper than the query. -/
theorem levels_fragments_le {root : PlanTree} {stage : Stage} (h : stage ∈ root.fragments) :
    stage.root.toJson.levels ≤ root.toJson.levels + 2 := by
  have hcollected : root.collected.toJson.levels ≤ root.toJson.levels + 2 := by
    have hroot := root.two_le_levels_toJson
    rw [collected, levels_toJson, Operator.levels_exchange, List.map_singleton, levelsOfItems,
      levelsOfItems]
    omega
  refine Nat.le_trans ?_ hcollected
  rcases mem_fragments.mp h with rfl | hopened
  · exact levels_kept_le.1 ..
  · exact levels_opened_le.1 _ _ _ _ _ hopened

end PlanTree

/-! ### Plans -/

theorem Server.levels_toJson (server : Server) : server.toJson.levels = 1 := by
  simp [toJson, ofFields, levels, levelsOfMembers]

theorem Assignment.levels_toJson_le (assignment : Assignment) : assignment.toJson.levels ≤ 4 := by
  have hhosting (hosting : Hosting) : hosting.toJson.levels ≤ 2 := by
    simp [Hosting.toJson, ofFields, levels_object_le, Server.levels_toJson]
  have hservers : (ofList Hosting.toJson assignment.servers).levels ≤ 3 :=
    levels_ofList_le.mpr fun hosting _ => hhosting hosting
  have hsegments : (segmentsToJson assignment.segments).levels ≤ 3 :=
    levels_ofIdMap_le.mpr fun _ segments _ => by simp [ofTextSet]
  simp [toJson, ofFields, levels_object_le, hservers, hsegments]

theorem WorkerLinks.levels_toJson_le (links : WorkerLinks) : links.toJson.levels ≤ 4 := by
  have hmailbox (mailbox : Mailbox) : mailbox.toJson.levels ≤ 1 := by
    simp [Mailbox.toJson, ofFields, levels_object_le]
  have hmailboxes (mailboxes : StageMap (List Mailbox)) :
      (ofIdMap (ofList Mailbox.toJson) mailboxes).levels ≤ 3 :=
    levels_ofIdMap_le.mpr fun _ _ _ => levels_ofList_le.mpr fun mailbox _ => hmailbox mailbox
  simp [toJson, ofFields, levels_object_le, Server.levels_toJson, hmailboxes]

/-- Where there is room for all but its tree, a planned stage fits if its tree does. -/
theorem PlannedStage.levels_toJson_le {planned : PlannedStage} {room : Nat} (hroom : 4 ≤ room) :
    planned.toJson.levels ≤ room + 2 ↔ planned.stage.root.toJson.levels ≤ room := by
  have hassignment := planned.assignment.levels_toJson_le
  have hworkers : (workersToJson planned.workers).levels ≤ 5 :=
    levels_ofIdMap_le.mpr fun _ links _ => links.levels_toJson_le
  have htree : planned.stage.toJson.levels ≤ room + 1 ↔
      planned.stage.root.toJson.levels ≤ room := by
    simp [Stage.toJson, ofFields, levels_object_le]
  rw [toJson, ofFields, levels_object_le, ← htree]
  simp only [List.forall_mem_cons, List.not_mem_nil, false_implies, implies_true, and_true]
  exact and_iff_left ⟨by omega, by omega⟩

/-- **A plan fits** where the trees of its stages fit below the four levels above them, as long as
there is room for what else a plan holds. -/
theorem StageGraph.levels_toJson_le {graph : StageGraph} {room : Nat} (hroom : 8 ≤ room) :
    graph.toJson.levels ≤ room ↔ ∀ (id : StageId) (planned : PlannedStage),
      graph.stages[id]? = some planned → planned.stage.root.toJson.levels + 4 ≤ room := by
  obtain ⟨deeper, rfl⟩ := Nat.exists_eq_add_of_le' hroom
  have htree {planned : PlannedStage} : planned.toJson.levels ≤ deeper + 6 ↔
      planned.stage.root.toJson.levels + 4 ≤ deeper + 8 :=
    (PlannedStage.levels_toJson_le (by omega)).trans Nat.add_le_add_iff_right.symm
  rw [toJson, ofFields, levels_object_le]
  simp [levels_ofIdMap_le, htree]

end StagedQuery
