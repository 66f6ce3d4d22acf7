import StagedQuery.Proofs.Dispatch.Planner
import StagedQuery.Proofs.Explain.Cycles

/-!
# What a plan consists of that was made for a query

A plan that comes out of planning is the graph of the stages of the query, each with the
assignment that was placed for it (`StagedQuery.Planner.exists_built`). Nothing has to be
assumed about how many ids there are: planning ends with the check, and where the ids run out
the check finds a fault.

* If the ids of nodes run out, two nodes have the same id.
* If the ids of stages run out, every id is that of a stage. The roots of the stages are then as
  many nodes as there are ids, and no id is left for a node that is not the root of its stage
  (`StagedQuery.StageGraph.WellFormed.exists_not_mem`).

No stage of such a plan lies below itself, since a receive names a stage with a higher number
than its holder (`StagedQuery.BuiltFrom.acyclic`).
-/

namespace StagedQuery

/-! ### There are more ids than stages -/

namespace StageGraph

variable {graph : StageGraph}

theorem mem_nodes_of_stage {id : StageId} {planned : PlannedStage}
    (hplanned : graph.stages[id]? = some planned) {node : PlanTree}
    (hnode : node ∈ planned.stage.root.nodes) : node ∈ graph.nodes := by
  refine List.mem_flatMap.mpr ⟨planned, List.mem_map.mpr ⟨(id, planned), ?_, rfl⟩, hnode⟩
  exact Std.ExtTreeMap.mem_toList_iff_getElem?_eq_some.mpr hplanned

/-- Nodes of a well-formed graph with the same id are the same node. -/
theorem WellFormed.eq_of_id_eq (h : graph.WellFormed) {node node' : PlanTree}
    (hnode : node ∈ graph.nodes) (hnode' : node' ∈ graph.nodes) (hid : node.id = node'.id) :
    node = node' :=
  List.inj_on_of_nodup_map h.distinct hnode hnode' hid

/-- Some stage of a graph that has all ids is fed to another, and so its root is a send. -/
theorem WellFormed.exists_send (h : graph.WellFormed) (hall : ∀ id, id ∈ graph.stages) :
    ∃ (id : StageId) (planned : PlannedStage) (send : Send),
      graph.stages[id]? = some planned ∧ planned.stage.root.operator = .send send := by
  obtain ⟨other, hother⟩ : ∃ other : StageId, other ≠ graph.root := by
    by_cases hzero : graph.root = Id.ofNat 0
    · refine ⟨Id.ofNat 1, ?_⟩
      rw [hzero]
      decide
    · exact ⟨Id.ofNat 0, Ne.symm hzero⟩
  rcases Relation.ReflTransGen.cases_tail (h.needed other (hall other)) with
    heq | ⟨holder, -, planned, hplanned, node, hnode, receive, hreceive, -⟩
  · exact absurd heq.symm (Ne.symm hother)
  · obtain ⟨sender, hsender, send, hsend, -⟩ :=
      (((h.stages _ _ hplanned).nodes node hnode).fed receive hreceive).2
    exact ⟨receive.sender, sender, send, hsender, hsend⟩

/-- **Not every id is that of a stage.** Otherwise the roots of the stages would use up the
ids of nodes, and none would be left for a node below a root. -/
theorem WellFormed.exists_not_mem (h : graph.WellFormed) : ∃ id, id ∉ graph.stages := by
  by_contra hnone
  have hall : ∀ id, id ∈ graph.stages := fun id => Classical.not_not.mp (not_exists.mp hnone id)
  choose planned hplanned using fun id => mem_iff_exists_entry.mp (hall id)
  have hroot (id : StageId) : (planned id).stage.root ∈ graph.nodes :=
    mem_nodes_of_stage (hplanned id) (PlanTree.self_mem_nodes _)
  -- different stages have roots with different ids, and there are as many of one as of the other
  have hinjective : Function.Injective fun id => (planned id).stage.root.id := by
    intro a b hab
    have heq := h.eq_of_id_eq (hroot a) (hroot b) hab
    rw [← h.root_held (hplanned a), heq, h.root_held (hplanned b)]
  have hsurjective : Function.Surjective fun id => (planned id).stage.root.id := by
    let same : StageId ≃ NodeId :=
      ⟨fun i => ⟨i.number⟩, fun i => ⟨i.number⟩, fun _ => rfl, fun _ => rfl⟩
    exact (Finite.injective_iff_surjective_of_equiv same).mp hinjective
  -- below a send there is a node, and it has the id of the root of some stage
  obtain ⟨id, found, send, hfound, hsend⟩ := h.exists_send hall
  have hsound := h.stages id found hfound
  have hself := PlanTree.self_mem_nodes found.stage.root
  obtain ⟨input, hinput⟩ : ∃ input, found.stage.root.inputs = [input] := by
    have harity := (hsound.nodes _ hself).arity
    rw [hsend] at harity
    exact List.length_eq_one_iff.mp (of_decide_eq_true harity)
  have hin : input ∈ found.stage.root.inputs := hinput ▸ List.mem_singleton_self input
  have hmem := PlanTree.mem_nodes_of_input hin input.self_mem_nodes
  obtain ⟨other, hother⟩ := hsurjective input.id
  have heq := h.eq_of_id_eq (hroot other) (mem_nodes_of_stage hfound hmem) hother
  have hheld := h.root_held (hplanned other)
  rw [heq, (hsound.nodes _ hmem).held] at hheld
  -- so it is the root of its own stage, which is a send
  subst hheld
  have hsame := Option.some.inj (hfound.symm.trans (hplanned id))
  rw [← hsame] at heq
  exact hsound.unburied input hin input input.self_mem_nodes send (heq ▸ hsend)

end StageGraph

/-! ### What is recorded while a query is cut -/

theorem mem_recordAll {recorded : StageMap Stage} {stages : List Stage} {id : StageId} :
    id ∈ recordAll recorded stages ↔ id ∈ recorded ∨ id ∈ stages.map (·.id) := by
  induction stages generalizing recorded with
  | nil => simp [recordAll]
  | cons stage rest ih =>
    rw [recordAll, List.foldl_cons, ← recordAll, ih, Std.ExtTreeMap.mem_insert, List.map_cons,
      List.mem_cons, Std.LawfulEqCmp.compare_eq_iff_eq, or_assoc, or_left_comm, eq_comm (a := id)]

/-- Stages are recorded under their own ids. -/
theorem id_of_recordAll {recorded : StageMap Stage} {stages : List Stage}
    (h : ∀ (id : StageId) (stage : Stage), recorded[id]? = some stage → stage.id = id) :
    ∀ (id : StageId) (stage : Stage), (recordAll recorded stages)[id]? = some stage →
      stage.id = id := by
  induction stages generalizing recorded with
  | nil => exact h
  | cons first rest ih =>
    refine ih fun id stage hstage => ?_
    rcases getElem?_insert_eq_some.mp hstage with ⟨rfl, rfl⟩ | ⟨-, hstage⟩
    · rfl
    · exact h id stage hstage

/-- **Every id of a stage of a query is that of a stage which is recorded.** -/
theorem exists_recorded {root : PlanTree} {stages : List Stage} (h : toStages root = .ok stages)
    {stage : Stage} (hstage : stage ∈ root.fragments) : stage.id ∈ stages.map (·.id) := by
  rw [toStages_eq_recorded, map_eq_ok] at h
  obtain ⟨-, -, rfl⟩ := h
  have hclosed := (PlanTree.fragments_perm root).mem_iff.mpr hstage
  have hmem : stage.id ∈ recordAll ∅ (PlanTree.closed rootStageId 1 0 root.collected ++
      [root.arrival]) := mem_recordAll.mpr (.inr (List.mem_map_of_mem hclosed))
  obtain ⟨found, hfound⟩ := mem_iff_exists_entry.mp hmem
  have hid := id_of_recordAll (fun id stage hnone => by
    rw [Std.ExtTreeMap.getElem?_empty] at hnone
    exact nomatch hnone) _ _ hfound
  rw [← hid, List.map_map]
  exact List.mem_map.mpr ⟨(stage.id, found),
    Std.ExtTreeMap.mem_toList_iff_getElem?_eq_some.mpr hfound, rfl⟩

/-! ### The plan of a query -/

/-- **What a plan consists of** that was made for a query: its stages, each with the
assignment that was placed for it. -/
structure BuiltFrom (root : PlanTree) (cluster : Cluster) (settings : Settings)
    (joined : List PlannedStage) : Prop where
  /-- There are enough ids for the stages. -/
  fits : root.FitsStages
  /-- The query can be cut. -/
  cuttable : ∀ node ∈ root.nodes, node.Cuttable
  /-- The stages are those of the query. -/
  stages : joined.map (·.stage) = root.fragments
  /-- Each has the assignment that was placed for it. -/
  placed : ∀ planned ∈ joined, planned.stage.place cluster settings = .ok planned.assignment

namespace BuiltFrom

variable {root : PlanTree} {cluster : Cluster} {settings : Settings} {joined : List PlannedStage}

theorem getElem?_eq_some (h : BuiltFrom root cluster settings joined) {id : StageId}
    {planned : PlannedStage} : (StageGraph.ofJoined joined).stages[id]? = some planned ↔
      planned ∈ joined ∧ planned.stage.id = id :=
  h.fits.getElem?_ofJoined h.stages

theorem stage_mem (h : BuiltFrom root cluster settings joined) {planned : PlannedStage}
    (hplanned : planned ∈ joined) : planned.stage ∈ root.fragments :=
  h.stages ▸ List.mem_map_of_mem hplanned

theorem exists_planned (h : BuiltFrom root cluster settings joined) {stage : Stage}
    (hstage : stage ∈ root.fragments) : ∃ planned : PlannedStage,
      (StageGraph.ofJoined joined).stages[stage.id]? = some planned ∧ planned.stage = stage :=
  h.fits.exists_planned h.stages hstage

/-- **The walk over the query meets the nodes of the graph**, and no others. -/
theorem held_perm (h : BuiltFrom root cluster settings joined) :
    ((PlanTree.held rootStageId 1 0 root.collected).map (·.2)).Perm
      (StageGraph.ofJoined joined).nodes := by
  rw [h.fits.nodes_ofJoined h.stages]
  exact (PlanTree.held_collected_perm root).map _

/-- There are enough ids for the nodes, if no two of them have the same id. -/
theorem idCount_le (h : BuiltFrom root cluster settings joined)
    (hwf : (StageGraph.ofJoined joined).WellFormed) :
    PlanTree.idCount root.collected.nodes ≤ 2 ^ 32 := by
  have hids := (h.held_perm.map (·.id)).nodup_iff.mpr hwf.distinct
  have hle := Id.length_le_of_nodup hids
  rwa [List.map_map, Function.comp_def, PlanTree.map_id_held.1, List.length_map,
    List.length_range'] at hle

/-- **No stage lies below itself**: a receive names a stage with a higher number than its
holder. -/
theorem acyclic (h : BuiltFrom root cluster settings joined) :
    (StageGraph.ofJoined joined).Acyclic := by
  have hstep (receiver sender : StageId)
      (hreceives : (StageGraph.ofJoined joined).ReceivesFrom receiver sender) :
      receiver.number.toNat < sender.number.toNat := by
    obtain ⟨planned, hplanned, node, hnode, receive, hreceive, rfl⟩ := hreceives
    obtain ⟨hmem, rfl⟩ := h.getElem?_eq_some.mp hplanned
    have hentry := (PlanTree.held_collected_perm root).mem_iff.mpr
      (PlanTree.mem_nodesOfStages (h.stage_mem hmem) hnode)
    obtain ⟨i, j, hi, hj, hij, hlt⟩ := PlanTree.held_ascends.1 _ _ _ _
      (PlanTree.cuttable_collected h.cuttable) 0 rfl Nat.zero_lt_one _ hentry receive hreceive
    have hfits := h.fits
    rw [PlanTree.FitsStages] at hfits
    rw [PlanTree.exchangeCount_collected] at hlt
    dsimp only at hi
    rw [hi, hj, Id.toNat_ofNat (by omega), Id.toNat_ofNat (by omega)]
    exact hij
  intro stage hcycle
  suffices ∀ other, Relation.TransGen (StageGraph.ofJoined joined).ReceivesFrom stage other →
      stage.number.toNat < other.number.toNat from absurd (this stage hcycle) (Nat.lt_irrefl _)
  intro other hbelow
  induction hbelow with
  | single hlast => exact hstep _ _ hlast
  | tail _ hlast ih => exact Nat.lt_trans ih (hstep _ _ hlast)

end BuiltFrom

/-- **What comes out of planning** is the graph of the stages of the query. -/
theorem Planner.exists_built {planner : Planner} {root : PlanTree} {cluster : Cluster}
    {plan : DispatchPlan} (h : planner.plan root cluster = .ok plan) :
    ∃ joined, BuiltFrom root cluster planner.settings joined ∧
      plan.toStageGraph = .ofJoined joined ∧ plan.WellFormed := by
  obtain ⟨stages, hcut, assignments, hplaced, wiring, hwiring, hassemble⟩ := plan_eq_ok.mp h
  obtain ⟨hdistinct, -, -, joined, hjoined, hgraph⟩ := DispatchPlan.assemble_eq_ok.mp hassemble
  have hgraph := DispatchPlan.ofGraph_eq_ok.mp hgraph
  have hdistinct' : (joined.map (·.stage.id)).Nodup := by rwa [hjoined.map_id]
  have hmem (id : StageId) : id ∈ stages.map (·.id) → id ∈ plan.stages := by
    intro hid
    rw [← hjoined.map_id] at hid
    obtain ⟨planned, hplanned, rfl⟩ := List.mem_map.mp hid
    rw [hgraph]
    exact mem_iff_exists_entry.mpr
      ⟨planned, (StageGraph.getElem?_ofJoined hdistinct').mpr ⟨hplanned, rfl⟩⟩
  have harrival : root.arrival.id ∈ plan.stages :=
    hmem _ (exists_recorded hcut List.mem_cons_self)
  obtain ⟨planned, hplanned⟩ := mem_iff_exists_entry.mp harrival
  have hwf := plan.wellFormed_of_stage hplanned
  -- if the ids of stages ran out, each of them would be that of a stage
  have hfits : root.FitsStages := by
    by_contra hmany
    rw [PlanTree.FitsStages, Nat.not_le] at hmany
    obtain ⟨id, hid⟩ := hwf.exists_not_mem
    have hlisted : id ∈ root.fragments.map (·.id) := by
      rw [PlanTree.map_id_fragments]
      refine List.mem_map.mpr ⟨id.number.toNat, List.mem_range'_1.mpr ?_, Id.ofNat_toNat id⟩
      have := id.number.toNat_lt
      omega
    obtain ⟨stage, hstage, rfl⟩ := List.mem_map.mp hlisted
    exact hid (hmem _ (exists_recorded hcut hstage))
  obtain ⟨hcuttable, rfl⟩ := hfits.toStages_eq_ok.mp hcut
  have hplace (planned : PlannedStage) (hplanned : planned ∈ joined) :
      planned.stage.place cluster planner.settings = .ok planned.assignment := by
    obtain ⟨stage, hstage, hid, hplace⟩ := (getElem?_placeWorkers planner.checked hplaced
      hdistinct).mp (hjoined.assignments planned hplanned)
    rwa [List.inj_on_of_nodup_map hdistinct hstage (hjoined.stage_mem hplanned) hid] at hplace
  exact ⟨joined, ⟨hfits, hcuttable, hjoined.stages, hplace⟩, hgraph, hwf⟩

/-- Each stage of a plan that was made has the assignment that was placed for it. -/
theorem Planner.place_of_plan {planner : Planner} {root : PlanTree} {cluster : Cluster}
    {plan : DispatchPlan} (h : planner.plan root cluster = .ok plan) {id : StageId}
    {planned : PlannedStage} (hplanned : plan.stages[id]? = some planned) :
    planned.stage.place cluster planner.settings = .ok planned.assignment := by
  obtain ⟨joined, hbuilt, hgraph, -⟩ := exists_built h
  rw [hgraph, hbuilt.getElem?_eq_some] at hplanned
  exact hbuilt.placed planned hplanned.1

end StagedQuery
