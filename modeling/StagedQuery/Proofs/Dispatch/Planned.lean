import StagedQuery.Proofs.Assignment.Placement
import StagedQuery.Proofs.Dispatch.Joining
import StagedQuery.Proofs.Dispatch.WellFormed
import StagedQuery.Proofs.Mailbox.Wiring
import StagedQuery.Proofs.Stage.Layout

/-!
# What planning builds is accepted

The check of a graph looks for some twenty faults, and the steps of planning leave none
of them (`StagedQuery.Planned.wellFormed`). Each of them comes down to one of the steps:

* what the check asks of nodes, sends and receives is what cutting makes sure of
  (`StagedQuery.PlanTree.fragments_sound`, `StagedQuery.PlanTree.opened_sound`), and the
  ids of nodes are distinct because they are handed out by counting;
* what it asks of the workers of a stage is that they are numbered, so that none is listed
  twice and each is described on the server that hosts it;
* what it asks of mailboxes is what the workers know once all borders are wired, and the
  receivers of a send have workers and so mailboxes;
* every stage but the first was cut for another one, which receives from it, and going up
  from stage to stage leads to the first.
-/

namespace StagedQuery

/-! ### The graph of the stages of a query -/

namespace PlanTree.FitsStages

variable {root : PlanTree} {joined : List PlannedStage}

theorem ascending (fits : root.FitsStages) (hstages : joined.map (·.stage) = root.fragments) :
    joined.Pairwise fun a b => compare a.stage.id b.stage.id = .lt := by
  have hfragments := fits.pairwise
  rw [← hstages, List.pairwise_map] at hfragments
  exact hfragments

/-- A stage of the graph is found under its id. -/
theorem getElem?_ofJoined (fits : root.FitsStages)
    (hstages : joined.map (·.stage) = root.fragments) {id : StageId} {planned : PlannedStage} :
    (StageGraph.ofJoined joined).stages[id]? = some planned ↔
      planned ∈ joined ∧ planned.stage.id = id :=
  StageGraph.getElem?_ofJoined
    (List.pairwise_map.mpr ((fits.ascending hstages).imp ne_of_compare_lt))

/-- A stage of the query is in the graph. -/
theorem exists_planned (fits : root.FitsStages) (hstages : joined.map (·.stage) = root.fragments)
    {stage : Stage} (hstage : stage ∈ root.fragments) : ∃ planned : PlannedStage,
      (StageGraph.ofJoined joined).stages[stage.id]? = some planned ∧ planned.stage = stage := by
  rw [← hstages] at hstage
  obtain ⟨planned, hplanned, rfl⟩ := List.mem_map.mp hstage
  exact ⟨planned, (fits.getElem?_ofJoined hstages).mpr ⟨hplanned, rfl⟩, rfl⟩

/-- The stages of the graph in the order of their ids are those of the query. -/
theorem stageList_ofJoined (fits : root.FitsStages)
    (hstages : joined.map (·.stage) = root.fragments) :
    (StageGraph.ofJoined joined).stageList = joined := by
  rw [StageGraph.stageList, StageGraph.toList_ofJoined (fits.ascending hstages), List.map_map]
  exact List.map_id _

/-- The nodes of the graph are those of the stages of the query. -/
theorem nodes_ofJoined (fits : root.FitsStages)
    (hstages : joined.map (·.stage) = root.fragments) :
    (StageGraph.ofJoined joined).nodes = (nodesOfStages root.fragments).map (·.2) := by
  rw [StageGraph.nodes, fits.stageList_ofJoined hstages, ← hstages, nodesOfStages,
    List.map_flatMap, List.flatMap_map]
  refine List.flatMap_congr fun planned _ => ?_
  rw [List.map_map]
  exact (List.map_id _).symm

end PlanTree.FitsStages

/-! ### What planning builds -/

/-- **What the steps of planning a query yield**: its stages with the workers placed for
them and with what these know. -/
structure Planned (root : PlanTree) (assignments : StageMap Assignment) (wiring : Wiring)
    (joined : List PlannedStage) : Prop where
  /-- The ids do not run out. -/
  fits : root.FitsIds
  /-- The query can be cut. -/
  cuttable : ∀ node ∈ root.nodes, node.Cuttable
  /-- Each stage has workers, as they are placed. -/
  placed : ∀ stage ∈ root.fragments, ∀ assignment, assignments[stage.id]? = some assignment →
    stage.Placed assignment
  /-- Their numbers do not run out. -/
  few : ∀ stage ∈ root.fragments, ∀ assignment, assignments[stage.id]? = some assignment →
    assignment.size < 2 ^ 32
  /-- The first stage has one worker. -/
  single : ∀ assignment, assignments[rootStageId]? = some assignment → assignment.size = 1
  /-- The borders are wired. -/
  wired : Wiring.Wired assignments (root.fragments.map (·.id)) (borders root.fragments)
    (borders root.fragments) wiring
  /-- The three are joined. -/
  joined : Joined assignments wiring root.fragments joined

theorem Assignment.mailboxes_ne_nil {assignment : Assignment} (h : 0 < assignment.size) :
    assignment.mailboxes ≠ [] := by
  have hlength : assignment.mailboxes.length = assignment.size := by
    rw [mailboxes, Mailbox.sort, (sortBy_perm _ _).length_eq, List.length_map]
    rfl
  exact List.length_pos_iff.mp (by omega)

namespace Planned

variable {root : PlanTree} {assignments : StageMap Assignment} {wiring : Wiring}
  {joined : List PlannedStage}

theorem getElem?_eq_some (h : Planned root assignments wiring joined) {id : StageId}
    {planned : PlannedStage} : (StageGraph.ofJoined joined).stages[id]? = some planned ↔
      planned ∈ joined ∧ planned.stage.id = id :=
  h.fits.stages.getElem?_ofJoined h.joined.stages

theorem exists_stage (h : Planned root assignments wiring joined) {stage : Stage}
    (hstage : stage ∈ root.fragments) : ∃ planned : PlannedStage,
      (StageGraph.ofJoined joined).stages[stage.id]? = some planned ∧ planned.stage = stage :=
  h.fits.stages.exists_planned h.joined.stages hstage

/-- A receive in a stage of the query shows that the stage depends on another. -/
theorem receivesFrom (h : Planned root assignments wiring joined) {stage : Stage}
    (hstage : stage ∈ root.fragments) {node : PlanTree} (hnode : node ∈ stage.root.nodes)
    {receive : Receive} (hreceive : node.operator = .receive receive) :
    (StageGraph.ofJoined joined).ReceivesFrom stage.id receive.sender := by
  obtain ⟨planned, hplanned, rfl⟩ := h.exists_stage hstage
  exact ⟨planned, hplanned, node, hnode, receive, hreceive, rfl⟩

/-- Where a stage of the query sends to, the graph has it so. -/
theorem sendsTo (h : Planned root assignments wiring joined) {holder : StageId}
    {receive : Receive} (hfed : Fed root.fragments holder receive) :
    (StageGraph.ofJoined joined).SendsTo receive.sender holder := by
  obtain ⟨stage, hstage, hid, keys, hsend⟩ := hfed
  obtain ⟨planned, hplanned, rfl⟩ := h.exists_stage hstage
  exact ⟨planned, hid ▸ hplanned, _, hsend, List.mem_singleton_self _⟩

/-- **What is known of a worker is right.** -/
theorem workerSound (h : Planned root assignments wiring joined) {planned : PlannedStage}
    (hplanned : planned ∈ joined) {worker : WorkerId} {links : WorkerLinks}
    (hlinks : planned.workers[worker]? = some links) : planned.WorkerSound worker links := by
  have hstage := h.joined.stage_mem hplanned
  have hassigned := h.joined.assignments planned hplanned
  obtain ⟨assignment, hassignment, -, hknows⟩ :=
    h.wired.workers planned.stage.id planned.workers (h.joined.workers planned hplanned)
  rw [hassigned] at hassignment
  cases hassignment
  have hlinks := hknows worker links hlinks
  have hnumbered := (h.placed _ hstage _ hassigned).numbered
  have hnodup := hnumbered.nodup (Nat.le_of_lt (h.few _ hstage _ hassigned))
  refine ⟨hlinks.labelled, Assignment.firstHost_of_mem hnodup hlinks.placed,
    fun receiver hreceiver => ?_⟩
  -- the receiver is the stage that this one was cut for, and has workers of its own
  have hborder : (planned.stage.id, receiver) ∈ borders root.fragments :=
    mem_borders.mpr ⟨planned.stage, hstage, rfl, hreceiver⟩
  obtain ⟨other, hother, rfl⟩ := List.mem_map.mp
    (PlanTree.receivers_mem_fragments h.cuttable _ hstage receiver hreceiver)
  obtain ⟨consumers, hconsumers, rfl⟩ := h.joined.exists_planned hother
  have hassigned' := h.joined.assignments consumers hconsumers
  refine ⟨consumers.assignment.mailboxes, ?_, ?_, ?_⟩
  · rw [hlinks.sends, if_pos hborder, hassigned']
    rfl
  · exact Assignment.mailboxes_ne_nil (h.placed _ hother _ hassigned').busy
  · exact pairwise_sortBy _

/-- **Every stage of the graph is sound.** -/
theorem stageSound (h : Planned root assignments wiring joined) {planned : PlannedStage}
    (hplanned : planned ∈ joined) :
    (StageGraph.ofJoined joined).StageSound planned.stage.id planned := by
  have hstage := h.joined.stage_mem hplanned
  have hassigned := h.joined.assignments planned hplanned
  have hplaced := h.placed _ hstage _ hassigned
  obtain ⟨assignment, hassignment, hdescribed, -⟩ :=
    h.wired.workers planned.stage.id planned.workers (h.joined.workers planned hplanned)
  rw [hassigned] at hassignment
  cases hassignment
  refine ⟨rfl, hplaced.own, ?_, fun node hnode => ?_, ?_, fun send hsend => ?_, hdescribed,
    fun worker links => h.workerSound hplanned⟩
  · have hbusy := hplaced.busy
    rw [Assignment.size_eq] at hbusy
    exact List.length_pos_iff.mp hbusy
  · have hsound := PlanTree.fragments_sound h.cuttable planned.stage hstage node hnode
    exact ⟨PlanTree.stage_of_fragments planned.stage hstage node hnode, hsound.arity, hsound.cut,
      fun receive hreceive => ⟨PlanTree.sender_ne_of_fragments h.fits h.cuttable planned.stage
        hstage node hnode receive hreceive, h.sendsTo (hsound.fed receive hreceive)⟩⟩
  · intro input hinput node hnode send
    -- the first stage is a single receive; any other was cut off below a send
    rcases PlanTree.mem_fragments.mp hstage with harrival | hopened
    · rw [harrival, PlanTree.root_arrival] at hinput
      exact nomatch hinput
    · exact (PlanTree.openedSound_of_mem h.cuttable hopened).unburied node
        (List.mem_flatMap.mpr ⟨input, hinput, hnode⟩) send
  · obtain ⟨holder, hholder, hreceivers, node, hnode, distribution, hreceive⟩ :=
      PlanTree.send_of_fragments h.cuttable hstage hsend
    have hreceives := h.receivesFrom hholder hnode hreceive
    rw [hreceivers]
    exact ⟨List.cons_ne_nil _ _, List.pairwise_singleton _ _,
      fun receiver hreceiver => List.mem_singleton.mp hreceiver ▸ hreceives⟩

/-- No two nodes of the graph share an id. -/
theorem distinct_nodes (h : Planned root assignments wiring joined) :
    ((StageGraph.ofJoined joined).nodes.map (·.id)).Nodup := by
  rw [h.fits.stages.nodes_ofJoined h.joined.stages, List.map_map]
  exact PlanTree.nodup_id_nodesOfStages h.fits

/-- **The root depends on every stage**: each was cut for a stage that receives from it. -/
theorem needed (h : Planned root assignments wiring joined) {stage : Stage}
    (hstage : stage ∈ root.fragments) : (StageGraph.ofJoined joined).Needed stage.id := by
  rcases PlanTree.mem_fragments.mp hstage with rfl | hopened
  · exact .refl
  · refine PlanTree.opened_reached.1 _ _ _ _ (fun entry hentry receive hreceive => ?_) stage hopened
    obtain ⟨holder, hholder, hmem⟩ := List.mem_flatMap.mp
      ((PlanTree.held_collected_perm root).mem_iff.mp hentry)
    obtain ⟨node, hnode, rfl⟩ := List.mem_map.mp hmem
    exact h.receivesFrom hholder hnode hreceive

/-- **What planning builds is well-formed.** -/
theorem wellFormed (h : Planned root assignments wiring joined) :
    (StageGraph.ofJoined joined).WellFormed := by
  refine ⟨?_, fun id planned hplanned => ?_, h.distinct_nodes, fun id hid => ?_⟩
  · have harrival : root.arrival ∈ root.fragments := List.mem_cons_self
    obtain ⟨planned, hplanned, -⟩ := h.exists_stage harrival
    obtain ⟨hmem, hid⟩ := h.getElem?_eq_some.mp hplanned
    have hassigned := h.joined.assignments planned hmem
    rw [hid] at hassigned
    exact ⟨planned, hplanned, h.single _ hassigned⟩
  · obtain ⟨hmem, rfl⟩ := h.getElem?_eq_some.mp hplanned
    exact h.stageSound hmem
  · obtain ⟨planned, hplanned⟩ := mem_iff_exists_entry.mp hid
    obtain ⟨hmem, rfl⟩ := h.getElem?_eq_some.mp hplanned
    exact h.needed (h.joined.stage_mem hmem)

end Planned

end StagedQuery
