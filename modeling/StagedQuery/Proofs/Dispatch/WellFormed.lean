import StagedQuery.Dispatch.Plan
import StagedQuery.Proofs.Assignment.Reading
import StagedQuery.Proofs.Dispatch.Reachability
import StagedQuery.Proofs.Ids
import StagedQuery.Proofs.Noting
import StagedQuery.Proofs.Sorting

/-!
# The graphs that are accepted

`StagedQuery.StageGraph.check` walks a graph stage by stage and node by node and
stops at the first fault. `StagedQuery.StageGraph.WellFormed` says what a graph has
to be like, without an order: what holds of every node
(`StagedQuery.StageGraph.NodeSound`), of every worker
(`StagedQuery.PlannedStage.WorkerSound`), of every stage
(`StagedQuery.StageGraph.StageSound`), and of the graph as a whole. The check accepts
exactly the well-formed graphs and the graph without stages
(`StagedQuery.StageGraph.check_eq_ok_iff`).

The check asks about a node once, when the walk meets it, and notes its id in a set
that the walk carries through all stages. What is asked of a node does not depend on
the set, so the walk splits into one condition for each node and the condition that
no id is met twice (`StagedQuery.foldlM_noting`).

**The walk does not go below a receive.** That hides nothing: a receive takes no
inputs, so a receive with inputs is refused at the receive itself
(`StagedQuery.PlanTree.inputs_eq_nil`).
-/

namespace StagedQuery

namespace PlannedStage

/-- **What is known of one worker is right.** -/
structure WorkerSound (planned : PlannedStage) (worker : WorkerId) (links : WorkerLinks) :
    Prop where
  /-- It is described under its own id. -/
  labelled : links.worker = worker
  /-- It runs on the first server that is assigned to it. -/
  placed : planned.assignment.FirstHost worker links.server
  /-- It knows where to send rows, for each stage that its stage sends to. -/
  sends : ∀ receiver ∈ planned.stage.receivers, ∃ mailboxes,
    links.sends[receiver]? = some mailboxes ∧ mailboxes ≠ [] ∧
      mailboxes.Pairwise fun a b => (compare a b).isLE = true

end PlannedStage

namespace StageGraph

/-! ### Well-formed graphs -/

/-- The stage `sender` has a send at its root that lists the stage `receiver`. -/
def SendsTo (graph : StageGraph) (sender receiver : StageId) : Prop :=
  ∃ planned, graph.stages[sender]? = some planned ∧
    ∃ send, planned.stage.root.operator = .send send ∧ receiver ∈ send.receivers

/-- **What holds of a node** in the stage `holder`, wherever in the stage it is. -/
structure NodeSound (graph : StageGraph) (holder : StageId) (node : PlanTree) : Prop where
  /-- It belongs to the stage. -/
  held : node.stage = holder
  /-- It has as many inputs as its operator takes. -/
  arity : node.operator.arity.admits node.inputs.length = true
  /-- It is not an exchange. -/
  cut : ∀ distribution keys, node.operator ≠ .exchange distribution keys
  /-- If it is a receive, then it names another stage, which sends to this one. -/
  fed : ∀ receive, node.operator = .receive receive →
    receive.sender ≠ holder ∧ graph.SendsTo receive.sender holder

/-- **What holds of the receivers of a send** at the root of the stage `holder`. -/
structure ReceiversSound (graph : StageGraph) (holder : StageId) (receivers : List StageId) :
    Prop where
  /-- There is one. -/
  nonempty : receivers ≠ []
  /-- They do not descend. -/
  ascending : receivers.Pairwise fun a b => a.number ≤ b.number
  /-- Each of them receives from the stage. -/
  received : ∀ receiver ∈ receivers, graph.ReceivesFrom receiver holder

/-- **What holds of a stage** that is filed under `id`. -/
structure StageSound (graph : StageGraph) (id : StageId) (planned : PlannedStage) : Prop where
  /-- It is filed under its own id. -/
  filed : planned.stage.id = id
  /-- It carries its own assignment. -/
  assigned : planned.assignment.stage = id
  /-- It has a worker. -/
  busy : planned.assignment.workers ≠ []
  /-- Its nodes are sound. -/
  nodes : ∀ node ∈ planned.stage.root.nodes, graph.NodeSound id node
  /-- No send lies below its root. -/
  unburied : ∀ input ∈ planned.stage.root.inputs, ∀ node ∈ input.nodes, ∀ send,
    node.operator ≠ .send send
  /-- If its root is a send, then the receivers of the send are sound. -/
  receivers : ∀ send, planned.stage.root.operator = .send send →
    graph.ReceiversSound id send.receivers
  /-- The workers described are the workers assigned. -/
  described : ∀ worker, worker ∈ planned.assignment.workers ↔ worker ∈ planned.workers
  /-- What is known of each worker is right. -/
  workers : ∀ worker links, planned.workers[worker]? = some links →
    planned.WorkerSound worker links

/-- The nodes of all stages, stage by stage. -/
def nodes (graph : StageGraph) : List PlanTree :=
  graph.stageList.flatMap (·.stage.root.nodes)

/-- **The graphs that can be run.** -/
structure WellFormed (graph : StageGraph) : Prop where
  /-- The root stage is there and has one worker. -/
  root : ∃ planned, graph.stages[graph.root]? = some planned ∧ planned.assignment.size = 1
  /-- Every stage is sound. -/
  stages : ∀ id planned, graph.stages[id]? = some planned → graph.StageSound id planned
  /-- No two nodes of the graph share an id. -/
  distinct : (graph.nodes.map (·.id)).Nodup
  /-- The root depends on every stage. -/
  needed : ∀ id ∈ graph.stages, graph.Needed id

variable {graph : StageGraph} {holder : StageId}

theorem isEmpty_eq_true : graph.isEmpty = true ↔ graph.stages = ∅ := Std.ExtTreeMap.isEmpty_iff

/-- A stage that a map holds shows that the map is not empty. -/
theorem stages_ne_empty {id : StageId} {planned : PlannedStage}
    (h : graph.stages[id]? = some planned) : graph.stages ≠ ∅ := by
  intro hempty
  rw [hempty, Std.ExtTreeMap.getElem?_empty] at h
  exact nomatch h

/-- The root of a stage belongs to the stage. -/
theorem WellFormed.root_held (h : graph.WellFormed) {id : StageId} {planned : PlannedStage}
    (hplanned : graph.stages[id]? = some planned) : planned.stage.root.stage = id :=
  ((h.stages id planned hplanned).nodes _ planned.stage.root.self_mem_nodes).held

/-! ### Nodes -/

theorem checkNode_eq_ok {seen seen' : SeenNodes} {node : PlanTree} :
    checkNode holder seen node = .ok seen' ↔
      (node.stage = holder ∧ node.operator.arity.admits node.inputs.length = true) ∧
        Fresh seen [node.id] ∧ seen' = noteAll seen [node.id] := by
  rw [checkNode, ite_error_eq_ok, ite_error_eq_ok, not_not,
    fresh_singleton, noteAll_cons, noteAll_nil, ← PlanTree.checkInputCount_eq_ok]
  cases node.checkInputCount with
  | ok =>
    exact ⟨fun ⟨hstage, hnew, h⟩ => ⟨⟨hstage, rfl⟩, hnew, (Except.ok.inj h).symm⟩,
      fun ⟨⟨hstage, _⟩, hnew, h⟩ => ⟨hstage, hnew, h ▸ rfl⟩⟩
  | error fault =>
    exact ⟨fun ⟨_, _, h⟩ => (nomatch h), fun ⟨⟨_, h⟩, _⟩ => (nomatch h)⟩

theorem checkReceiver_eq_ok {sender receiver : StageId} :
    graph.checkReceiver sender receiver = .ok () ↔ graph.ReceivesFrom receiver sender := by
  rw [checkReceiver, bind_eq_ok]
  constructor
  · rintro ⟨planned, hplanned, h⟩
    rw [stage_eq_ok] at hplanned
    split_ifs at h with hsender
    exact (receivesFrom_iff hplanned).mpr (List.contains_iff_mem.mp hsender)
  · rintro ⟨planned, hplanned, hnode⟩
    have hsender := (receivesFrom_iff hplanned).mp ⟨planned, hplanned, hnode⟩
    exact ⟨planned, stage_eq_ok.mpr hplanned, if_pos (List.contains_iff_mem.mpr hsender)⟩

theorem checkSend_eq_ok {isRoot : Bool} {id : NodeId} {send : Send} :
    graph.checkSend holder isRoot id send = .ok () ↔
      isRoot = true ∧ graph.ReceiversSound holder send.receivers := by
  rw [checkSend, ite_error_eq_ok, ite_error_eq_ok,
    Bool.not_eq_true', Bool.not_eq_false, Bool.or_eq_true, not_or, List.isEmpty_iff,
    Bool.not_eq_true', Bool.not_eq_false, isSortedBy_iff, forM_eq_ok]
  simp only [id_eq, Id.isLE_compare, checkReceiver_eq_ok]
  exact and_congr_right fun _ => ⟨fun ⟨⟨hne, hle⟩, h⟩ => ⟨hne, hle, h⟩,
    fun ⟨hne, hle, h⟩ => ⟨⟨hne, hle⟩, h⟩⟩

/-- A receive is fed by the root of the stage that it names. -/
theorem feeder_eq_ok {receive : Receive} {root : PlanTree} {send : Send} :
    graph.feeder receive holder = .ok (root, send) ↔
      ∃ planned, graph.stages[receive.sender]? = some planned ∧ planned.stage.root = root ∧
        root.operator = .send send ∧ holder ∈ send.receivers := by
  rw [feeder, bind_eq_ok]
  refine exists_congr fun planned => and_congr stage_eq_ok ?_
  dsimp only
  -- the root of the sending stage is a send, or it is not and there is no feeder
  split
  case h_1 found hfound =>
    split_ifs with hmem
    · rw [List.contains_iff_mem] at hmem
      constructor
      · intro h
        cases h
        exact ⟨rfl, hfound, hmem⟩
      · rintro ⟨rfl, hsend, -⟩
        rw [hfound] at hsend
        cases hsend
        rfl
    · refine iff_of_false nofun ?_
      rintro ⟨rfl, hsend, h⟩
      rw [hfound] at hsend
      cases hsend
      exact hmem (List.contains_iff_mem.mpr h)
  case h_2 hnot =>
    refine iff_of_false nofun ?_
    rintro ⟨rfl, hsend, -⟩
    exact hnot send hsend

theorem checkReceive_eq_ok {id : NodeId} {receive : Receive} :
    graph.checkReceive holder id receive = .ok () ↔
      receive.sender ≠ holder ∧ graph.SendsTo receive.sender holder := by
  rw [checkReceive, ite_error_eq_ok, map_eq_ok]
  refine and_congr_right fun _ => ?_
  constructor
  · rintro ⟨⟨root, send⟩, hfeeder, -⟩
    obtain ⟨planned, hplanned, rfl, hsend, hmem⟩ := feeder_eq_ok.mp hfeeder
    exact ⟨planned, hplanned, send, hsend, hmem⟩
  · rintro ⟨planned, hplanned, send, hsend, hmem⟩
    exact ⟨_, feeder_eq_ok.mpr ⟨planned, hplanned, rfl, hsend, hmem⟩, rfl⟩

/-! ### Trees -/

/-- **What holds of a tree** in the stage `holder`, where `isRoot` tells whether
it is all of the stage. -/
structure TreeSound (graph : StageGraph) (holder : StageId) (isRoot : Bool) (tree : PlanTree) :
    Prop where
  /-- Its nodes are sound. -/
  nodes : ∀ node ∈ tree.nodes, graph.NodeSound holder node
  /-- No send lies below its root. -/
  unburied : ∀ input ∈ tree.inputs, ∀ node ∈ input.nodes, ∀ send, node.operator ≠ .send send
  /-- If its root is a send, then it is all of the stage, and the receivers of the
  send are sound. -/
  receivers : ∀ send, tree.operator = .send send →
    isRoot = true ∧ graph.ReceiversSound holder send.receivers

/-- A tree is sound if its root is and its inputs are. -/
theorem treeSound_iff {isRoot : Bool} {tree : PlanTree} :
    graph.TreeSound holder isRoot tree ↔
      graph.NodeSound holder tree ∧
        (∀ send, tree.operator = .send send →
          isRoot = true ∧ graph.ReceiversSound holder send.receivers) ∧
        ∀ input ∈ tree.inputs, graph.TreeSound holder false input := by
  constructor
  · rintro ⟨hnodes, hburied, hsend⟩
    refine ⟨hnodes tree tree.self_mem_nodes, hsend, fun input hin => ⟨fun node h => ?_,
      fun below hbelow node h => ?_, fun send h => ?_⟩⟩
    · exact hnodes node (PlanTree.mem_nodes_of_input hin h)
    · exact hburied input hin node (PlanTree.mem_nodes_of_input hbelow h)
    · exact absurd h (hburied input hin input input.self_mem_nodes send)
  · rintro ⟨hnode, hsend, hinputs⟩
    refine ⟨PlanTree.forall_mem_nodes.mpr ⟨hnode, fun input hin => (hinputs input hin).nodes⟩,
      fun input hin => PlanTree.forall_mem_nodes.mpr ⟨fun send h => ?_, ?_⟩, hsend⟩
    · exact Bool.false_ne_true ((hinputs input hin).receivers send h).1
    · exact (hinputs input hin).unburied

/-- The ids of the nodes of a tree, in pre-order. -/
abbrev nodeIds (tree : PlanTree) : List NodeId := tree.nodes.map (·.id)

theorem nodeIds_mk (id : NodeId) (stage : StageId) (operator : Operator)
    (inputs : List PlanTree) :
    nodeIds ⟨id, stage, operator, inputs⟩ = [id] ++ inputs.flatMap nodeIds := by
  rw [nodeIds, PlanTree.nodes_mk, List.map_cons, List.map_flatMap]
  rfl

theorem checkTrees_eq (seen : SeenNodes) (inputs : List PlanTree) :
    graph.checkTrees holder seen inputs = inputs.foldlM (graph.checkTree holder false) seen := by
  induction inputs generalizing seen with
  | nil => rfl
  | cons node rest ih =>
    rw [checkTrees, List.foldlM_cons]
    exact bind_congr ih

/-- A node and then its inputs are accepted exactly if the node is sound as far as
it is checked by itself, the inputs are sound, and no id is met twice. -/
theorem checkDown_eq_ok (id : NodeId) (stage : StageId) (operator : Operator)
    {inputs : List PlanTree}
    (ih : ∀ input ∈ inputs, ∀ seen seen', graph.checkTree holder false seen input = .ok seen' ↔
      graph.TreeSound holder false input ∧ Fresh seen (nodeIds input) ∧
        seen' = noteAll seen (nodeIds input)) (seen seen' : SeenNodes) :
    (checkNode holder seen ⟨id, stage, operator, inputs⟩ >>= fun seen =>
        graph.checkTrees holder seen inputs) = .ok seen' ↔
      ((stage = holder ∧ operator.arity.admits inputs.length = true) ∧
          ∀ input ∈ inputs, graph.TreeSound holder false input) ∧
        Fresh seen (nodeIds ⟨id, stage, operator, inputs⟩) ∧
        seen' = noteAll seen (nodeIds ⟨id, stage, operator, inputs⟩) := by
  rw [bind_eq_ok, nodeIds_mk, fresh_append, noteAll_append]
  simp only [checkNode_eq_ok, checkTrees_eq]
  constructor
  · rintro ⟨next, ⟨hnode, hnew, rfl⟩, hinputs⟩
    obtain ⟨hall, hfresh, rfl⟩ := (foldlM_noting ih _ _).mp hinputs
    exact ⟨⟨hnode, hall⟩, ⟨hnew, hfresh⟩, rfl⟩
  · rintro ⟨⟨hnode, hall⟩, ⟨hnew, hfresh⟩, hend⟩
    exact ⟨_, ⟨hnode, hnew, rfl⟩, (foldlM_noting ih _ _).mpr ⟨hall, hfresh, hend⟩⟩

/-- **The walk over a tree** accepts it exactly if it is sound and no id is met
twice. -/
theorem checkTree_eq_ok (tree : PlanTree) : ∀ (isRoot : Bool) (seen seen' : SeenNodes),
    graph.checkTree holder isRoot seen tree = .ok seen' ↔
      graph.TreeSound holder isRoot tree ∧ Fresh seen (nodeIds tree) ∧
        seen' = noteAll seen (nodeIds tree) := by
  induction tree with
  | node id stage operator inputs ih =>
    intro isRoot seen seen'
    have hdown := checkDown_eq_ok id stage operator (fun input hin => ih input hin false) seen seen'
    rw [treeSound_iff]
    cases operator with
    | exchange distribution keys =>
      rw [checkTree]
      exact iff_of_false nofun fun h => h.1.1.cut _ _ rfl
    | receive receive =>
      rw [checkTree, bind_eq_ok]
      constructor
      · rintro ⟨next, hnode, h⟩
        -- a receive takes no inputs, so nothing is passed over below it
        obtain ⟨⟨⟩, hfed, hend⟩ := bind_eq_ok.mp h
        cases hend
        obtain ⟨⟨hstage, harity⟩, hfresh, rfl⟩ := checkNode_eq_ok.mp hnode
        have hnil := PlanTree.inputs_eq_nil harity rfl
        subst hnil
        exact ⟨⟨⟨hstage, harity, nofun, fun _ h => by cases h; exact checkReceive_eq_ok.mp hfed⟩,
          nofun, nofun⟩, hfresh, rfl⟩
      · rintro ⟨⟨⟨hstage, harity, -, hfed⟩, -, -⟩, hfresh, rfl⟩
        have hnil := PlanTree.inputs_eq_nil harity rfl
        subst hnil
        exact ⟨_, checkNode_eq_ok.mpr ⟨⟨hstage, harity⟩, hfresh, rfl⟩,
          bind_eq_ok.mpr ⟨(), checkReceive_eq_ok.mpr (hfed _ rfl), rfl⟩⟩
    | send send =>
      rw [checkTree, bind_eq_ok]
      constructor
      · rintro ⟨⟨⟩, hsend, h⟩
        obtain ⟨⟨⟨hstage, harity⟩, hall⟩, hfresh, hend⟩ := hdown.mp h
        exact ⟨⟨⟨hstage, harity, nofun, nofun⟩,
          fun _ h => by cases h; exact checkSend_eq_ok.mp hsend, hall⟩, hfresh, hend⟩
      · rintro ⟨⟨⟨hstage, harity, -, -⟩, hsend, hall⟩, hfresh, hend⟩
        exact ⟨(), checkSend_eq_ok.mpr (hsend _ rfl),
          hdown.mpr ⟨⟨⟨hstage, harity⟩, hall⟩, hfresh, hend⟩⟩
    | _ =>
      rw [checkTree, hdown]
      · constructor
        · rintro ⟨⟨⟨hstage, harity⟩, hall⟩, hfresh, hend⟩
          exact ⟨⟨⟨hstage, harity, nofun, nofun⟩, nofun, hall⟩, hfresh, hend⟩
        · rintro ⟨⟨⟨hstage, harity, -, -⟩, -, hall⟩, hfresh, hend⟩
          exact ⟨⟨⟨hstage, harity⟩, hall⟩, hfresh, hend⟩
      all_goals nofun

/-! ### Workers -/

theorem linksOf_eq_ok {planned : PlannedStage} {worker : WorkerId} {links : WorkerLinks} :
    planned.linksOf worker = .ok links ↔ planned.workers[worker]? = some links := by
  rw [PlannedStage.linksOf]
  cases planned.workers[worker]? with
  | some found => simp
  | none => simp [structuralError]

theorem targetsFor_eq_ok {planned : PlannedStage} {worker : WorkerId} {links : WorkerLinks}
    {receiver : StageId} {mailboxes : List Mailbox} (h : planned.workers[worker]? = some links) :
    planned.targetsFor worker receiver = .ok mailboxes ↔
      links.sends[receiver]? = some mailboxes := by
  rw [PlannedStage.targetsFor, linksOf_eq_ok.mpr h]
  cases hsends : links.sends[receiver]? with
  | some found => simp [bind, Except.bind, hsends]
  | none => simp [bind, Except.bind, hsends, structuralError]

theorem checkWorker_eq_ok {planned : PlannedStage} {worker : WorkerId} {links : WorkerLinks}
    (h : planned.workers[worker]? = some links) :
    checkWorker planned worker links = .ok () ↔ planned.WorkerSound worker links := by
  have htargets (receiver : StageId) :
      (planned.targetsFor worker receiver >>= fun mailboxes =>
        if mailboxes.isEmpty || !Mailbox.isSorted mailboxes then
          structuralError (.unorderedMailboxes planned.stage.id worker receiver)
        else .ok ()) = .ok () ↔
      ∃ mailboxes, links.sends[receiver]? = some mailboxes ∧ mailboxes ≠ [] ∧
        mailboxes.Pairwise fun a b => (compare a b).isLE = true := by
    rw [bind_eq_ok]
    refine exists_congr fun mailboxes => and_congr (targetsFor_eq_ok h) ?_
    rw [ite_error_eq_ok, Bool.or_eq_true, not_or, List.isEmpty_iff,
      Bool.not_eq_true', Bool.not_eq_false, Mailbox.isSorted, isSortedBy_iff]
    exact and_iff_left rfl
  rw [checkWorker]
  rw [ite_error_eq_ok, ite_error_eq_ok, not_not, not_not, Assignment.host?_eq_some, forM_eq_ok]
  simp only [htargets]
  exact ⟨fun ⟨hlabel, hplace, hsends⟩ => ⟨hlabel, hplace, hsends⟩,
    fun ⟨hlabel, hplace, hsends⟩ => ⟨hlabel, hplace, hsends⟩⟩

/-- The workers that are described and those that are assigned are the same, and
what is known of each is right. -/
theorem checkWorkers_eq_ok {planned : PlannedStage} :
    checkWorkers planned = .ok () ↔
      (∀ worker, worker ∈ planned.assignment.workers ↔ worker ∈ planned.workers) ∧
        ∀ worker links, planned.workers[worker]? = some links →
          planned.WorkerSound worker links := by
  have hsets : noteAll ∅ planned.assignment.workers = noteAll ∅ planned.workers.keys ↔
      ∀ worker, worker ∈ planned.assignment.workers ↔ worker ∈ planned.workers :=
    noteAll_empty_inj.trans (forall_congr' fun worker => by rw [Std.ExtTreeMap.mem_keys])
  have hlinks : (planned.workers.toList.forM fun entry =>
        checkWorker planned entry.1 entry.2) = .ok () ↔
      ∀ worker links, planned.workers[worker]? = some links →
        planned.WorkerSound worker links := by
    rw [forM_eq_ok]
    constructor
    · intro h worker links hlinks
      exact (checkWorker_eq_ok hlinks).mp
        (h (worker, links) (Std.ExtTreeMap.mem_toList_iff_getElem?_eq_some.mpr hlinks))
    · rintro h ⟨worker, links⟩ hmem
      have hlinks := Std.ExtTreeMap.mem_toList_iff_getElem?_eq_some.mp hmem
      exact (checkWorker_eq_ok hlinks).mpr (h worker links hlinks)
  rw [← hsets, ← hlinks]
  exact ite_error_eq_ok.trans (and_congr_left' not_not)

/-! ### Stages and graphs -/

theorem checkStage_eq_ok {id : StageId} {planned : PlannedStage} {seen seen' : SeenNodes} :
    graph.checkStage seen id planned = .ok seen' ↔
      graph.StageSound id planned ∧ Fresh seen (nodeIds planned.stage.root) ∧
        seen' = noteAll seen (nodeIds planned.stage.root) := by
  rw [checkStage]
  rw [ite_error_eq_ok, ite_error_eq_ok, ite_error_eq_ok, not_not, not_not, bind_eq_ok,
    Assignment.isEmpty_eq_true]
  constructor
  · rintro ⟨hfiled, hassigned, hbusy, next, htree, h⟩
    obtain ⟨⟨⟩, hworkers, hend⟩ := bind_eq_ok.mp h
    cases hend
    obtain ⟨hsound, hfresh, hseen⟩ := (checkTree_eq_ok _ _ _ _).mp htree
    obtain ⟨hdescribed, hlinks⟩ := checkWorkers_eq_ok.mp hworkers
    exact ⟨⟨hfiled, hassigned, hbusy, hsound.nodes, hsound.unburied,
      fun send h => (hsound.receivers send h).2, hdescribed, hlinks⟩, hfresh, hseen⟩
  · rintro ⟨hsound, hfresh, hseen⟩
    exact ⟨hsound.filed, hsound.assigned, hsound.busy, _,
      (checkTree_eq_ok _ _ _ _).mpr ⟨⟨hsound.nodes, hsound.unburied,
        fun send h => ⟨rfl, hsound.receivers send h⟩⟩, hfresh, rfl⟩,
      bind_eq_ok.mpr ⟨(), checkWorkers_eq_ok.mpr ⟨hsound.described, hsound.workers⟩,
        hseen ▸ rfl⟩⟩

theorem checkRoot_eq_ok :
    graph.checkRoot = .ok () ↔
      ∃ planned, graph.stages[graph.root]? = some planned ∧ planned.assignment.size = 1 := by
  rw [checkRoot, bind_eq_ok]
  refine exists_congr fun planned => and_congr stage_eq_ok ?_
  refine ite_error_eq_ok.trans ?_
  rw [not_not]
  exact and_iff_left rfl

/-- In a graph whose root is there and whose stages are sound, a stage that the root
depends on is there. -/
theorem there_of_sound (hroot : graph.root ∈ graph.stages)
    (hstages : ∀ id planned, graph.stages[id]? = some planned → graph.StageSound id planned) :
    ∀ id, graph.Needed id → id ∈ graph.stages := by
  refine gapless_iff.mp ⟨hroot, fun receiver sender _ hreceives => ?_⟩
  obtain ⟨planned, hplanned, node, hnode, receive, hoperator, rfl⟩ := hreceives
  obtain ⟨feeder, hfeeder, -⟩ := ((hstages _ _ hplanned).nodes node hnode |>.fed _ hoperator).2
  exact mem_iff_exists_entry.mpr ⟨feeder, hfeeder⟩

/-- The stages in the order of their ids, each with its id, hold the same entries as
the map. -/
theorem forall_mem_stages {P : StageId → PlannedStage → Prop} :
    (∀ entry ∈ graph.stages.toList, P entry.1 entry.2) ↔
      ∀ id planned, graph.stages[id]? = some planned → P id planned := by
  constructor
  · intro h id planned hplanned
    exact h (id, planned) (Std.ExtTreeMap.mem_toList_iff_getElem?_eq_some.mpr hplanned)
  · rintro h ⟨id, planned⟩ hmem
    exact h id planned (Std.ExtTreeMap.mem_toList_iff_getElem?_eq_some.mp hmem)

theorem map_id_nodes (graph : StageGraph) :
    graph.nodes.map (·.id) =
      graph.stages.toList.flatMap fun entry => nodeIds entry.2.stage.root := by
  rw [nodes, stageList, List.flatMap_map, List.map_flatMap]

/-- **The check accepts exactly the well-formed graphs**, and the graph without
stages. -/
theorem check_eq_ok_iff : graph.check = .ok () ↔ graph.stages = ∅ ∨ graph.WellFormed := by
  rw [check]
  split_ifs with hempty
  · exact iff_of_true rfl (.inl (isEmpty_eq_true.mp hempty))
  rw [or_iff_right fun h => hempty (isEmpty_eq_true.mpr h), bind_eq_ok]
  -- the walk comes apart into one condition for each stage and one for all ids together
  have hwalk (seen : SeenNodes) :
      graph.stages.toList.foldlM (fun seen entry => graph.checkStage seen entry.1 entry.2) ∅ =
          .ok seen ↔
        (∀ entry ∈ graph.stages.toList, graph.StageSound entry.1 entry.2) ∧
          Fresh ∅ (graph.stages.toList.flatMap fun entry => nodeIds entry.2.stage.root) ∧
          seen = noteAll ∅
            (graph.stages.toList.flatMap fun entry => nodeIds entry.2.stage.root) := by
    refine foldlM_noting ?_ ∅ seen
    exact fun entry _ seen seen' => checkStage_eq_ok
  constructor
  · rintro ⟨⟨⟩, hroot, h⟩
    obtain ⟨seen, hseen, hreach⟩ := bind_eq_ok.mp h
    obtain ⟨hall, hfresh, -⟩ := (hwalk seen).mp hseen
    have hstages := forall_mem_stages.mp hall
    obtain ⟨planned, hplanned, hsize⟩ := checkRoot_eq_ok.mp hroot
    have hthere := there_of_sound (mem_iff_exists_entry.mpr ⟨planned, hplanned⟩) hstages
    exact ⟨⟨planned, hplanned, hsize⟩, hstages, map_id_nodes graph ▸ fresh_empty.mp hfresh,
      (checkReachability_eq_ok hthere).mp hreach⟩
  · rintro ⟨⟨planned, hplanned, hsize⟩, hstages, hdistinct, hneeded⟩
    have hthere := there_of_sound (mem_iff_exists_entry.mpr ⟨planned, hplanned⟩) hstages
    refine ⟨(), checkRoot_eq_ok.mpr ⟨planned, hplanned, hsize⟩, bind_eq_ok.mpr ⟨_, (hwalk _).mpr
      ⟨forall_mem_stages.mpr hstages, ?_, rfl⟩, (checkReachability_eq_ok hthere).mpr hneeded⟩⟩
    exact fresh_empty.mpr (map_id_nodes graph ▸ hdistinct)

end StageGraph

namespace DispatchPlan

theorem ofGraph_eq_ok {graph : StageGraph} {plan : DispatchPlan} :
    ofGraph graph = .ok plan ↔ plan.toStageGraph = graph := by
  rw [ofGraph]
  split
  case h_1 accepted =>
    refine ⟨fun h => Except.ok.inj h ▸ rfl, fun h => ?_⟩
    subst h
    rfl
  case h_2 fault refused =>
    refine iff_of_false nofun fun h => ?_
    rw [← h, plan.accepted] at refused
    exact nomatch refused

/-- **Which graphs are plans**: those that are well-formed, and the graph without
stages. Such a graph is taken as it is: what it makes is the plan with this graph. -/
theorem ofGraph_ok_iff (graph : StageGraph) :
    ((∃ plan, ofGraph graph = .ok plan) ↔ graph.stages = ∅ ∨ graph.WellFormed) ∧
      ∀ plan, ofGraph graph = .ok plan ↔ plan.toStageGraph = graph := by
  refine ⟨?_, fun plan => ofGraph_eq_ok⟩
  rw [← StageGraph.check_eq_ok_iff]
  constructor
  · rintro ⟨plan, hplan⟩
    rw [← ofGraph_eq_ok.mp hplan]
    exact plan.accepted
  · intro accepted
    exact ⟨⟨graph, accepted⟩, ofGraph_eq_ok.mpr rfl⟩

/-- A plan is without stages or well-formed. -/
theorem wellFormed (plan : DispatchPlan) : plan.stages = ∅ ∨ plan.WellFormed :=
  StageGraph.check_eq_ok_iff.mp plan.accepted

/-- A plan that has a stage is well-formed. -/
theorem wellFormed_of_stage (plan : DispatchPlan) {id : StageId} {planned : PlannedStage}
    (h : plan.stages[id]? = some planned) : plan.WellFormed :=
  plan.wellFormed.resolve_left (StageGraph.stages_ne_empty h)

end DispatchPlan

end StagedQuery
