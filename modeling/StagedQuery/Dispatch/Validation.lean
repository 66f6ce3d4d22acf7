import StagedQuery.Dispatch.Reachability

/-!
# Checking a graph of stages

`StagedQuery.StageGraph.check` accepts the graphs that can be run:

* the root stage is there and has one worker;
* every stage is filed under its own id, carries its own assignment and has a
  worker;
* every node belongs to the stage that holds it, has the inputs that its operator
  takes, and shares its id with no other node of the graph;
* borders are complete: a send is the root of its stage and each stage it lists
  receives from it, and a receive names another stage whose send lists it;
* the workers described are the workers assigned, each on the server it is
  assigned to, and each knows where to send its rows;
* every stage can be reached from the root.

The graph without stages is accepted too. Of several faults the first is
reported, stages going by their ids and nodes in pre-order.
-/

namespace StagedQuery

/-- The ids of the nodes that a check has seen. -/
abbrev SeenNodes := Std.ExtTreeSet NodeId

namespace StageGraph

/-! ### Nodes -/

/-- Checks what holds of a node whatever its operator is, and notes its id. -/
def checkNode (holder : StageId) (seen : SeenNodes) (node : PlanTree) :
    Except PlanError SeenNodes :=
  if node.stage ≠ holder then
    structuralError (.strayNode node.operator.name node.id node.stage holder)
  else if node.id ∈ seen then structuralError (.repeatedNode node.id)
  else
    match node.checkInputCount with
    | .error fault => .error fault
    | .ok () => .ok (seen.insert node.id)

/-- Checks that a stage receives from another. -/
def checkReceiver (graph : StageGraph) (sender receiver : StageId) : Except PlanError Unit := do
  let planned ← graph.stage receiver
  if planned.stage.senders.contains sender then .ok ()
  else structuralError (.unreceivedRows receiver sender)

/-- Checks where a send sits and that each stage it lists receives from it. -/
def checkSend (graph : StageGraph) (holder : StageId) (isRoot : Bool) (node : NodeId)
    (send : Send) : Except PlanError Unit :=
  if !isRoot then structuralError (.buriedSend node holder)
  else if send.receivers.isEmpty || !isSortedBy id send.receivers then
    structuralError (.unorderedReceivers node send.receivers)
  else send.receivers.forM (graph.checkReceiver holder)

/-- Checks that a receive names another stage, whose send lists this one. -/
def checkReceive (graph : StageGraph) (holder : StageId) (node : NodeId)
    (receive : Receive) : Except PlanError Unit :=
  if receive.sender = holder then structuralError (.ownReceiver node holder)
  else (graph.feeder receive holder).map fun _ => ()

mutual

/-- Checks a tree held by the stage `holder`, and notes the ids of its nodes.
Nothing lies below a receive. -/
def checkTree (graph : StageGraph) (holder : StageId) (isRoot : Bool) (seen : SeenNodes) :
    PlanTree → Except PlanError SeenNodes
  | ⟨id, stage, operator, inputs⟩ =>
    match operator with
    | .exchange .. => .error (PlanTree.crossing ⟨id, stage, operator, inputs⟩)
    | .receive receive => do
      let seen ← checkNode holder seen ⟨id, stage, operator, inputs⟩
      graph.checkReceive holder id receive
      return seen
    | .send send => do
      graph.checkSend holder isRoot id send
      let seen ← checkNode holder seen ⟨id, stage, operator, inputs⟩
      checkTrees graph holder seen inputs
    | operator => do
      let seen ← checkNode holder seen ⟨id, stage, operator, inputs⟩
      checkTrees graph holder seen inputs

/-- Checks the inputs of a node one after the other. -/
def checkTrees (graph : StageGraph) (holder : StageId) (seen : SeenNodes) :
    List PlanTree → Except PlanError SeenNodes
  | [] => .ok seen
  | node :: rest => do
    let seen ← checkTree graph holder false seen node
    checkTrees graph holder seen rest

end

/-! ### Workers -/

/-- Checks what is known of one worker. -/
def checkWorker (planned : PlannedStage) (worker : WorkerId) (links : WorkerLinks) :
    Except PlanError Unit :=
  let stage := planned.stage.id
  if links.worker ≠ worker then
    structuralError (.mislabelledWorker stage worker links.worker)
  else if planned.assignment.host? worker ≠ some links.server then
    structuralError (.misplacedWorker stage worker links.server)
  else planned.stage.receivers.forM fun receiver => do
    let mailboxes ← planned.targetsFor worker receiver
    if mailboxes.isEmpty || !Mailbox.isSorted mailboxes then
      structuralError (.unorderedMailboxes stage worker receiver)
    else .ok ()

/-- Checks that the workers described are the workers assigned, and what is
known of each. -/
def checkWorkers (planned : PlannedStage) : Except PlanError Unit := do
  let collect (workers : List WorkerId) : Std.ExtTreeSet WorkerId :=
    workers.foldl (fun set worker => set.insert worker) ∅
  let assigned := collect planned.assignment.workers
  let described := collect planned.workers.keys
  if assigned ≠ described then
    structuralError (.workerMismatch planned.stage.id assigned described)
  else planned.workers.toList.forM fun (worker, links) => checkWorker planned worker links

/-! ### Stages and graphs -/

/-- Checks the stage filed under `id`, and notes the ids of its nodes. -/
def checkStage (graph : StageGraph) (seen : SeenNodes) (id : StageId) (planned : PlannedStage) :
    Except PlanError SeenNodes :=
  if planned.stage.id ≠ id then structuralError (.misfiledStage planned.stage.id id)
  else if planned.assignment.stage ≠ id then
    structuralError (.foreignAssignment id planned.assignment.stage)
  else if planned.assignment.isEmpty then structuralError (.idleStage id)
  else do
    let seen ← graph.checkTree id true seen planned.stage.root
    checkWorkers planned
    return seen

/-- Checks that the root stage is there and has one worker. -/
def checkRoot (graph : StageGraph) : Except PlanError Unit := do
  let workers := (← graph.rootStage).assignment.size
  if workers ≠ 1 then structuralError (.rootWorkerCount graph.root workers) else .ok ()

/-- **Accepts the graphs that can be run**, and the graph without stages. -/
def check (graph : StageGraph) : Except PlanError Unit :=
  if graph.isEmpty then .ok ()
  else do
    graph.checkRoot
    let _ ← graph.stages.toList.foldlM
      (fun seen (id, planned) => graph.checkStage seen id planned) ∅
    graph.checkReachability

end StageGraph

end StagedQuery
