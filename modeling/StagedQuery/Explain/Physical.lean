import StagedQuery.Dispatch.Plan
import StagedQuery.Explain.Outline
import StagedQuery.Plan.Text

/-!
# Explaining a plan

`StagedQuery.StageGraph.outline` follows a plan from a node downwards as one
worker runs it, and gives the outline of what happens where.

Inside a stage the worker stays the same. At a receive the outline goes on in
the sending stage, once for each of its workers, in the order of its
destinations: all but the last are shown by the line of their send alone, and
the last is followed. So every stage is followed once for each receive that names
it, and not once for each pair of workers.

## When there is no end

Nothing keeps two stages from receiving from one another, and then there is no
end to following them. The outline therefore comes with a bound on how many
borders it crosses one below the other. Running into the bound
(`StagedQuery.Halt.endless`) is not a fault of the plan's parts
(`StagedQuery.Halt.fault`), and with as many borders as the plan has stages it
happens only where a stage lies below itself.
-/

namespace StagedQuery

/-- Why an outline is not completed. -/
inductive Halt where
  /-- Parts of the plan do not fit together. -/
  | fault (error : PlanError)
  /-- The bound on borders crossed is used up. -/
  | endless
  deriving DecidableEq

/-- An outcome that can only be halted by a fault. -/
def orHalt {α : Type} (outcome : Except PlanError α) : Except Halt α :=
  outcome.mapError Halt.fault

namespace StageGraph

/-- The line of a node as a worker runs it. -/
def lineOf (node : PlanTree) (server : Server) (worker : WorkerId) (detail : LineDetail) :
    OutlineLine :=
  ⟨node.id, node.stage, server, worker, node.operator.text, detail⟩

/-- The names of the segments that a worker reads in a stage. -/
def segmentNames (graph : StageGraph) (stage : StageId) (worker : WorkerId) :
    Except PlanError (List String) := do
  let planned ← graph.stage stage
  return (planned.assignment.reads? worker).elim [] fun segments => segments.toList

/-- The mailboxes that a worker delivers to for a send of its stage, receiver by
receiver, those of one receiver in order. -/
def sendTargets (graph : StageGraph) (stage : StageId) (send : Send) (worker : WorkerId) :
    Except PlanError (List (StageId × Mailbox)) := do
  let planned ← graph.stage stage
  let perReceiver ← send.receivers.mapM fun receiver => do
    let mailboxes ← planned.targetsFor worker receiver
    return (Mailbox.sort mailboxes).map fun mailbox => (receiver, mailbox)
  return perReceiver.flatten

/-- The line that stands for a worker of a sending stage which is not
followed. -/
def omittedSend (graph : StageGraph) (root : PlanTree) (send : Send)
    (destination : Server × WorkerId) : Except PlanError Outline := do
  let (server, worker) := destination
  let targets ← graph.sendTargets root.stage send worker
  return ⟨lineOf root server worker (.omitted targets), []⟩

/-- The outlines below a receive: those of the sending stage's workers. The last
of them is followed by `enter`. -/
def outlineSenders (graph : StageGraph)
    (enter : Server → WorkerId → PlanTree → Except Halt Outline)
    (id : NodeId) (holder : StageId) (receive : Receive) :
    Except Halt (List Outline) := do
  let (root, send) ← orHalt (graph.feeder receive holder)
  let sender ← orHalt (graph.stage receive.sender)
  let destinations := sender.assignment.destinations
  match destinations.getLast? with
  | none => .error (.fault (.structural (.idleSender receive.sender id)))
  | some (server, worker) =>
    let omitted ← orHalt (destinations.dropLast.mapM (graph.omittedSend root send))
    let followed ← enter server worker root
    return omitted ++ [followed]

mutual

/-- The outline of a node inside one stage, where `enter` follows the stages
below its receives. -/
def outlineIn (graph : StageGraph) (enter : Server → WorkerId → PlanTree → Except Halt Outline)
    (server : Server) (worker : WorkerId) : PlanTree → Except Halt Outline
  | ⟨id, stage, operator, inputs⟩ =>
    let line := lineOf ⟨id, stage, operator, inputs⟩ server worker
    match operator with
    | .tableScan .. => do
      let names ← orHalt (graph.segmentNames stage worker)
      return ⟨line (.segments names), []⟩
    | .values _ | .explained .. => .ok ⟨line .plain, []⟩
    | .send send => do
      let _ ← orHalt (PlanTree.onlyInput ⟨id, stage, operator, inputs⟩)
      let targets ← orHalt (graph.sendTargets stage send worker)
      return ⟨line (.sends targets), ← outlineInputs graph enter server worker inputs⟩
    | .receive receive => do
      return ⟨line .plain, ← graph.outlineSenders enter id stage receive⟩
    | .join .. | .setOperation .. => do
      orHalt (PlanTree.checkInputCount ⟨id, stage, operator, inputs⟩)
      return ⟨line .plain, ← outlineInputs graph enter server worker inputs⟩
    | .exchange .. => .error (.fault (PlanTree.crossing ⟨id, stage, operator, inputs⟩))
    | .filter _ | .project _ | .aggregate .. | .window .. | .sort .. => do
      let _ ← orHalt (PlanTree.onlyInput ⟨id, stage, operator, inputs⟩)
      return ⟨line .plain, ← outlineInputs graph enter server worker inputs⟩

/-- The outlines of the inputs of a node, one after the other. -/
def outlineInputs (graph : StageGraph)
    (enter : Server → WorkerId → PlanTree → Except Halt Outline)
    (server : Server) (worker : WorkerId) : List PlanTree → Except Halt (List Outline)
  | [] => .ok []
  | node :: rest => do
    let outline ← outlineIn graph enter server worker node
    return outline :: (← outlineInputs graph enter server worker rest)

end

/-- **The outline of a node as a worker runs it**, crossing at most so many
borders one below the other. -/
def outline (graph : StageGraph) (borders : Nat) (server : Server) (worker : WorkerId)
    (node : PlanTree) : Except Halt Outline :=
  match borders with
  | 0 => graph.outlineIn (fun _ _ _ => .error .endless) server worker node
  | borders + 1 => graph.outlineIn (graph.outline borders) server worker node

/-- The worker from which a whole graph is explained: the first of its root
stage. -/
def firstDestination (graph : StageGraph) : Except PlanError (Server × WorkerId) := do
  match (← graph.rootStage).assignment.destinations.head? with
  | some destination => .ok destination
  | none => structuralError (.idleRoot graph.root)

/-- The last worker of a stage that a server runs. -/
def lastWorkerOn (graph : StageGraph) (stage : StageId) (server : Server) :
    Except PlanError WorkerId := do
  let planned ← graph.stage stage
  match (planned.assignment.hosted? server).bind List.getLast? with
  | some worker => .ok worker
  | none => structuralError (.idleServer server stage)

/-- The outline of a whole graph, as its root stage's worker runs it. -/
def outlineRoot (graph : StageGraph) (borders : Nat) : Except Halt Outline := do
  let planned ← orHalt graph.rootStage
  let (server, worker) ← orHalt graph.firstDestination
  graph.outline borders server worker planned.stage.root

end StageGraph

namespace DispatchPlan

/-- How many borders may lie one below the other: as many as there are stages. -/
def depthBound (plan : DispatchPlan) : Nat := plan.stages.size

/-- The text for a plan without stages. -/
def emptyText : String := "EMPTY"

/-- **Explains a plan**, as its root stage's worker runs it. -/
def explain (plan : DispatchPlan) : Except Halt String :=
  if plan.isEmpty then .ok emptyText
  else (plan.outlineRoot plan.depthBound).map Outline.text

/-- Explains a node as a worker of a server runs it. -/
def explainAs (plan : DispatchPlan) (node : PlanTree) (server : Server)
    (worker : WorkerId) : Except Halt String :=
  (plan.outline plan.depthBound server worker node).map Outline.text

/-- Explains a node as the last worker that a server runs for the node's stage
runs it. -/
def explainOn (plan : DispatchPlan) (node : PlanTree) (server : Server) :
    Except Halt String := do
  let worker ← orHalt (plan.lastWorkerOn node.stage server)
  plan.explainAs node server worker

end DispatchPlan

end StagedQuery
