import StagedQuery.Mailbox
import StagedQuery.Stage

/-!
# Graphs of planned stages

A `StagedQuery.PlannedStage` is a stage with its workers and what they know; a
`StagedQuery.StageGraph` holds planned stages under their ids and names one of
them as the root. The stages point to one another by id, through their sends and
receives, and nothing here promises that the other end of a border exists or
points back: that is what `StagedQuery.StageGraph.check` finds out.
-/

namespace StagedQuery

/-- A stage with its workers. -/
structure PlannedStage where
  /-- The stage. -/
  stage : Stage
  /-- Which servers run its workers. -/
  assignment : Assignment
  /-- What each worker knows. -/
  workers : WorkerMap WorkerLinks
  deriving DecidableEq

namespace PlannedStage

/-- What a worker of the stage knows. -/
def linksOf (planned : PlannedStage) (worker : WorkerId) : Except PlanError WorkerLinks :=
  match planned.workers[worker]? with
  | some links => .ok links
  | none => structuralError (.undescribedWorker planned.stage.id worker)

/-- The mailboxes that a worker of the stage sends to for a receiving stage. -/
def targetsFor (planned : PlannedStage) (worker : WorkerId) (receiver : StageId) :
    Except PlanError (List Mailbox) := do
  match (← planned.linksOf worker).sends[receiver]? with
  | some mailboxes => .ok mailboxes
  | none => structuralError (.missingMailboxes planned.stage.id worker receiver)

end PlannedStage

/-- Planned stages under their ids, one of them named as the root. -/
structure StageGraph where
  /-- The id of the stage where the result is collected. -/
  root : StageId
  /-- The stages. -/
  stages : StageMap PlannedStage
  deriving DecidableEq

namespace StageGraph

/-- Whether there are no stages. -/
def isEmpty (graph : StageGraph) : Bool := graph.stages.isEmpty

/-- The stages in the order of their ids. -/
def stageList (graph : StageGraph) : List PlannedStage := graph.stages.toList.map (·.2)

/-- The stage with an id. -/
def stage (graph : StageGraph) (id : StageId) : Except PlanError PlannedStage :=
  match graph.stages[id]? with
  | some planned => .ok planned
  | none => structuralError (.unknownStage id)

/-- The root stage. -/
def rootStage (graph : StageGraph) : Except PlanError PlannedStage := graph.stage graph.root

/-- The destinations of all stages, stage by stage. -/
def destinations (graph : StageGraph) : List (Server × WorkerId) :=
  graph.stageList.flatMap fun planned => planned.assignment.destinations

/-- How many workers all stages have together. -/
def totalWorkers (graph : StageGraph) : Nat := graph.destinations.length

/-- The root of the stage that a receive names, with its send. The send must list
the stage that the receive sits in. -/
def feeder (graph : StageGraph) (receive : Receive) (receiver : StageId) :
    Except PlanError (PlanTree × Send) := do
  let root := (← graph.stage receive.sender).stage.root
  match root.operator with
  | .send send =>
    if send.receivers.contains receiver then .ok (root, send)
    else structuralError (.unfedReceiver receive.sender receiver)
  | operator => structuralError (.unsentRows receive.sender receiver operator.name)

end StageGraph

end StagedQuery
