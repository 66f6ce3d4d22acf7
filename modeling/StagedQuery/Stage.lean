import StagedQuery.Plan.Shape

/-!
# Stages

A stage is a part of a plan that runs as one unit: no rows cross between workers
inside it. Rows enter it at its receives and leave it at its root, if that is a
send.
-/

namespace StagedQuery

/-- A part of a plan that runs as one unit. -/
structure Stage where
  /-- The stage's id. -/
  id : StageId
  /-- The tree that it runs. -/
  root : PlanTree
  deriving DecidableEq

namespace Stage

/-- Whether some node of the stage scans a table. -/
def isScan (stage : Stage) : Bool := stage.root.hasScan

/-- The stages that the stage sends to; none unless its root is a send. -/
def receivers (stage : Stage) : List StageId := stage.root.operator.receivers

/-- The stages that the stage receives from, in pre-order and with repeats. -/
def senders (stage : Stage) : List StageId := stage.root.senders

end Stage

end StagedQuery
