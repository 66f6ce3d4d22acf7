import StagedQuery.Assignment.Placement
import StagedQuery.Dispatch.Plan
import StagedQuery.Stage.Cutting

/-!
# Planning a query

`StagedQuery.Planner.plan` turns a query into a plan in four steps: cut the tree
into stages, place the workers of each stage, wire the borders, and join the
three results.
-/

namespace StagedQuery

/-- A planner with settings that make sense. -/
structure Planner where
  /-- The settings. -/
  settings : Settings
  /-- They make sense. -/
  checked : settings.check = .ok ()
  deriving DecidableEq

namespace Planner

/-- The planner with some settings, if they make sense. -/
def ofSettings (settings : Settings) : Except PlanError Planner :=
  match checked : settings.check with
  | .ok () => .ok ⟨settings, checked⟩
  | .error fault => .error fault

/-- **The plan of a query on a cluster.** -/
def plan (planner : Planner) (root : PlanTree) (cluster : Cluster) :
    Except PlanError DispatchPlan := do
  let stages ← toStages root
  let assignments ← placeWorkers stages cluster planner.settings
  let wiring ← wireMailboxes stages assignments
  DispatchPlan.assemble stages assignments wiring

end Planner

end StagedQuery
