import StagedQuery.Dispatch.Validation
import StagedQuery.Mailbox.Wiring

/-!
# Dispatch plans

A `StagedQuery.DispatchPlan` is a graph of stages that has passed
`StagedQuery.StageGraph.check`: what is handed to the servers, and what is
explained. The proof that it passed is part of the plan, so there is no way to
come by a plan but through the check, and no way to change one.

A plan is made from a graph (`StagedQuery.DispatchPlan.ofGraph`) or by joining
the stages, assignments and mailboxes that planning yields
(`StagedQuery.DispatchPlan.assemble`).
-/

namespace StagedQuery

/-- A graph of stages that can be run. -/
structure DispatchPlan extends StageGraph where
  /-- The graph has passed the check. -/
  accepted : toStageGraph.check = .ok ()
  deriving DecidableEq

namespace DispatchPlan

/-- The plan that a graph is, if it passes the check. -/
def ofGraph (graph : StageGraph) : Except PlanError DispatchPlan :=
  match accepted : graph.check with
  | .ok () => .ok ⟨graph, accepted⟩
  | .error fault => .error fault

/-- The plan without stages. -/
def empty : DispatchPlan := ⟨⟨rootStageId, ∅⟩, rfl⟩

/-- Joins each stage with its assignment and its workers, which are taken out of
the two maps; what is left of the maps, and the stages joined. -/
def joinStage (parts : StageMap Assignment × Wiring × StageMap PlannedStage)
    (stage : Stage) :
    Except PlanError (StageMap Assignment × Wiring × StageMap PlannedStage) :=
  let (assignments, wiring, planned) := parts
  match assignments[stage.id]? with
  | none => structuralError (.unassignedStage stage.id)
  | some assignment =>
    match wiring[stage.id]? with
    | none => structuralError (.unwiredStage stage.id)
    | some workers =>
      .ok (assignments.erase stage.id, wiring.erase stage.id,
        planned.insert stage.id ⟨stage, assignment, workers⟩)

/-- **The plan that stages, assignments and mailboxes make together.** Every
stage must have both, and there must be none for any other stage. -/
def assemble (stages : List Stage) (assignments : StageMap Assignment)
    (wiring : Wiring) : Except PlanError DispatchPlan := do
  let (assignments, wiring, planned) ← stages.foldlM joinStage (assignments, wiring, ∅)
  match assignments.keys ++ wiring.keys with
  | stage :: _ => structuralError (.strayStage stage)
  | [] => ofGraph ⟨rootStageId, planned⟩

end DispatchPlan

end StagedQuery
