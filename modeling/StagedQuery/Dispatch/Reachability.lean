import StagedQuery.Dispatch.Graph

/-!
# Which stages the root depends on

Going from a stage to the stages it receives from, `StagedQuery.StageGraph.explore`
collects every stage that can be reached from the root. It keeps a stack of
stages to look at and a set of those reached; cycles and shared senders do no
harm, since a stage is looked into once.

The stages that have not been reached are fewer with every stage looked into,
and their number is what the recursion counts down.
-/

namespace StagedQuery

namespace StageGraph

/-- Looks into the stages of a stack, top first, and into those they receive
from. The set `reached` holds the stages looked into, and `unreached` is a bound
on how many stages are left. -/
def explore (graph : StageGraph) (unreached : Nat) (reached : Std.ExtTreeSet StageId)
    (pending : List StageId) : Except PlanError (Std.ExtTreeSet StageId) :=
  match pending.dropWhile fun id => reached.contains id with
  | [] => .ok reached
  | id :: pending =>
    match graph.stage id with
    | .error fault => .error fault
    | .ok planned =>
      match unreached with
      | 0 => .ok reached
      | unreached + 1 =>
        explore graph unreached (reached.insert id) (planned.stage.senders.reverse ++ pending)

/-- The stages that can be reached from the root. -/
def reachable (graph : StageGraph) : Except PlanError (Std.ExtTreeSet StageId) :=
  graph.explore graph.stages.size ∅ [graph.root]

/-- Accepts a graph in which every stage can be reached from the root; of
several that cannot the first is named. -/
def checkReachability (graph : StageGraph) : Except PlanError Unit := do
  let reached ← graph.reachable
  match graph.stages.keys.find? fun id => !reached.contains id with
  | some id => structuralError (.unreachableStage id graph.root)
  | none => .ok ()

end StageGraph

end StagedQuery
