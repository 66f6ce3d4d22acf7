import StagedQuery.Plan.Operator

/-!
# Plan trees

A plan is a tree of operators: `StagedQuery.PlanTree` holds an operator, its
ordered inputs, and the two ids that cutting the plan into stages assigns – the
node's own id and the stage that runs it. Trees that have not been cut carry
whatever ids their author gave them; the builders of
`StagedQuery.Plan.Build` write zeros.

Functions on trees come in pairs, one for a node and one for a list of inputs,
so that they recurse on the structure of the tree.
-/

namespace StagedQuery

/-- A node of a plan tree together with everything below it. -/
structure PlanTree where
  /-- The node's id within its plan. -/
  id : NodeId
  /-- The stage that runs the node. -/
  stage : StageId
  /-- What the node does. -/
  operator : Operator
  /-- The nodes whose rows it works on, in order. -/
  inputs : List PlanTree

namespace PlanTree

/-! ### Equality -/

mutual

/-- Equality of plan trees is decided node by node. -/
def decideEq : (a b : PlanTree) → Decidable (a = b)
  | ⟨id, stage, operator, inputs⟩, ⟨id', stage', operator', inputs'⟩ =>
    if label : id = id' ∧ stage = stage' ∧ operator = operator' then
      match decideEqList inputs inputs' with
      | .isTrue same => .isTrue (by obtain ⟨rfl, rfl, rfl⟩ := label; rw [same])
      | .isFalse differ => .isFalse fun equal => differ (PlanTree.mk.inj equal).2.2.2
    else
      .isFalse fun equal =>
        let fields := PlanTree.mk.inj equal
        label ⟨fields.1, fields.2.1, fields.2.2.1⟩

/-- Equality of lists of plan trees, input by input. -/
def decideEqList : (as bs : List PlanTree) → Decidable (as = bs)
  | [], [] => .isTrue rfl
  | [], _ :: _ => .isFalse nofun
  | _ :: _, [] => .isFalse nofun
  | a :: as, b :: bs =>
    match decideEq a b with
    | .isFalse differ => .isFalse fun equal => differ (List.cons.inj equal).1
    | .isTrue same =>
      match decideEqList as bs with
      | .isFalse differ => .isFalse fun equal => differ (List.cons.inj equal).2
      | .isTrue rest => .isTrue (by rw [same, rest])

end

instance : DecidableEq PlanTree := decideEq

end PlanTree

end StagedQuery
