import StagedQuery.Error
import StagedQuery.Plan.Traversal

/-!
# The shape of a plan tree

A node has the right shape when it has as many inputs as its operator takes
(`StagedQuery.PlanTree.checkInputCount`). Trees arrive from files and may have any
shape, so each step that relies on a node's inputs checks first.

A walk over a tree (`StagedQuery.PlanTree.walk`) meets the nodes in pre-order
and stops at the first exchange: what lies below one belongs to a stage that
does not exist yet.
-/

namespace StagedQuery

namespace PlanTree

/-- Accepts a node that has as many inputs as its operator takes. -/
def checkInputCount (node : PlanTree) : Except PlanError Unit :=
  if node.operator.arity.admits node.inputs.length then .ok ()
  else structuralError
    (.wrongInputCount node.operator.name node.id node.stage node.inputs.length)

/-- The input of a node that has exactly one. -/
def onlyInput (node : PlanTree) : Except PlanError PlanTree :=
  match node.inputs with
  | [input] => .ok input
  | inputs => structuralError
      (.notUnary node.operator.name node.id node.stage inputs.length)

/-- The refusal to go beyond a node that is an exchange. -/
def crossing (node : PlanTree) : PlanError := .loneExchange node.id node.stage

/-- The nodes that a walk meets before the first exchange, each with its depth,
and whether it got to the end. -/
def walk (node : PlanTree) : List (Nat × PlanTree) × Except PlanError Unit :=
  let met := node.nodesFrom 0
  (met.takeWhile fun n => !n.2.operator.isExchange,
    match met.find? fun n => n.2.operator.isExchange with
    | some exchange => .error exchange.2.crossing
    | none => .ok ())

end PlanTree

end StagedQuery
