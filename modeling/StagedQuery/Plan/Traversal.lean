import StagedQuery.Plan.Tree

/-!
# Reading a plan tree

The nodes of a tree in pre-order, each with its depth
(`StagedQuery.PlanTree.nodesFrom`), and what the later steps ask of a tree: does
it scan a table, which tables, and from which stages does it receive.

The three questions are answered by recursion on the tree, without building the
list of nodes; the list is what their answers are measured against.
-/

namespace StagedQuery

namespace PlanTree

/-! ### All nodes -/

mutual

/-- The nodes of the tree in pre-order, each with its depth, the depth of the
tree's root being `depth`. -/
def nodesFrom (depth : Nat) : PlanTree → List (Nat × PlanTree)
  | ⟨id, stage, operator, inputs⟩ =>
    (depth, ⟨id, stage, operator, inputs⟩) :: nodesFromList (depth + 1) inputs

/-- The nodes of several trees, one tree after the other. -/
def nodesFromList (depth : Nat) : List PlanTree → List (Nat × PlanTree)
  | [] => []
  | node :: rest => nodesFrom depth node ++ nodesFromList depth rest

end

/-- The nodes of the tree in pre-order: a node, then its inputs from left to
right. -/
def nodes (node : PlanTree) : List PlanTree := (node.nodesFrom 0).map (·.2)

/-! ### Table scans -/

mutual

/-- Whether some node of the tree scans a table. -/
def hasScan : PlanTree → Bool
  | ⟨_, _, operator, inputs⟩ => operator.isScan || anyHasScan inputs

/-- Whether some node of some tree scans a table. -/
def anyHasScan : List PlanTree → Bool
  | [] => false
  | node :: rest => hasScan node || anyHasScan rest

end

/-- The list `found`, and after it `table` unless it is there already. -/
def addTable (found : List String) (table : String) : List String :=
  if table ∈ found then found else found ++ [table]

mutual

/-- Adds the tables that the tree scans to those already `found`. -/
def addTables (found : List String) : PlanTree → List String
  | ⟨_, _, operator, inputs⟩ =>
    addTablesOfList (operator.scannedTable?.elim found (addTable found)) inputs

/-- Adds the tables that several trees scan to those already `found`. -/
def addTablesOfList (found : List String) : List PlanTree → List String
  | [] => found
  | node :: rest => addTablesOfList (addTables found node) rest

end

/-- The tables that the tree scans, each once, by their first scan in
pre-order. -/
def tables (node : PlanTree) : List String := node.addTables []

/-! ### Borders -/

mutual

/-- The stages that the tree receives from, in pre-order and with repeats. -/
def senders : PlanTree → List StageId
  | ⟨_, _, operator, inputs⟩ => operator.receivedStage?.toList ++ sendersList inputs

/-- The stages that several trees receive from. -/
def sendersList : List PlanTree → List StageId
  | [] => []
  | node :: rest => senders node ++ sendersList rest

end

end PlanTree

end StagedQuery
