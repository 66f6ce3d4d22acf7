import Mathlib.Data.List.Basic
import StagedQuery.Plan.Shape

/-!
# The nodes of a tree

What is asked of a tree – does it scan, which tables, from which stages does it
receive – is answered by recursion, and each answer is a reading of the list of
its nodes (`StagedQuery.PlanTree.nodes`). This file says so, one reading after
the other, so that everything after it can speak of nodes alone.

Trees come with two ways of induction. In `StagedQuery.PlanTree.inductionOn` what
holds of all inputs of a node is shown of the node; it serves for functions that
have been put in terms of nodes. `StagedQuery.PlanTree.pairInduction` follows the
pairs of functions, one for a tree and one for a list of trees.
-/

namespace StagedQuery

namespace PlanTree

/-! ### Induction -/

/-- Induction over trees and lists of trees together. -/
theorem pairInduction {P : PlanTree → Prop} {Q : List PlanTree → Prop}
    (node : ∀ id stage operator inputs, Q inputs → P ⟨id, stage, operator, inputs⟩)
    (nil : Q []) (cons : ∀ node rest, P node → Q rest → Q (node :: rest)) :
    (∀ node, P node) ∧ ∀ inputs, Q inputs :=
  ⟨@PlanTree.rec P Q node nil cons, @PlanTree.rec_1 P Q node nil cons⟩

/-- Induction over trees: what holds of the inputs of a node is shown of the
node. -/
@[elab_as_elim, induction_eliminator]
theorem inductionOn {P : PlanTree → Prop}
    (node : ∀ id stage operator inputs, (∀ input ∈ inputs, P input) →
      P ⟨id, stage, operator, inputs⟩) (tree : PlanTree) : P tree :=
  (pairInduction (Q := fun inputs => ∀ input ∈ inputs, P input) node
    (fun _ h => nomatch h) (fun _ _ h hs => List.forall_mem_cons.mpr ⟨h, hs⟩)).1 tree

/-! ### Nodes -/

theorem nodesFromList_eq (depth : Nat) (inputs : List PlanTree) :
    nodesFromList depth inputs = inputs.flatMap (nodesFrom depth) := by
  induction inputs with
  | nil => rfl
  | cons node rest ih => rw [nodesFromList, ih, List.flatMap_cons]

/-- The nodes met do not depend on the depth that the root is given. -/
theorem map_snd_nodesFrom (depth : Nat) (node : PlanTree) :
    (node.nodesFrom depth).map (·.2) = node.nodes := by
  suffices ∀ d e : Nat, (node.nodesFrom d).map (·.2) = (node.nodesFrom e).map (·.2) from
    this depth 0
  induction node with
  | node id stage operator inputs ih =>
    intro d e
    rw [nodesFrom, nodesFrom, List.map_cons, List.map_cons, nodesFromList_eq, nodesFromList_eq,
      List.map_flatMap, List.map_flatMap]
    congr 1
    exact List.flatMap_congr fun input h => ih input h _ _

/-- The nodes of a tree are its root and the nodes of its inputs. -/
theorem nodes_mk (id : NodeId) (stage : StageId) (operator : Operator) (inputs : List PlanTree) :
    nodes ⟨id, stage, operator, inputs⟩ =
      ⟨id, stage, operator, inputs⟩ :: inputs.flatMap nodes := by
  rw [nodes, nodesFrom, List.map_cons, nodesFromList_eq, List.map_flatMap]
  simp only [map_snd_nodesFrom]

theorem nodes_eq (node : PlanTree) : node.nodes = node :: node.inputs.flatMap nodes := by
  obtain ⟨id, stage, operator, inputs⟩ := node
  exact nodes_mk id stage operator inputs

/-- A node of a tree is its root or a node of an input. -/
theorem mem_nodes {node tree : PlanTree} :
    node ∈ tree.nodes ↔ node = tree ∨ ∃ input ∈ tree.inputs, node ∈ input.nodes := by
  rw [nodes_eq, List.mem_cons, List.mem_flatMap]

theorem self_mem_nodes (tree : PlanTree) : tree ∈ tree.nodes := mem_nodes.mpr (.inl rfl)

theorem mem_nodes_of_input {node input tree : PlanTree} (hin : input ∈ tree.inputs)
    (h : node ∈ input.nodes) : node ∈ tree.nodes :=
  mem_nodes.mpr (.inr ⟨input, hin, h⟩)

/-- What is asked of every node is asked of the root and of the nodes of every
input. -/
theorem forall_mem_nodes {P : PlanTree → Prop} {tree : PlanTree} :
    (∀ node ∈ tree.nodes, P node) ↔
      P tree ∧ ∀ input ∈ tree.inputs, ∀ node ∈ input.nodes, P node := by
  rw [nodes_eq, List.forall_mem_cons]
  exact and_congr_right fun _ => List.forall_mem_flatMap

/-- The nodes below a node of a tree are nodes of the tree. -/
theorem mem_nodes_trans {a b c : PlanTree} (hab : a ∈ b.nodes) (hbc : b ∈ c.nodes) :
    a ∈ c.nodes := by
  induction c with
  | node id stage operator inputs ih =>
    rcases mem_nodes.mp hbc with rfl | ⟨input, hin, h⟩
    · exact hab
    · exact mem_nodes_of_input hin (ih input hin h)

/-- The inputs of a node of a tree are nodes of the tree. -/
theorem input_mem_nodes {input node tree : PlanTree} (h : node ∈ tree.nodes)
    (hin : input ∈ node.inputs) : input ∈ tree.nodes :=
  mem_nodes_trans (mem_nodes_of_input hin input.self_mem_nodes) h

/-! ### Readings -/

/-- A tree scans a table if one of its nodes does. -/
theorem hasScan_eq (tree : PlanTree) : tree.hasScan = tree.nodes.any (·.operator.isScan) := by
  suffices (∀ node : PlanTree, node.hasScan = node.nodes.any (·.operator.isScan)) ∧
      ∀ inputs, anyHasScan inputs = (inputs.flatMap nodes).any (·.operator.isScan) from
    this.1 tree
  refine pairInduction (fun id stage operator inputs ih => ?_) rfl fun node rest h hs => ?_
  · rw [hasScan, nodes_mk, List.any_cons, ih]
  · rw [anyHasScan, List.flatMap_cons, List.any_append, h, hs]

/-- The tables found are added in the order in which the nodes name them. -/
theorem addTables_eq (found : List String) (tree : PlanTree) :
    tree.addTables found =
      (tree.nodes.filterMap (·.operator.scannedTable?)).foldl addTable found := by
  suffices (∀ (node : PlanTree) (found : List String), node.addTables found =
        (node.nodes.filterMap (·.operator.scannedTable?)).foldl addTable found) ∧
      ∀ (inputs : List PlanTree) (found : List String), addTablesOfList found inputs =
        ((inputs.flatMap nodes).filterMap (·.operator.scannedTable?)).foldl addTable found from
    this.1 tree found
  refine pairInduction (fun id stage operator inputs ih found => ?_) (fun _ => rfl)
    fun node rest h hs found => ?_
  · rw [addTables, nodes_mk, ih, List.filterMap_cons]
    cases operator.scannedTable? <;> rfl
  · rw [addTablesOfList, List.flatMap_cons, List.filterMap_append, List.foldl_append, h, hs]

/-- The stages that a tree receives from are those that its nodes name. -/
theorem senders_eq (tree : PlanTree) :
    tree.senders = tree.nodes.filterMap (·.operator.receivedStage?) := by
  suffices (∀ node : PlanTree,
        node.senders = node.nodes.filterMap (·.operator.receivedStage?)) ∧
      ∀ inputs, sendersList inputs =
        (inputs.flatMap nodes).filterMap (·.operator.receivedStage?) from this.1 tree
  refine pairInduction (fun id stage operator inputs ih => ?_) rfl fun node rest h hs => ?_
  · rw [senders, nodes_mk, ih, List.filterMap_cons]
    cases operator.receivedStage? <;> rfl
  · rw [sendersList, List.flatMap_cons, List.filterMap_append, h, hs]

/-- A tree receives from a stage if one of its nodes is a receive that names
it. -/
theorem mem_senders {tree : PlanTree} {sender : StageId} :
    sender ∈ tree.senders ↔
      ∃ node ∈ tree.nodes, ∃ receive,
        node.operator = .receive receive ∧ receive.sender = sender := by
  rw [senders_eq, List.mem_filterMap]
  refine exists_congr fun node => and_congr_right fun _ => ?_
  cases node.operator <;> simp [Operator.receivedStage?]

/-! ### The shape of a node -/

/-- A node passes the check of its inputs exactly if it has as many as its
operator takes. -/
theorem checkInputCount_eq_ok {node : PlanTree} :
    node.checkInputCount = .ok () ↔ node.operator.arity.admits node.inputs.length = true := by
  rw [checkInputCount]
  split_ifs with h
  · exact iff_of_true rfl h
  · exact iff_of_false nofun h

/-- Nothing lies below an operator that takes no inputs and has as many as it
takes. -/
theorem inputs_eq_nil {operator : Operator} {inputs : List PlanTree}
    (h : operator.arity.admits inputs.length = true) (hnone : operator.arity = .none) :
    inputs = [] := by
  rw [hnone] at h
  exact List.length_eq_zero_iff.mp (of_decide_eq_true h)

/-- An operator that takes one input, and has as many as it takes, has one. -/
theorem onlyInput_ok {node : PlanTree}
    (h : node.operator.arity.admits node.inputs.length = true)
    (hone : node.operator.arity = .one) : ∃ input, node.onlyInput = .ok input := by
  rw [hone, Arity.admits, decide_eq_true_eq, List.length_eq_one_iff] at h
  obtain ⟨input, hinput⟩ := h
  exact ⟨input, by rw [onlyInput, hinput]⟩

end PlanTree

end StagedQuery
