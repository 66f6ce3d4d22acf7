import StagedQuery.Plan.Build
import StagedQuery.Plan.Text
import StagedQuery.Proofs.Plan.Nodes
import StagedQuery.Proofs.Text.Lines

/-!
# A tree as text is made of the texts of its parts

A tree is written with the depth passed down, and every line of a node is indented by twice its
depth. What comes out can be said without depths (`StagedQuery.PlanTree.treeText_eq`): it is the
text of the root on its own, and then the text of each input with two spaces in front of every
line. So the lines of a node in the text of a whole tree are those of the node on its own, behind
two spaces for each level (`StagedQuery.PlanTree.lines_treeText`).

Both speak of the lines of a text, so they need every line that is written to be a line. Most of
what is shown is quoted, which leaves no line breaks; the few texts that are shown as they are
(`StagedQuery.Operator.plainTexts`) must hold none.
-/

namespace StagedQuery

open Text

/-! ### The lines of one node -/

namespace Operator

/-- The texts of an operator that are shown as they are, without quotes: a table, a condition,
expressions, and a title with its attributes. -/
def plainTexts : Operator → List String
  | .tableScan table _ => [table]
  | .filter condition => [condition]
  | .project expressions => expressions
  | .explained title attributes =>
    title :: attributes.toList.flatMap fun (key, value) => [key, value]
  | _ => []

variable {operator : Operator}

theorem oneLine_limitText {word : String} (h : OneLine word) (limit : Option UInt64) :
    OneLine (limitText word limit) := by
  cases limit with
  | none => exact List.not_mem_nil
  | some n =>
    simp only [limitText, oneLine_append, oneLine_toString, h, and_true]
    decide

theorem oneLine_titleText {title : String} {attributes : Std.ExtTreeMap String String}
    (h : ∀ text ∈ (explained title attributes).plainTexts, OneLine text) :
    OneLine (titleText title attributes) := by
  obtain ⟨htitle, hattributes⟩ := List.forall_mem_cons.mp h
  rw [titleText]
  split_ifs
  · exact htitle
  · have hlisted : OneLine (listed (attributes.toList.map fun (key, value) =>
        key ++ "=" ++ value)) := by
      refine oneLine_intercalate (by decide) (List.forall_mem_map.mpr fun (key, value) hmem => ?_)
      have hpair := List.forall_mem_flatMap.mp hattributes (key, value) hmem
      rw [oneLine_append, oneLine_append]
      exact ⟨⟨hpair key List.mem_cons_self, by decide⟩, hpair value (by simp)⟩
    simp only [oneLine_append, htitle, hlisted, true_and]
    decide

theorem oneLine_names : (∀ phase : AggregatePhase, OneLine phase.text) ∧
    (∀ operation : SetOperation, OneLine operation.text) ∧
    (∀ kind : JoinKind, OneLine kind.text) ∧
    ∀ distribution : Distribution, OneLine distribution.text := by
  refine ⟨fun name => ?_, fun name => ?_, fun name => ?_, fun name => ?_⟩ <;>
    cases name <;> decide

/-- The text of an operator is one line. -/
theorem oneLine_text (h : ∀ text ∈ operator.plainTexts, OneLine text) :
    OneLine operator.text := by
  obtain ⟨hphase, hoperation, hkind, hdistribution⟩ := oneLine_names
  cases operator with
  | tableScan table columns =>
    simp only [text, oneLine_append, h table List.mem_cons_self]
    decide
  | aggregate groupKeys calls phase =>
    simp only [text, oneLine_append, hphase]
    decide
  | sort collations fetch offset =>
    simp only [text, oneLine_append, oneLine_limitText (by decide : OneLine "LIMIT"),
      oneLine_limitText (by decide : OneLine "OFFSET")]
    decide
  | setOperation operation all =>
    rw [text]
    split_ifs
    · simp only [oneLine_append, hoperation]
      decide
    · exact hoperation operation
  | join type on =>
    simp only [text, oneLine_append, hkind]
    decide
  | send producer =>
    simp only [text, oneLine_append, hdistribution]
    decide
  | receive consumer =>
    simp only [text, oneLine_append, hdistribution]
    decide
  | explained title attributes => exact oneLine_titleText h
  | exchange distribution keys =>
    simp only [text, oneLine_append, hdistribution]
    decide
  | values _ | filter _ | project _ | window _ _ _ =>
    rw [text]
    decide

/-- What follows the text of an operator does not end the line. -/
theorem oneLine_remark (h : ∀ text ∈ operator.plainTexts, OneLine text) :
    OneLine operator.remark := by
  cases operator with
  | tableScan table columns =>
    simp only [remark, oneLine_append, oneLine_quotedList]
    decide
  | values rows =>
    simp only [remark, oneLine_append, oneLine_toString]
    decide
  | filter condition =>
    simp only [remark, oneLine_append, h condition List.mem_cons_self]
    decide
  | sort collations fetch offset =>
    simp only [remark, oneLine_append, oneLine_quotedList]
    decide
  | join type on =>
    have hpairs : OneLine (bracketed (on.map quotedPair)) :=
      oneLine_bracketed (List.forall_mem_map.mpr fun pair _ => oneLine_quotedPair pair)
    simp only [remark, oneLine_append, hpairs]
    decide
  | send producer =>
    have hreceivers : OneLine (",".intercalate (producer.receivers.map Id.text)) :=
      oneLine_intercalate (by decide) (List.forall_mem_map.mpr fun id _ => oneLine_toString _)
    simp only [remark, oneLine_append, oneLine_quotedList, hreceivers]
    decide
  | receive consumer =>
    simp only [remark, oneLine_append, Id.text, oneLine_toString]
    decide
  | exchange distribution keys =>
    simp only [remark, oneLine_append, oneLine_quotedList]
    decide
  | project _ | aggregate _ _ _ | window _ _ _ | setOperation _ _ | explained _ _ =>
    rw [remark]
    decide

/-- What is shown on lines of its own is one line each. -/
theorem oneLine_particulars (h : ∀ text ∈ operator.plainTexts, OneLine text) :
    ∀ line ∈ operator.particulars, OneLine line := by
  cases operator with
  | project expressions => exact h
  | aggregate groupKeys calls phase =>
    simp only [particulars, List.forall_mem_cons, oneLine_append, oneLine_quotedList]
    exact ⟨by decide, by decide, by simp⟩
  | window partitionKeys orderKeys calls =>
    simp only [particulars, List.forall_mem_cons, oneLine_append, oneLine_quotedList]
    exact ⟨by decide, by decide, by decide, by simp⟩
  | _ => exact List.forall_mem_nil _

/-- **Every line of a node is one line**, if the texts that are shown as they are hold no line
breaks. -/
theorem oneLine_ownLines (h : ∀ text ∈ operator.plainTexts, OneLine text) :
    ∀ line ∈ operator.ownLines, OneLine line := by
  rw [ownLines, List.forall_mem_cons, oneLine_append, List.forall_mem_map]
  refine ⟨⟨oneLine_text h, oneLine_remark h⟩, fun line hline => ?_⟩
  rw [oneLine_append]
  exact ⟨by decide, oneLine_particulars h line hline⟩

end Operator

namespace PlanTree

/-! ### The lines of a tree -/

/-- The node without its inputs. -/
def alone (node : PlanTree) : PlanTree := { node with inputs := [] }

theorem indentation_add (m n : Nat) : indentation (m + n) = indentation m ++ indentation n := by
  rw [indentation, Nat.mul_add, ← List.replicate_append_replicate, String.ofList_append,
    indentation, indentation]

theorem treeLinesFromList_eq (depth : Nat) (inputs : List PlanTree) :
    treeLinesFromList depth inputs = inputs.flatMap (treeLinesFrom depth) := by
  induction inputs with
  | nil => rfl
  | cons node rest ih => rw [treeLinesFromList, ih, List.flatMap_cons]

theorem treeLinesFrom_eq (depth : Nat) (node : PlanTree) :
    node.treeLinesFrom depth = node.operator.ownLines.map (indentation depth ++ ·) ++
      node.inputs.flatMap (treeLinesFrom (depth + 1)) := by
  obtain ⟨id, stage, operator, inputs⟩ := node
  rw [treeLinesFrom, treeLinesFromList_eq]

/-- **A tree further down** has the same lines, further to the right. -/
theorem treeLinesFrom_add (depth more : Nat) (node : PlanTree) :
    node.treeLinesFrom (depth + more) = (node.treeLinesFrom more).map (indentation depth ++ ·) := by
  induction node generalizing more with
  | node id stage operator inputs ih =>
    rw [treeLinesFrom_eq, treeLinesFrom_eq, List.map_append, List.map_map, List.map_flatMap]
    refine congrArg₂ (· ++ ·) (List.map_congr_left fun line _ => ?_)
      (List.flatMap_congr fun input hinput => ih input hinput (more + 1))
    rw [Function.comp_apply, indentation_add, String.append_assoc]

/-- **The lines of a tree** are those of its root and, two spaces to the right, those of its
inputs. -/
theorem treeLines_eq (node : PlanTree) : node.treeLines = node.operator.ownLines ++
    node.inputs.flatMap fun input => input.treeLines.map ("  " ++ ·) := by
  have hroot (line : String) : indentation 0 ++ line = line := String.empty_append
  have hinput (input : PlanTree) :
      input.treeLinesFrom (0 + 1) = input.treeLines.map ("  " ++ ·) := treeLinesFrom_add 1 0 input
  rw [treeLines, treeLinesFrom_eq, List.flatMap_congr fun input _ => hinput input]
  simp only [hroot, List.map_id']

theorem treeLines_alone (node : PlanTree) : node.alone.treeLines = node.operator.ownLines := by
  rw [treeLines_eq, alone, List.flatMap_nil, List.append_nil]

/-- The lines of a tree are those of its nodes in pre-order, each indented by its depth. -/
theorem treeLinesFrom_eq_flatMap (depth : Nat) (node : PlanTree) :
    node.treeLinesFrom depth = (node.nodesFrom depth).flatMap fun (depth, below) =>
      below.operator.ownLines.map (indentation depth ++ ·) := by
  induction node generalizing depth with
  | node id stage operator inputs ih =>
    rw [treeLinesFrom_eq, nodesFrom, nodesFromList_eq, List.flatMap_cons, List.flatMap_assoc]
    exact congrArg _ (List.flatMap_congr fun input hinput => ih input hinput (depth + 1))

/-- The texts in a tree that are shown as they are hold no line breaks. -/
def PlainTextsOneLine (node : PlanTree) : Prop :=
  ∀ below ∈ node.nodes, ∀ text ∈ below.operator.plainTexts, OneLine text

instance (node : PlanTree) : Decidable node.PlainTextsOneLine :=
  inferInstanceAs (Decidable (∀ below ∈ node.nodes, ∀ text ∈ below.operator.plainTexts,
    OneLine text))

theorem oneLine_treeLines {node : PlanTree} (h : node.PlainTextsOneLine) :
    ∀ line ∈ node.treeLines, OneLine line := by
  rw [treeLines, treeLinesFrom_eq_flatMap, List.forall_mem_flatMap]
  rintro ⟨depth, below⟩ hbelow
  refine List.forall_mem_map.mpr fun line hline => oneLine_append.mpr ⟨?_, ?_⟩
  · rw [OneLine, indentation, String.toList_ofList]
    exact fun hmem => absurd (List.eq_of_mem_replicate hmem) (by decide)
  · exact Operator.oneLine_ownLines (h below (List.mem_map_of_mem hbelow)) line hline

theorem treeText_eq_ofLines (node : PlanTree) : node.treeText = ofLines node.treeLines := rfl

/-- Splitting the text of a tree gives its lines. -/
theorem PlainTextsOneLine.lines_treeText {node : PlanTree} (h : node.PlainTextsOneLine) :
    lines node.treeText = node.treeLines :=
  lines_ofLines (oneLine_treeLines h)

theorem PlainTextsOneLine.of_mem_nodes {node below : PlanTree} (h : node.PlainTextsOneLine)
    (hbelow : below ∈ node.nodes) : below.PlainTextsOneLine :=
  fun other hother => h other (mem_nodes_trans hother hbelow)

theorem PlainTextsOneLine.alone {node : PlanTree} (h : node.PlainTextsOneLine) :
    node.alone.PlainTextsOneLine := by
  intro other hother
  rcases mem_nodes.mp hother with rfl | ⟨input, hinput, -⟩
  · exact h node node.self_mem_nodes
  · exact absurd hinput List.not_mem_nil

/-- **The text of a tree is made of the texts of its parts**, if the texts that are shown as they
are hold no line breaks. It is the text of the root on its own, followed by the text of each input
with two spaces in front of every line. Its lines are those of the nodes in pre-order, each node
shown on its own and indented by twice its depth; and every line ends with a line break. -/
theorem treeText_eq (node : PlanTree) (h : node.PlainTextsOneLine) :
    node.treeText = node.alone.treeText ++
      String.join (node.inputs.map fun input =>
        ofLines ((lines input.treeText).map ("  " ++ ·))) ∧
    lines node.treeText = (node.nodesFrom 0).flatMap (fun (depth, below) =>
      (lines below.alone.treeText).map (indentation depth ++ ·)) ∧
    (∀ below ∈ node.nodes, lines below.alone.treeText = below.operator.ownLines) ∧
    ofLines (lines node.treeText) = node.treeText := by
  have hown (below : PlanTree) (hbelow : below ∈ node.nodes) :
      lines below.alone.treeText = below.operator.ownLines := by
    rw [(h.of_mem_nodes hbelow).alone.lines_treeText, treeLines_alone]
  refine ⟨?_, ?_, hown, ?_⟩
  · have hinput (input : PlanTree) (hinput : input ∈ node.inputs) :
        ofLines ((lines input.treeText).map ("  " ++ ·)) =
          ofLines (input.treeLines.map ("  " ++ ·)) := by
      rw [(h.of_mem_nodes (mem_nodes_of_input hinput input.self_mem_nodes)).lines_treeText]
    rw [List.map_congr_left hinput, ← ofLines_flatMap, treeText_eq_ofLines, treeText_eq_ofLines,
      treeLines_alone, ← ofLines_append, ← treeLines_eq]
  · rw [h.lines_treeText, treeLines, treeLinesFrom_eq_flatMap]
    refine List.flatMap_congr fun entry hentry => ?_
    dsimp only
    rw [hown entry.2 (List.mem_map_of_mem hentry)]
  · rw [h.lines_treeText, treeText_eq_ofLines]

/-- A tree with nodes of one line and of several, in which a quoted text holds a line break. -/
def aggregatedJoin : PlanTree :=
  aggregate .final ["k"] ["SUM(v)"] (join .left [("a", "b\n")]
    (filter "v > 1" (tableScan "t" ["v"])) (values [["1"], ["2"]]))

/-- Each node is indented by its depth, with all of its lines. -/
theorem treeText_eq_aggregatedJoin : aggregatedJoin.PlainTextsOneLine ∧
    lines aggregatedJoin.treeText = ["AGGREGATE_FINAL", "  group_by=[\"k\"]",
      "  aggs=[\"SUM(v)\"]", "  JOIN(LEFT) on=[(\"a\", \"b\\n\")]", "    FILTER v > 1",
      "      TABLE SCAN (t) columns=[\"v\"]", "    LITERAL rows=2"] ∧
    lines aggregatedJoin.treeText = (aggregatedJoin.nodesFrom 0).flatMap (fun (depth, below) =>
      (lines below.alone.treeText).map (indentation depth ++ ·)) := by
  have h : aggregatedJoin.PlainTextsOneLine := by decide +kernel
  obtain ⟨-, hnodes, -, -⟩ := treeText_eq aggregatedJoin h
  refine ⟨h, ?_, hnodes⟩
  rw [h.lines_treeText]
  decide +kernel

end PlanTree

end StagedQuery
