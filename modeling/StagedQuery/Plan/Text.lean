import StagedQuery.Plan.Traversal
import StagedQuery.Text.Quoted

/-!
# Plans as text

The short text of an operator (`StagedQuery.Operator.text`), which every way of
showing a plan begins a node with, and the tree of one stage with all the
parameters of its operators (`StagedQuery.PlanTree.treeText`).

In a tree every node contributes one line or more
(`StagedQuery.Operator.ownLines`), its inputs follow it, and each level is
indented by two spaces. A receive is a leaf: the stage it names is not shown.
-/

namespace StagedQuery

/-! ### The names of parameters -/

/-- The phase, as the operator text has it. -/
def AggregatePhase.text : AggregatePhase → String
  | .direct => "DIRECT"
  | .leaf => "LEAF"
  | .intermediate => "INTERMEDIATE"
  | .final => "FINAL"

/-- The operation, as the operator text has it. -/
def SetOperation.text : SetOperation → String
  | .union => "UNION"
  | .intersect => "INTERSECT"
  | .minus => "MINUS"

/-- The kind of join, as the operator text has it. -/
def JoinKind.text : JoinKind → String
  | .inner => "INNER"
  | .left => "LEFT"
  | .right => "RIGHT"
  | .full => "FULL"
  | .semi => "SEMI"
  | .anti => "ANTI"

/-- The distribution, as the operator text has it. -/
def Distribution.text : Distribution → String
  | .singleton => "SINGLETON"
  | .hash => "HASH_DISTRIBUTED"
  | .random => "RANDOM_DISTRIBUTED"
  | .broadcast => "BROADCAST_DISTRIBUTED"

/-! ### The text of an operator -/

namespace Operator

/-- A word and a number, or nothing where there is no number. -/
def limitText (word : String) : Option UInt64 → String
  | none => ""
  | some n => " " ++ word ++ " " ++ toString n.toNat

/-- A title, with its attributes between parentheses if there are any. -/
def titleText (title : String) (attributes : Std.ExtTreeMap String String) : String :=
  if attributes.isEmpty then title
  else title ++ "(" ++ Text.listed (attributes.toList.map fun (key, value) => key ++ "=" ++ value)
    ++ ")"

/-- **The text of an operator**, without the stage and worker that run it. -/
def text : Operator → String
  | .tableScan table _ => "TABLE SCAN (" ++ table ++ ")"
  | .values _ => "LITERAL"
  | .filter _ => "FILTER"
  | .project _ => "PROJECT"
  | .aggregate _ _ phase => "AGGREGATE_" ++ phase.text
  | .window .. => "WINDOW"
  | .sort _ fetch offset => "SORT" ++ limitText "LIMIT" fetch ++ limitText "OFFSET" offset
  | .setOperation operation all => if all then operation.text ++ " ALL" else operation.text
  | .join type _ => "JOIN(" ++ type.text ++ ")"
  | .send producer => "MAIL_SEND(" ++ producer.distribution.text ++ ")"
  | .receive consumer => "MAIL_RECEIVE(" ++ consumer.distribution.text ++ ")"
  | .explained title attributes => titleText title attributes
  | .exchange distribution _ => "EXCHANGE(" ++ distribution.text ++ ")"

/-! ### Trees -/

/-- What follows the operator text on a node's first line. -/
def remark : Operator → String
  | .tableScan _ columns => " columns=" ++ Text.quotedList columns
  | .values rows => " rows=" ++ toString rows.length
  | .filter condition => " " ++ condition
  | .sort collations _ _ => " by=" ++ Text.quotedList collations
  | .join _ on => " on=" ++ Text.bracketed (on.map Text.quotedPair)
  | .send producer =>
    " keys=" ++ Text.quotedList producer.keys ++ " to=[" ++
      ",".intercalate (producer.receivers.map Id.text) ++ "]"
  | .receive consumer => " from=" ++ consumer.sender.text
  | .exchange _ keys => " keys=" ++ Text.quotedList keys
  | .project _ | .aggregate .. | .window .. | .setOperation .. | .explained .. => ""

/-- The parameters that are shown on lines of their own. -/
def particulars : Operator → List String
  | .project expressions => expressions
  | .aggregate groupKeys calls _ =>
    ["group_by=" ++ Text.quotedList groupKeys, "aggs=" ++ Text.quotedList calls]
  | .window partitionKeys orderKeys calls =>
    ["partition_by=" ++ Text.quotedList partitionKeys, "order_by=" ++ Text.quotedList orderKeys,
      "aggs=" ++ Text.quotedList calls]
  | _ => []

/-- The lines that a node with this operator contributes to a tree, without
indentation. -/
def ownLines (operator : Operator) : List String :=
  (operator.text ++ operator.remark) :: operator.particulars.map ("  " ++ ·)

end Operator

namespace PlanTree

/-- The space in front of the lines of a node at some depth. -/
def indentation (depth : Nat) : String := String.ofList (List.replicate (2 * depth) ' ')

mutual

/-- The lines of a tree whose root is at some depth: the root's own lines, then
those of its inputs. -/
def treeLinesFrom (depth : Nat) : PlanTree → List String
  | ⟨_, _, operator, inputs⟩ =>
    operator.ownLines.map (indentation depth ++ ·) ++ treeLinesFromList (depth + 1) inputs

/-- The lines of several trees at one depth, one tree after the other. -/
def treeLinesFromList (depth : Nat) : List PlanTree → List String
  | [] => []
  | node :: rest => treeLinesFrom depth node ++ treeLinesFromList depth rest

end

/-- The lines of a tree. -/
def treeLines (node : PlanTree) : List String := node.treeLinesFrom 0

/-- **The tree of a node as text**: every node in pre-order, indented by its
depth, every line ended by a line break. -/
def treeText (node : PlanTree) : String := String.join (node.treeLines.map (· ++ "\n"))

end PlanTree

end StagedQuery
