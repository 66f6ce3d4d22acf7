import StagedQuery.Id

/-!
# Operators of a plan

`StagedQuery.Operator` is what one node of a plan tree does: read a table, hold
literal rows, transform its inputs, or move rows between stages.

Two families of operators sit at the border between stages and never occur
together. Before a plan is cut into stages a border is one
`StagedQuery.Operator.exchange`; afterwards it is a pair, a
`StagedQuery.Operator.send` at the root of the producing stage and a
`StagedQuery.Operator.receive` at a leaf of the consuming one.

The operator also fixes how many inputs its node takes
(`StagedQuery.Operator.arity`).
-/

namespace StagedQuery

/-! ### The parameters of operators -/

/-- The phase of an aggregation that may be split in two or three. -/
inductive AggregatePhase where
  /-- The only phase. -/
  | direct
  /-- The first phase, next to the rows. -/
  | leaf
  /-- A merge of partial states that keeps them partial. -/
  | intermediate
  /-- The merge that gives the results. -/
  | final
  deriving DecidableEq, Repr

/-- A set operation over rows. -/
inductive SetOperation where
  /-- Rows of any input. -/
  | union
  /-- Rows of all inputs. -/
  | intersect
  /-- Rows of the first input and of no other. -/
  | minus
  deriving DecidableEq, Repr

/-- The kind of a join. -/
inductive JoinKind where
  /-- Matching pairs. -/
  | inner
  /-- Matching pairs, and unmatched rows of the left input. -/
  | left
  /-- Matching pairs, and unmatched rows of the right input. -/
  | right
  /-- Matching pairs, and unmatched rows of both inputs. -/
  | full
  /-- Rows of the left input with a match. -/
  | semi
  /-- Rows of the left input without a match. -/
  | anti
  deriving DecidableEq, Repr

/-- How rows travel from the workers of one stage to those of another. -/
inductive Distribution where
  /-- All rows go to the single consumer. -/
  | singleton
  /-- A row goes to the consumer that the hash of its keys selects. -/
  | hash
  /-- A row goes to any one consumer. -/
  | random
  /-- A row goes to every consumer. -/
  | broadcast
  deriving DecidableEq, Repr

/-- The producing end of a border between stages. -/
structure Send where
  /-- The stages that receive the rows. -/
  receivers : List StageId
  /-- How the rows are spread over the workers of a receiving stage. -/
  distribution : Distribution
  /-- The keys that the distribution looks at. -/
  keys : List String
  deriving DecidableEq

/-- The consuming end of a border between stages. -/
structure Receive where
  /-- The stage that sends the rows. -/
  sender : StageId
  /-- How the rows are spread over the workers of this stage. -/
  distribution : Distribution
  deriving DecidableEq

/-! ### Operators -/

/-- What a node of a plan tree does. -/
inductive Operator where
  /-- Reads columns of a table. -/
  | tableScan (table : String) (columns : List String)
  /-- Holds literal rows. -/
  | values (rows : List (List String))
  /-- Keeps the rows that meet a condition. -/
  | filter (condition : String)
  /-- Computes expressions over each row. -/
  | project (expressions : List String)
  /-- Aggregates rows by keys. -/
  | aggregate (groupKeys calls : List String) (phase : AggregatePhase)
  /-- Computes window functions over partitions. -/
  | window (partitionKeys orderKeys calls : List String)
  /-- Sorts rows, skips the first `offset` and keeps `fetch` of them. -/
  | sort (collations : List String) (fetch offset : Option UInt64)
  /-- Combines the rows of all inputs; with `all`, repeated rows are kept. -/
  | setOperation (operation : SetOperation) (all : Bool)
  /-- Joins two inputs on pairs of a left and a right key. -/
  | join (type : JoinKind) (on : List (String × String))
  /-- Hands rows to other stages. -/
  | send (producer : Send)
  /-- Takes the rows of another stage. -/
  | receive (consumer : Receive)
  /-- Stands for work that another planner has described by a title. -/
  | explained (title : String) (attributes : Std.ExtTreeMap String String)
  /-- Marks a border where the plan is to be cut. -/
  | exchange (distribution : Distribution) (keys : List String)
  deriving DecidableEq

namespace Operator

/-- What the kind of the operator is called in messages and in the data format. -/
def name : Operator → String
  | .tableScan .. => "TableScan"
  | .values .. => "Value"
  | .filter .. => "Filter"
  | .project .. => "Project"
  | .aggregate .. => "Aggregate"
  | .window .. => "Window"
  | .sort .. => "Sort"
  | .setOperation .. => "SetOp"
  | .join .. => "Join"
  | .send .. => "MailboxSend"
  | .receive .. => "MailboxReceive"
  | .explained .. => "Explained"
  | .exchange .. => "Exchange"

/-- Whether the operator reads a table. -/
def isScan : Operator → Bool
  | .tableScan .. => true
  | _ => false

/-- The table that the operator reads. -/
def scannedTable? : Operator → Option String
  | .tableScan table _ => some table
  | _ => none

/-- The stage that the operator receives from. -/
def receivedStage? : Operator → Option StageId
  | .receive consumer => some consumer.sender
  | _ => none

/-- The stages that the operator sends to. -/
def receivers : Operator → List StageId
  | .send producer => producer.receivers
  | _ => []

/-- Whether the operator is an end of a border that has been cut. -/
def isBorderEnd : Operator → Bool
  | .send _ | .receive _ => true
  | _ => false

/-- Whether the operator marks a border that has not been cut yet. -/
def isExchange : Operator → Bool
  | .exchange .. => true
  | _ => false

end Operator

/-! ### Arity -/

/-- How many inputs a node may have. -/
inductive Arity where
  /-- No input. -/
  | none
  /-- Exactly one input. -/
  | one
  /-- Exactly two inputs. -/
  | two
  /-- Two inputs or more. -/
  | several
  deriving DecidableEq, Repr

/-- Whether `n` inputs are as many as the arity asks for. -/
def Arity.admits : Arity → Nat → Bool
  | .none, n => n = 0
  | .one, n => n = 1
  | .two, n => n = 2
  | .several, n => 2 ≤ n

/-- How many inputs a node with this operator has. -/
def Operator.arity : Operator → Arity
  | .tableScan .. | .values .. | .explained .. | .receive .. => .none
  | .filter .. | .project .. | .aggregate .. | .window .. | .sort .. => .one
  | .send .. | .exchange .. => .one
  | .join .. => .two
  | .setOperation .. => .several

end StagedQuery
