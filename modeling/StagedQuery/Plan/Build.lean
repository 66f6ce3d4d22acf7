import StagedQuery.Plan.Tree

/-!
# Building plans

One builder for each operator that a query may use before it is cut into
stages. The nodes they make belong to no stage yet: both of their ids are zero.
-/

namespace StagedQuery

namespace PlanTree

/-- A node that has not been given its ids. -/
def unplaced (operator : Operator) (inputs : List PlanTree) : PlanTree :=
  ⟨Id.ofNat 0, Id.ofNat 0, operator, inputs⟩

/-- Reads `columns` of `table`. -/
def tableScan (table : String) (columns : List String) : PlanTree :=
  unplaced (.tableScan table columns) []

/-- Holds literal rows. -/
def values (rows : List (List String)) : PlanTree := unplaced (.values rows) []

/-- Work described by a title alone. -/
def explained (title : String) : PlanTree := unplaced (.explained title ∅) []

/-- The rows of `input` that meet `condition`. -/
def filter (condition : String) (input : PlanTree) : PlanTree :=
  unplaced (.filter condition) [input]

/-- The `expressions` over each row of `input`. -/
def project (expressions : List String) (input : PlanTree) : PlanTree :=
  unplaced (.project expressions) [input]

/-- One phase of an aggregation of `input`. -/
def aggregate (phase : AggregatePhase) (groupKeys calls : List String) (input : PlanTree) :
    PlanTree :=
  unplaced (.aggregate groupKeys calls phase) [input]

/-- Window functions over `input`. -/
def window (partitionKeys orderKeys calls : List String) (input : PlanTree) : PlanTree :=
  unplaced (.window partitionKeys orderKeys calls) [input]

/-- The rows of `input` in order, the first `fetch` of them if that is set. -/
def sort (collations : List String) (fetch : Option UInt64) (input : PlanTree) : PlanTree :=
  unplaced (.sort collations fetch none) [input]

/-- A set operation over all `inputs`. -/
def setOperation (operation : SetOperation) (all : Bool) (inputs : List PlanTree) : PlanTree :=
  unplaced (.setOperation operation all) inputs

/-- A join of `left` and `right`. -/
def join (type : JoinKind) (on : List (String × String)) (left right : PlanTree) : PlanTree :=
  unplaced (.join type on) [left, right]

/-- A border above `input`. -/
def exchange (distribution : Distribution) (keys : List String) (input : PlanTree) : PlanTree :=
  unplaced (.exchange distribution keys) [input]

end PlanTree

end StagedQuery
