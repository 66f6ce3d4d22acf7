import StagedQuery.Json.Reading
import StagedQuery.Json.Writing
import StagedQuery.Stage

/-!
# The data format of plans and stages

How operators, plan trees and stages are written as JSON and read back. An
operator is an object with one member, named for the kind of operator and
holding its parameters; a node holds its ids, its operator and its inputs.

Writing gives every field; reading takes the fields in any order and passes over
those it does not know.
-/

namespace StagedQuery

/-! ### The parameters of operators -/

namespace AggregatePhase

/-- The name of the phase in the data format. -/
def name : AggregatePhase → String
  | .direct => "Direct"
  | .leaf => "Leaf"
  | .intermediate => "Intermediate"
  | .final => "Final"

/-- The phase with a name. -/
def ofName? : String → Option AggregatePhase
  | "Direct" => some .direct
  | "Leaf" => some .leaf
  | "Intermediate" => some .intermediate
  | "Final" => some .final
  | _ => none

end AggregatePhase

namespace SetOperation

/-- The name of the operation in the data format. -/
def name : SetOperation → String
  | .union => "Union"
  | .intersect => "Intersect"
  | .minus => "Minus"

/-- The operation with a name. -/
def ofName? : String → Option SetOperation
  | "Union" => some .union
  | "Intersect" => some .intersect
  | "Minus" => some .minus
  | _ => none

end SetOperation

namespace JoinKind

/-- The name of the kind of join in the data format. -/
def name : JoinKind → String
  | .inner => "Inner"
  | .left => "Left"
  | .right => "Right"
  | .full => "Full"
  | .semi => "Semi"
  | .anti => "Anti"

/-- The kind of join with a name. -/
def ofName? : String → Option JoinKind
  | "Inner" => some .inner
  | "Left" => some .left
  | "Right" => some .right
  | "Full" => some .full
  | "Semi" => some .semi
  | "Anti" => some .anti
  | _ => none

end JoinKind

namespace Distribution

/-- The name of the distribution in the data format. -/
def name : Distribution → String
  | .singleton => "Singleton"
  | .hash => "Hash"
  | .random => "Random"
  | .broadcast => "Broadcast"

/-- The distribution with a name. -/
def ofName? : String → Option Distribution
  | "Singleton" => some .singleton
  | "Hash" => some .hash
  | "Random" => some .random
  | "Broadcast" => some .broadcast
  | _ => none

end Distribution

open Json

namespace Send

/-- A send as a record. -/
def toJson (send : Send) : Json :=
  ofFields [("receiver_stage_ids", ofList ofId send.receivers),
    ("distribution", ofString send.distribution.name), ("keys", ofTexts send.keys)]

/-- Reads a send. -/
def ofJson? : Reader Send :=
  withRecord? ["receiver_stage_ids", "distribution", "keys"] 3 fun room fields => do
    let [some receivers, some distribution, some keys] := fields | none
    return ⟨← list? (fun _ => id?) room receivers,
      ← constant? Distribution.ofName? room distribution, ← texts? room keys⟩

end Send

namespace Receive

/-- A receive as a record. -/
def toJson (receive : Receive) : Json :=
  ofFields [("sender_stage_id", ofId receive.sender),
    ("distribution", ofString receive.distribution.name)]

/-- Reads a receive. -/
def ofJson? : Reader Receive :=
  withRecord? ["sender_stage_id", "distribution"] 2 fun room fields => do
    let [some sender, some distribution] := fields | none
    return ⟨← id? sender, ← constant? Distribution.ofName? room distribution⟩

end Receive

/-! ### Operators -/

namespace Operator

/-- The parameters of an operator as a record. -/
def parameters : Operator → Json
  | .tableScan table columns =>
    ofFields [("table", ofString table), ("columns", ofTexts columns)]
  | .values rows => ofFields [("rows", ofList ofTexts rows)]
  | .filter condition => ofFields [("condition", ofString condition)]
  | .project expressions => ofFields [("projects", ofTexts expressions)]
  | .aggregate groupKeys calls phase =>
    ofFields [("group_keys", ofTexts groupKeys), ("agg_calls", ofTexts calls),
      ("agg_type", ofString phase.name)]
  | .window partitionKeys orderKeys calls =>
    ofFields [("partition_keys", ofTexts partitionKeys), ("order_keys", ofTexts orderKeys),
      ("agg_calls", ofTexts calls)]
  | .sort collations fetch offset =>
    ofFields [("collations", ofTexts collations),
      ("fetch", ofOption (fun n => ofNat (UInt64.toNat n)) fetch),
      ("offset", ofOption (fun n => ofNat (UInt64.toNat n)) offset)]
  | .setOperation operation all =>
    ofFields [("set_op_type", ofString operation.name), ("all", .bool all)]
  | .join type on =>
    ofFields [("join_type", ofString type.name), ("on", ofList ofTextPair on)]
  | .send producer => producer.toJson
  | .receive consumer => consumer.toJson
  | .explained title attributes =>
    ofFields [("title", ofString title), ("attributes", ofTextMap ofString attributes)]
  | .exchange distribution keys =>
    ofFields [("distribution", ofString distribution.name), ("keys", ofTexts keys)]

/-- An operator as an object with one member. -/
def toJson (operator : Operator) : Json := ofFields [(operator.name, operator.parameters)]

/-- The reader of the parameters that go with the name of a kind of operator. -/
def parametersReader? : String → Option (Reader Operator)
  | "TableScan" => some <| withRecord? ["table", "columns"] 2 fun room fields => do
    let [some table, some columns] := fields | none
    return .tableScan (← text? table) (← texts? room columns)
  | "Value" => some <| withRecord? ["rows"] 1 fun room fields => do
    let [some rows] := fields | none
    return .values (← list? texts? room rows)
  | "Filter" => some <| withRecord? ["condition"] 1 fun _ fields => do
    let [some condition] := fields | none
    return .filter (← text? condition)
  | "Project" => some <| withRecord? ["projects"] 1 fun room fields => do
    let [some expressions] := fields | none
    return .project (← texts? room expressions)
  | "Aggregate" => some <| withRecord? ["group_keys", "agg_calls", "agg_type"] 3
    fun room fields => do
      let [some groupKeys, some calls, some phase] := fields | none
      return .aggregate (← texts? room groupKeys) (← texts? room calls)
        (← constant? AggregatePhase.ofName? room phase)
  | "Window" => some <| withRecord? ["partition_keys", "order_keys", "agg_calls"] 3
    fun room fields => do
      let [some partitionKeys, some orderKeys, some calls] := fields | none
      return .window (← texts? room partitionKeys) (← texts? room orderKeys) (← texts? room calls)
  | "Sort" => some <| withRecord? ["collations", "fetch", "offset"] 3 fun room fields => do
    let [some collations, fetch, offset] := fields | none
    return .sort (← texts? room collations) (← optionalField? uint64? fetch)
      (← optionalField? uint64? offset)
  | "SetOp" => some <| withRecord? ["set_op_type", "all"] 2 fun room fields => do
    let [some operation, some all] := fields | none
    return .setOperation (← constant? SetOperation.ofName? room operation) (← bool? all)
  | "Join" => some <| withRecord? ["join_type", "on"] 2 fun room fields => do
    let [some type, some on] := fields | none
    return .join (← constant? JoinKind.ofName? room type) (← list? textPair? room on)
  | "MailboxSend" => some fun room json => (Send.ofJson? room json).map .send
  | "MailboxReceive" => some fun room json =>
    (Receive.ofJson? room json).map .receive
  | "Explained" => some <| withRecord? ["title", "attributes"] 1 fun room fields => do
    let [some title, attributes] := fields | none
    return .explained (← text? title) (← fieldOr? ∅ (textMap? (fun _ => text?) room) attributes)
  | "Exchange" => some <| withRecord? ["distribution", "keys"] 2 fun room fields => do
    let [some distribution, some keys] := fields | none
    return .exchange (← constant? Distribution.ofName? room distribution) (← texts? room keys)
  | _ => none

/-- Reads an operator. -/
def ofJson? : Reader Operator
  | room + 1, json => do
    let (name, some parameters) ← variant? json | none
    let reader ← parametersReader? name
    reader room parameters
  | 0, _ => none

end Operator

/-! ### Trees and stages -/

namespace PlanTree

mutual

/-- A plan tree as a record of its root, whose inputs are records in turn. -/
def toJson : PlanTree → Json
  | ⟨id, stage, operator, inputs⟩ =>
    ofFields [("id", ofId id), ("stage_id", ofId stage), ("kind", operator.toJson),
      ("inputs", .array (toJsonList inputs))]

/-- Several plan trees as records. -/
def toJsonList : List PlanTree → List Json
  | [] => []
  | node :: rest => toJson node :: toJsonList rest

end

/-- Reads a plan tree. A node takes two levels, its own and that of its
inputs. -/
def ofJson? : Reader PlanTree
  | room + 2, json => do
    let fields ← record? ["id", "stage_id", "kind", "inputs"] 4 json
    let [some id, some stage, some operator, some (.array inputs)] := fields | none
    return ⟨← id? id, ← id? stage, ← Operator.ofJson? (room + 1) operator,
      ← inputs.mapM (ofJson? room)⟩
  | _, _ => none

end PlanTree

namespace Stage

/-- A stage as a record. -/
def toJson (stage : Stage) : Json :=
  ofFields [("id", ofId stage.id), ("root", stage.root.toJson)]

/-- Reads a stage. -/
def ofJson? : Reader Stage :=
  withRecord? ["id", "root"] 2 fun room fields => do
    let [some id, some root] := fields | none
    return ⟨← id? id, ← PlanTree.ofJson? room root⟩

end Stage

end StagedQuery
