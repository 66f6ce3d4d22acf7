import StagedQuery.Dispatch.Planner
import StagedQuery.Explain.Physical

/-!
# What planning reports on its way

Planning a query and explaining the plan are observed through events: the query
that comes in, each stage that is cut, each stage whose workers are placed, each
border that is wired, the plan that results, and the explanation that is begun.
The events follow from the results of the steps and have no influence on them;
a step that fails is reported up to where it fails.
-/

namespace StagedQuery

/-- How much an event matters. -/
inductive EventLevel where
  /-- For those who look into the planner. -/
  | debug
  /-- For those who run it. -/
  | info
  deriving DecidableEq, Repr

/-- What a level is called. -/
def EventLevel.name : EventLevel → String
  | .debug => "DEBUG"
  | .info => "INFO"

/-- The value of a field of an event. -/
inductive FieldValue where
  /-- A text. -/
  | text (value : String)
  /-- A number. -/
  | number (value : Nat)
  /-- A truth value. -/
  | truth (value : Bool)
  deriving DecidableEq, Repr

/-- Something that happens while a query is planned and explained. -/
inductive Event where
  /-- A query comes in. -/
  | queryReceived (root : PlanTree) (settings : Settings)
  /-- A stage has been cut. -/
  | stageCut (stage : Stage)
  /-- The workers of a stage have been placed. -/
  | workersPlaced (stage : Stage) (assignment : Assignment)
  /-- A border has been wired. -/
  | borderWired (border : Border) (producers consumers : Nat)
  /-- A plan has been built. -/
  | planBuilt (stages workers : Nat)
  /-- The explanation of a node begins. -/
  | explanationBegun (node : PlanTree) (server : Server) (worker : WorkerId)

namespace Event

/-- How much the event matters. -/
def level : Event → EventLevel
  | .planBuilt .. => .info
  | _ => .debug

/-- What the event says. -/
def message : Event → String
  | .queryReceived .. => "planning query"
  | .stageCut stage => "stage cut\n" ++ stage.root.treeText
  | .workersPlaced .. => "stage workers assigned"
  | .borderWired .. => "stage edge wired"
  | .planBuilt .. => "dispatchable plan built"
  | .explanationBegun .. => "explaining plan"

/-- Which part of the planner the event comes from. -/
def source : Event → String
  | .queryReceived .. => "DistributedPlanner"
  | .stageCut _ => "StageFragmenter"
  | .workersPlaced .. => "WorkerAssignment"
  | .borderWired .. => "MailboxAssignment"
  | .planBuilt .. => "DispatchablePlan"
  | .explanationBegun .. => "PhysicalExplain"

/-- The particulars of the event. -/
def particulars : Event → List (String × FieldValue)
  | .queryReceived root settings =>
    [("root", .text root.operator.name),
      ("workers_per_server", .number settings.workersPerServer.toNat)]
  | .stageCut stage =>
    [("stage_id", .text stage.id.text),
      ("receivers", .text (Text.bracketed (stage.receivers.map Id.labelled)))]
  | .workersPlaced stage assignment =>
    [("stage_id", .text stage.id.text), ("workers", .number assignment.size),
      ("servers", .number assignment.servers.length), ("scan", .truth stage.isScan)]
  | .borderWired border producers consumers =>
    [("sender_stage", .text border.1.text), ("receiver_stage", .text border.2.text),
      ("producers", .number producers), ("consumers", .number consumers)]
  | .planBuilt stages workers => [("stages", .number stages), ("workers", .number workers)]
  | .explanationBegun node server worker =>
    [("stage_id", .text node.stage.text), ("node_id", .text node.id.text),
      ("server", .text server.text), ("worker_id", .text worker.text)]

/-- All fields of the event, by name. -/
def fields (event : Event) : List (String × FieldValue) :=
  event.particulars ++ [("operator", .text event.source), ("level", .text event.level.name),
    ("message", .text event.message)]

end Event

/-- The events of placing workers, stage by stage up to the first that fails. -/
def placementEvents (stages : List Stage) (cluster : Cluster) (settings : Settings) :
    List Event :=
  match stages with
  | [] => []
  | stage :: rest =>
    match stage.place cluster settings with
    | .error _ => []
    | .ok assignment =>
      .workersPlaced stage assignment :: placementEvents rest cluster settings

/-- The events of wiring the borders between stages, all of which have workers. -/
def wiringEvents (stages : List Stage) (assignments : StageMap Assignment) : List Event :=
  let workers (stage : StageId) : Nat := (assignments[stage]?.elim 0 (·.mailboxes.length))
  (borders stages).map fun border => .borderWired border (workers border.1) (workers border.2)

/-- The events of planning a query. -/
def Planner.events (planner : Planner) (root : PlanTree) (cluster : Cluster) : List Event :=
  .queryReceived root planner.settings ::
    match toStages root with
    | .error _ => []
    | .ok stages =>
      stages.map .stageCut ++ placementEvents stages cluster planner.settings ++
        match placeWorkers stages cluster planner.settings with
        | .error _ => []
        | .ok assignments =>
          wiringEvents stages assignments ++
            match planner.plan root cluster with
            | .error _ => []
            | .ok plan => [.planBuilt plan.stages.size plan.totalWorkers]

/-- The events of explaining a plan. -/
def DispatchPlan.explainEvents (plan : DispatchPlan) : List Event :=
  match plan.rootStage, plan.firstDestination with
  | .ok planned, .ok (server, worker) => [.explanationBegun planned.stage.root server worker]
  | _, _ => []

/-- **The events of planning a query and explaining its plan.** -/
def Planner.trace (planner : Planner) (root : PlanTree) (cluster : Cluster) : List Event :=
  planner.events root cluster ++
    match planner.plan root cluster with
    | .error _ => []
    | .ok plan => plan.explainEvents

end StagedQuery
