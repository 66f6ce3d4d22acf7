import StagedQuery.Dispatch.Plan
import StagedQuery.Format.Cluster
import StagedQuery.Format.Plan
import StagedQuery.Json.Parser
import StagedQuery.Json.Printer

/-!
# The data format of assignments, mailboxes and plans

How what planning yields is written as JSON and read back. Reading a whole plan
ends with the check that every plan has to pass, so there are two ways for a
text not to be a plan: it is not of the format
(`StagedQuery.PlanTextFault.malformed`), or it is and the plan is refused
(`StagedQuery.PlanTextFault.refused`).
-/

namespace StagedQuery

open Json

/-! ### Assignments -/

namespace Hosting

/-- A server and its workers as a record. -/
def toJson (s : Hosting) : Json :=
  ofFields [("server", s.server.toJson), ("worker_ids", ofList ofId s.workers)]

/-- Reads a server and its workers. -/
def ofJson? : Reader Hosting :=
  withRecord? ["server", "worker_ids"] 2 fun room fields => do
    let [some server, some workers] := fields | none
    return ⟨← Server.ofJson? room server, ← list? (fun _ => id?) room workers⟩

end Hosting

namespace Assignment

/-- The segments of workers, by worker. -/
def segmentsToJson (segments : WorkerMap SegmentSet) : Json := ofIdMap ofTextSet segments

/-- An assignment as a record. -/
def toJson (assignment : Assignment) : Json :=
  ofFields [("stage_id", ofId assignment.stage),
    ("servers", ofList Hosting.toJson assignment.servers),
    ("segments", segmentsToJson assignment.segments)]

/-- Reads an assignment. -/
def ofJson? : Reader Assignment :=
  withRecord? ["stage_id", "servers", "segments"] 2 fun room fields => do
    let [some stage, some servers, segments] := fields | none
    return ⟨← id? stage, ← list? Hosting.ofJson? room servers,
      ← fieldOr? ∅ (idMap? textSet? room) segments⟩

end Assignment

/-! ### Mailboxes -/

namespace Mailbox

/-- A mailbox as a record. -/
def toJson (m : Mailbox) : Json :=
  ofFields [("hostname", ofString m.hostname), ("port", .ofNat m.port.toNat),
    ("worker_id", ofId m.worker)]

/-- Reads a mailbox. -/
def ofJson? : Reader Mailbox :=
  withRecord? ["hostname", "port", "worker_id"] 3 fun _ fields => do
    let [some hostname, some port, some worker] := fields | none
    return ⟨← text? hostname, ← uint16? port, ← id? worker⟩

end Mailbox

namespace WorkerLinks

/-- What a worker knows, as a record. -/
def toJson (links : WorkerLinks) : Json :=
  ofFields [("worker_id", ofId links.worker), ("server", links.server.toJson),
    ("send_mailboxes", ofIdMap (ofList Mailbox.toJson) links.sends),
    ("receive_mailboxes", ofIdMap (ofList Mailbox.toJson) links.receives)]

/-- Reads what a worker knows. -/
def ofJson? : Reader WorkerLinks :=
  withRecord? ["worker_id", "server", "send_mailboxes", "receive_mailboxes"] 2
    fun room fields => do
      let [some worker, some server, sends, receives] := fields | none
      return ⟨← id? worker, ← Server.ofJson? room server,
        ← fieldOr? ∅ (idMap? (list? Mailbox.ofJson?) room) sends,
        ← fieldOr? ∅ (idMap? (list? Mailbox.ofJson?) room) receives⟩

end WorkerLinks

/-- What all workers of a stage know, by worker. -/
def workersToJson (workers : WorkerMap WorkerLinks) : Json :=
  ofIdMap WorkerLinks.toJson workers

/-- Reads what all workers of a stage know. -/
def workersOfJson? : Reader (WorkerMap WorkerLinks) := idMap? WorkerLinks.ofJson?

/-! ### Plans -/

namespace PlannedStage

/-- A planned stage as a record. -/
def toJson (planned : PlannedStage) : Json :=
  ofFields [("stage", planned.stage.toJson), ("assignment", planned.assignment.toJson),
    ("workers", workersToJson planned.workers)]

/-- Reads a planned stage. -/
def ofJson? : Reader PlannedStage :=
  withRecord? ["stage", "assignment", "workers"] 3 fun room fields => do
    let [some stage, some assignment, some workers] := fields | none
    return ⟨← Stage.ofJson? room stage, ← Assignment.ofJson? room assignment,
      ← workersOfJson? room workers⟩

end PlannedStage

namespace StageGraph

/-- A graph of stages as a record. -/
def toJson (graph : StageGraph) : Json :=
  ofFields [("root_stage_id", ofId graph.root),
    ("stages", ofIdMap PlannedStage.toJson graph.stages)]

/-- Reads a graph of stages, without any check of how they fit together. -/
def ofJson? : Reader StageGraph :=
  withRecord? ["root_stage_id", "stages"] 2 fun room fields => do
    let [some root, some stages] := fields | none
    return ⟨← id? root, ← idMap? PlannedStage.ofJson? room stages⟩

end StageGraph

/-- How many levels of brackets a text may nest for typed data to be read from
it. -/
def textRoom : Nat := 127

/-- Why a text does not hold a plan. -/
inductive PlanTextFault where
  /-- The text is not of the format. -/
  | malformed
  /-- The text is of the format, and the plan it holds is refused. -/
  | refused (error : PlanError)
  deriving DecidableEq

namespace DispatchPlan

/-- The text of a plan. -/
def toText (plan : DispatchPlan) : String := plan.toJson.render

/-- **Reads a plan from text.** The plan is checked as soon as it has been read,
before what follows it in the text. -/
def ofText (text : String) : Except PlanTextFault DispatchPlan :=
  match parsePart text.toList with
  | none => .error .malformed
  | some (json, rest) =>
    match StageGraph.ofJson? textRoom json with
    | none => .error .malformed
    | some graph =>
      match ofGraph graph with
      | .error error => .error (.refused error)
      | .ok plan => if isBlankText rest then .ok plan else .error .malformed

end DispatchPlan

end StagedQuery
