import StagedQuery.Cluster.Server
import StagedQuery.Text.Numeral
import StagedQuery.Text.Quoted

/-!
# What can go wrong

Every refusal of the library is a `StagedQuery.PlanError`. It records the cause
– which node, stage, worker or table is at fault – and nothing of the wording;
the wording is `StagedQuery.PlanError.message`, in one place for all causes.

The causes fall into five kinds (`StagedQuery.ErrorKind`): a plan whose parts do
not fit together, a walk that reaches a border it cannot cross, a query that
cannot be planned, settings or files that make no sense, and a file that cannot
be read. None of them is transient.
-/

namespace StagedQuery

/-! ### Causes -/

/-- Parts of a plan do not fit together. -/
inductive StructuralFault where
  /-- A node has a number of inputs that its operator does not take. -/
  | wrongInputCount (operator : String) (node : NodeId) (stage : StageId) (found : Nat)
  /-- A node that should have one input has none or several. -/
  | notUnary (operator : String) (node : NodeId) (stage : StageId) (found : Nat)
  /-- A stage is named that the plan does not have. -/
  | unknownStage (stage : StageId)
  /-- A stage has no workers assigned. -/
  | unassignedStage (stage : StageId)
  /-- A stage has no mailboxes. -/
  | unwiredStage (stage : StageId)
  /-- There are workers or mailboxes for a stage that does not exist. -/
  | strayStage (stage : StageId)
  /-- A worker of a stage is not described. -/
  | undescribedWorker (stage : StageId) (worker : WorkerId)
  /-- A worker does not know where to send rows for a receiving stage. -/
  | missingMailboxes (stage : StageId) (worker : WorkerId) (receiver : StageId)
  /-- A stage sends rows, but not to a stage that receives from it. -/
  | unfedReceiver (sender receiver : StageId)
  /-- A stage is received from, but its root sends no rows. -/
  | unsentRows (sender receiver : StageId) (operator : String)
  /-- The root stage does not run exactly one worker. -/
  | rootWorkerCount (root : StageId) (found : Nat)
  /-- A stage is filed under the id of another. -/
  | misfiledStage (stage key : StageId)
  /-- A stage carries the workers of another. -/
  | foreignAssignment (stage owner : StageId)
  /-- A stage has an assignment without workers. -/
  | idleStage (stage : StageId)
  /-- The workers assigned are not the workers described. -/
  | workerMismatch (stage : StageId) (assigned described : Std.ExtTreeSet WorkerId)
  /-- A worker is described under the id of another. -/
  | mislabelledWorker (stage : StageId) (worker described : WorkerId)
  /-- A worker is described as running on a server that it is not assigned to. -/
  | misplacedWorker (stage : StageId) (worker : WorkerId) (server : Server)
  /-- The mailboxes of a worker for a receiving stage are missing or out of order. -/
  | unorderedMailboxes (stage : StageId) (worker : WorkerId) (receiver : StageId)
  /-- No chain of borders leads from the root stage to a stage. -/
  | unreachableStage (stage root : StageId)
  /-- A node claims to belong to a stage other than the one that holds it. -/
  | strayNode (operator : String) (node : NodeId) (claimed holder : StageId)
  /-- Two nodes have the same id. -/
  | repeatedNode (node : NodeId)
  /-- A send is not the root of its stage. -/
  | buriedSend (node : NodeId) (stage : StageId)
  /-- A send has no receivers, or has them out of order. -/
  | unorderedReceivers (node : NodeId) (receivers : List StageId)
  /-- A stage is sent rows that it does not receive. -/
  | unreceivedRows (receiver sender : StageId)
  /-- A stage receives from itself. -/
  | ownReceiver (node : NodeId) (stage : StageId)
  /-- A stage that is received from runs no workers. -/
  | idleSender (sender : StageId) (receive : NodeId)
  /-- The root stage runs no worker. -/
  | idleRoot (root : StageId)
  /-- A server runs no worker of a stage. -/
  | idleServer (server : Server) (stage : StageId)
  deriving DecidableEq

/-- A query cannot be planned on a cluster. -/
inductive PlanningFault where
  /-- The query has been cut into stages already. -/
  | alreadyCut
  /-- The cluster does not know a table. -/
  | unknownTable (table : String)
  /-- A part of a table lies on a server that the cluster does not have. -/
  | unknownInstance (table instanceId : String)
  /-- No server holds any part of the tables that a stage scans. -/
  | unplacedTables (stage : StageId) (tables : List String)
  /-- There is no server for a stage that may run anywhere. -/
  | noServers (stage : StageId)
  deriving DecidableEq

/-- A setting has a value that makes no sense. -/
inductive SettingsFault where
  /-- No workers are to be placed on a server. -/
  | noWorkersPerServer
  /-- No servers are to be used. -/
  | noServersAllowed
  /-- A variable of the environment is not a number. -/
  | notANumber (setting value : String) (fault : Text.NumeralFault)
  deriving DecidableEq

/-- A file cannot be read. -/
inductive FileFault where
  /-- There is no such file. -/
  | notFound
  /-- The caller may not read it. -/
  | permissionDenied
  /-- A part of the path that should be a directory is not one. -/
  | notADirectory
  /-- The path names a directory. -/
  | isADirectory
  /-- The path, or a part of it, is longer than the system allows. -/
  | nameTooLong
  /-- The file does not hold text. -/
  | notText
  deriving DecidableEq, Repr

/-- The cause of a refusal. -/
inductive PlanError where
  /-- Parts of a plan do not fit together. -/
  | structural (fault : StructuralFault)
  /-- A walk reached an exchange, which only cutting can turn into a border. -/
  | loneExchange (node : NodeId) (stage : StageId)
  /-- The query cannot be planned. -/
  | planning (fault : PlanningFault)
  /-- A setting makes no sense. -/
  | settings (fault : SettingsFault)
  /-- A file does not hold what it should. -/
  | undecodable (path : String)
  /-- A file holds a plan that is refused. -/
  | rejected (path : String) (cause : PlanError)
  /-- A file cannot be read. -/
  | file (fault : FileFault)
  deriving DecidableEq

/-! ### Kinds -/

/-- The five kinds of refusal. -/
inductive ErrorKind where
  /-- Parts of a plan do not fit together. -/
  | structuralInconsistency
  /-- A walk cannot go on. -/
  | unsupportedTraversal
  /-- A query cannot be planned. -/
  | planning
  /-- A setting or an input file makes no sense. -/
  | invalidSettings
  /-- A file cannot be read. -/
  | io
  deriving DecidableEq, Repr

/-- What a kind is called in reports. -/
def ErrorKind.name : ErrorKind → String
  | .structuralInconsistency => "StructuralInconsistency"
  | .unsupportedTraversal => "UnsupportedTraversal"
  | .planning => "Planning"
  | .invalidSettings => "InvalidConfig"
  | .io => "Io"

/-- The words that open a message of the kind. -/
def ErrorKind.opening : ErrorKind → String
  | .structuralInconsistency => "structural inconsistency"
  | .unsupportedTraversal => "unsupported traversal"
  | .planning => "planning error"
  | .invalidSettings => "invalid configuration"
  | .io => "io error"

/-- The kind of a cause. -/
def PlanError.kind : PlanError → ErrorKind
  | .structural _ => .structuralInconsistency
  | .loneExchange .. => .unsupportedTraversal
  | .planning _ => .planning
  | .settings _ | .undecodable _ | .rejected .. => .invalidSettings
  | .file _ => .io

/-! ### Wording -/

/-- The wording of a structural fault. -/
def StructuralFault.text : StructuralFault → String
  | .wrongInputCount operator node stage found =>
    s!"{operator} node {node} in stage {stage} has {found} inputs"
  | .notUnary operator node stage found =>
    s!"{operator} node {node} in stage {stage} expects exactly one input, found {found}"
  | .unknownStage stage => s!"stage {stage} is not part of the plan"
  | .unassignedStage stage => s!"no worker assignment for stage {stage}"
  | .unwiredStage stage => s!"no mailbox metadata for stage {stage}"
  | .strayStage stage => s!"assignment or mailbox metadata for unknown stage {stage}"
  | .undescribedWorker stage worker => s!"stage {stage} has no metadata for worker {worker}"
  | .missingMailboxes stage worker receiver =>
    s!"stage {stage} worker {worker} has no mailbox entry for receiver stage {receiver}"
  | .unfedReceiver sender receiver =>
    s!"mailbox send of stage {sender} does not feed stage {receiver}"
  | .unsentRows sender receiver operator =>
    s!"stage {sender} is received by stage {receiver} but is rooted at {operator}"
  | .rootWorkerCount root found =>
    s!"root stage {root} must run exactly one worker, found {found}"
  | .misfiledStage stage key => s!"stage {stage} is registered under id {key}"
  | .foreignAssignment stage owner =>
    s!"stage {stage} carries the worker assignment of stage {owner}"
  | .idleStage stage => s!"stage {stage} has no workers"
  | .workerMismatch stage assigned described =>
    let list (workers : Std.ExtTreeSet WorkerId) := Text.braced (workers.toList.map Id.labelled)
    s!"stage {stage} assigns workers {list assigned} but describes {list described}"
  | .mislabelledWorker stage worker described =>
    s!"stage {stage} worker {worker} metadata is labelled {described}"
  | .misplacedWorker stage worker server =>
    s!"stage {stage} worker {worker} metadata names server {server}"
  | .unorderedMailboxes stage worker receiver =>
    s!"stage {stage} worker {worker} endpoints to stage {receiver} are empty or unordered"
  | .unreachableStage stage root => s!"stage {stage} is not reachable from root stage {root}"
  | .strayNode operator node claimed holder =>
    s!"{operator} node {node} claims stage {claimed} but sits in stage {holder}"
  | .repeatedNode node => s!"node id {node} appears more than once"
  | .buriedSend node stage => s!"mailbox send {node} is not the root of stage {stage}"
  | .unorderedReceivers node receivers =>
    let shown := Text.bracketed (receivers.map Id.labelled)
    s!"mailbox send {node} has empty or unordered receivers {shown}"
  | .unreceivedRows receiver sender =>
    s!"stage {receiver} has no mailbox receive for sender stage {sender}"
  | .ownReceiver node stage => s!"mailbox receive {node} reads from its own stage {stage}"
  | .idleSender sender receive =>
    s!"sender stage {sender} of mailbox receive {receive} has no workers"
  | .idleRoot root => s!"root stage {root} has no worker"
  | .idleServer server stage => s!"server {server} runs no worker of stage {stage}"

/-- The wording of a planning fault. -/
def PlanningFault.text : PlanningFault → String
  | .alreadyCut =>
    "plan is already fragmented: found a mailbox node before stage cutting"
  | .unknownTable table => s!"unknown table: {table}"
  | .unknownInstance table instanceId =>
    s!"table {table} has segments on unknown server {instanceId}"
  | .unplacedTables stage tables =>
    s!"no server holds segments for stage {stage} tables {Text.quotedList tables}"
  | .noServers stage => s!"no servers available for intermediate stage {stage}"

/-- The wording of a fault in a setting. -/
def SettingsFault.text : SettingsFault → String
  | .noWorkersPerServer => "intermediate_workers_per_server must be at least 1"
  | .noServersAllowed => "max_intermediate_servers must be at least 1 when set"
  | .notANumber setting value fault =>
    s!"{setting}={Text.quoted value} is not a number: {fault.text}"

/-- The number under which the system knows a fault of a file; a file that is
read and holds no text is no fault of the system. -/
def FileFault.code? : FileFault → Option Nat
  | .notFound => some 2
  | .permissionDenied => some 13
  | .notADirectory => some 20
  | .isADirectory => some 21
  | .nameTooLong => some 36
  | .notText => none

/-- The fault that the system knows under a number. -/
def FileFault.ofCode? (code : Nat) : Option FileFault :=
  [FileFault.notFound, .permissionDenied, .notADirectory, .isADirectory, .nameTooLong].find?
    fun fault => fault.code? = some code

/-- What a fault of a file is called in reports. -/
def FileFault.name : FileFault → String
  | .notFound => "NotFound"
  | .permissionDenied => "PermissionDenied"
  | .notADirectory => "NotADirectory"
  | .isADirectory => "IsADirectory"
  | .nameTooLong => "InvalidFilename"
  | .notText => "InvalidData"

/-- What a fault of a file is. -/
def FileFault.description : FileFault → String
  | .notFound => "No such file or directory"
  | .permissionDenied => "Permission denied"
  | .notADirectory => "Not a directory"
  | .isADirectory => "Is a directory"
  | .nameTooLong => "File name too long"
  | .notText => "stream did not contain valid UTF-8"

/-- The wording of a fault of a file, which ends with the system's number. -/
def FileFault.text (fault : FileFault) : String :=
  match fault.code? with
  | some code => s!"{fault.description} (os error {code})"
  | none => fault.description

/-- The words that stand for what a reader of a file found wrong with it. -/
def undecodableText : String := "<decode>"

/-- The wording of a cause, without the words for its kind; the cause of a
rejected file is told in full. -/
def PlanError.text : PlanError → String
  | .structural fault => fault.text
  | .loneExchange node stage =>
    s!"exchange node {node} in stage {stage} must not be visited outside " ++
      "a mailbox send/receive pair"
  | .planning fault => fault.text
  | .settings fault => fault.text
  | .undecodable path => s!"{path}: {undecodableText}"
  | .rejected path cause => s!"{path}: {cause.kind.opening}: {cause.text}"
  | .file fault => fault.text

/-- **The message of a refusal**: the words for its kind, then its wording. -/
def PlanError.message (error : PlanError) : String :=
  error.kind.opening ++ ": " ++ error.text

/-- Fails with a structural fault. -/
abbrev structuralError {α : Type} (fault : StructuralFault) : Except PlanError α :=
  .error (.structural fault)

end StagedQuery
