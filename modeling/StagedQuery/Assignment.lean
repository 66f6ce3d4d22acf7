import StagedQuery.Assignment.Position
import StagedQuery.Cluster.Server

/-!
# Worker assignments

Which servers run the workers of a stage, and which segments each worker reads.
An assignment lists servers with their workers; its servers are in order if it
was grown from the empty one by `StagedQuery.Assignment.add`, but
one that was read from a file may list servers and workers in any way, and the
questions below answer for it as it is.
-/

namespace StagedQuery

/-- The workers of a stage that one server runs. -/
structure Hosting where
  /-- The server. -/
  server : Server
  /-- The workers it runs, in the order in which they were added. -/
  workers : List WorkerId
  deriving DecidableEq, Repr

/-- A set of segment names. -/
abbrev SegmentSet := Std.ExtTreeSet String

/-- The workers of a stage. -/
structure Assignment where
  /-- The stage. -/
  stage : StageId
  /-- The servers that run workers of it. -/
  servers : List Hosting
  /-- The segments that its workers read; only workers that scan have any. -/
  segments : WorkerMap SegmentSet
  deriving DecidableEq

namespace Assignment

/-- The assignment of a stage that has no workers yet. -/
def empty (stage : StageId) : Assignment := ⟨stage, [], ∅⟩

/-! ### What an assignment says -/

/-- Whether there are no workers. -/
def isEmpty (assignment : Assignment) : Bool :=
  assignment.servers.all fun s => s.workers.isEmpty

/-- The workers that some servers list, each with its server, server by server. -/
def destinationsOf (servers : List Hosting) : List (Server × WorkerId) :=
  servers.flatMap fun s => s.workers.map fun worker => (s.server, worker)

/-- **The destinations of a stage**: each worker with its server, server by
server. -/
def destinations (assignment : Assignment) : List (Server × WorkerId) :=
  destinationsOf assignment.servers

/-- How many workers there are. -/
def size (assignment : Assignment) : Nat := assignment.destinations.length

/-- The workers, server by server. -/
def workers (assignment : Assignment) : List WorkerId :=
  assignment.destinations.map (·.2)

/-- The first server that runs a worker. -/
def host? (assignment : Assignment) (worker : WorkerId) : Option Server :=
  (assignment.servers.find? fun s => s.workers.contains worker).map (·.server)

/-- The workers that the first entry of a server lists, if it has one. -/
def workersOf (servers : List Hosting) (server : Server) : Option (List WorkerId) :=
  (servers.find? fun s => s.server == server).map (·.workers)

/-- The workers that a server runs, if it is listed. -/
def hosted? (assignment : Assignment) (server : Server) : Option (List WorkerId) :=
  workersOf assignment.servers server

/-- The segments that a worker reads, if it scans. -/
def reads? (assignment : Assignment) (worker : WorkerId) : Option SegmentSet :=
  assignment.segments[worker]?

/-! ### Adding workers -/

/-- The number of a worker that is added: as many as there are workers. -/
def nextWorker (assignment : Assignment) : WorkerId := Id.ofNat assignment.size

/-- The servers with more workers on `server`, which is put in its place if it is
not listed. -/
def hostWorkers (servers : List Hosting) (server : Server) (workers : List WorkerId) :
    List Hosting :=
  match findPosition (fun s => compare s.server server) servers with
  | .found index => servers.modify index fun s => { s with workers := s.workers ++ workers }
  | .missing index => servers.insertIdx index ⟨server, workers⟩

/-- **Adds a worker on a server**: its id, and the assignment with it. The
segments it reads are recorded if it scans. -/
def add (assignment : Assignment) (server : Server) (segments? : Option SegmentSet) :
    WorkerId × Assignment :=
  let worker := assignment.nextWorker
  (worker,
    { assignment with
      servers := hostWorkers assignment.servers server [worker]
      segments := match segments? with
        | some segments => assignment.segments.insert worker segments
        | none => assignment.segments })

/-- Adds `count` workers, one or more, on a server. They read no segments. -/
def addMany (assignment : Assignment) (server : Server) (count : Nat) : Assignment :=
  let workers := (List.range' assignment.size count).map Id.ofNat
  { assignment with servers := hostWorkers assignment.servers server workers }

end Assignment

end StagedQuery
