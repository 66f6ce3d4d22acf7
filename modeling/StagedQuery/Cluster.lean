import StagedQuery.Error
import StagedQuery.Sorting

/-!
# Clusters

What the planner knows of the machines: the broker that collects results, the
servers that may run stages, and where the segments of each table lie. A cluster
comes as a fixed description, in which servers stand in any order and may be
repeated.

Tables refer to servers by instance id; the first server with that id is meant
(`StagedQuery.Cluster.server?`).
-/

namespace StagedQuery

/-- The segments of one table that each instance holds. -/
abbrev Holdings := Std.ExtTreeMap String (List String)

/-- A description of the machines and of where the tables lie. -/
structure Cluster where
  /-- The server that runs the root stage. -/
  broker : Server
  /-- The servers that may run the other stages. -/
  servers : List Server
  /-- For each table, the segments that each instance holds. -/
  tables : Std.ExtTreeMap String Holdings
  deriving DecidableEq

namespace Cluster

/-- A cluster without tables. -/
def ofServers (broker : Server) (servers : List Server) : Cluster := ⟨broker, servers, ∅⟩

/-- The cluster with `segments` of `table` added to those that an instance
holds. -/
def place (cluster : Cluster) (table instanceId : String) (segments : List String) : Cluster :=
  { cluster with
    tables := cluster.tables.alter table fun placement? =>
      some ((placement?.getD ∅).alter instanceId fun held? => some (held?.getD [] ++ segments)) }

/-- The servers, each once and in order. -/
def orderedServers (cluster : Cluster) : List Server :=
  (cluster.servers.foldl (fun servers server => servers.insert server)
    (∅ : Std.ExtTreeSet Server)).toList

/-- The server that goes by an instance id. -/
def server? (cluster : Cluster) (instanceId : String) : Option Server :=
  cluster.servers.find? fun server => server.instanceId == instanceId

/-- The server that goes by an instance id which `table` refers to. -/
def serverFor (cluster : Cluster) (table instanceId : String) : Except PlanError Server :=
  match cluster.server? instanceId with
  | some server => .ok server
  | none => .error (.planning (.unknownInstance table instanceId))

/-- **The servers that hold segments of a table**, in order, each with its
segments. Instances without segments are passed over, also where the cluster has
no server for them. -/
def holders (cluster : Cluster) (table : String) :
    Except PlanError (List (Server × List String)) :=
  match cluster.tables[table]? with
  | none => .error (.planning (.unknownTable table))
  | some placement => do
    let held := placement.toList.filter fun (_, segments) => !segments.isEmpty
    let located ← held.mapM fun (instanceId, segments) => do
      return (← cluster.serverFor table instanceId, segments)
    return sortBy (·.1) located

end Cluster

end StagedQuery
