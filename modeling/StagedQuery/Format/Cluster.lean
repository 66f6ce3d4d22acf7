import StagedQuery.Cluster
import StagedQuery.Settings
import StagedQuery.Json.Reading
import StagedQuery.Json.Writing

/-!
# The data format of servers, clusters and settings

A cluster may leave out its tables, and settings may leave out anything; what is
left out has its standard value.
-/

namespace StagedQuery

open Json

namespace Server

/-- A server as a record. -/
def toJson (server : Server) : Json :=
  ofFields [("hostname", ofString server.hostname),
    ("query_service_port", .ofNat server.queryPort.toNat),
    ("mailbox_port", .ofNat server.mailboxPort.toNat),
    ("instance_id", ofString server.instanceId)]

/-- Reads a server. -/
def ofJson? : Reader Server :=
  withRecord? ["hostname", "query_service_port", "mailbox_port", "instance_id"] 4
    fun _ fields => do
      let [some hostname, some queryPort, some mailboxPort, some instanceId] := fields | none
      return ⟨← text? hostname, ← uint16? queryPort, ← uint16? mailboxPort, ← text? instanceId⟩

end Server

namespace Cluster

/-- Where the tables lie. -/
def tablesToJson (tables : Std.ExtTreeMap String Holdings) : Json :=
  ofTextMap (ofTextMap ofTexts) tables

/-- Reads where the tables lie. -/
def tablesOfJson? : Reader (Std.ExtTreeMap String Holdings) := textMap? (textMap? texts?)

/-- A cluster as a record. -/
def toJson (cluster : Cluster) : Json :=
  ofFields [("broker", cluster.broker.toJson), ("servers", ofList Server.toJson cluster.servers),
    ("tables", tablesToJson cluster.tables)]

/-- Reads a cluster. -/
def ofJson? : Reader Cluster :=
  withRecord? ["broker", "servers", "tables"] 2 fun room fields => do
    let [some broker, some servers, tables] := fields | none
    return ⟨← Server.ofJson? room broker, ← list? Server.ofJson? room servers,
      ← fieldOr? ∅ (tablesOfJson? room) tables⟩

end Cluster

namespace Settings

/-- Settings as a record. -/
def toJson (settings : Settings) : Json :=
  ofFields [("intermediate_workers_per_server", .ofNat settings.workersPerServer.toNat),
    ("max_intermediate_servers", ofOption (fun n => .ofNat (UInt64.toNat n)) settings.serverLimit)]

/-- Reads settings. -/
def ofJson? : Reader Settings :=
  withRecord? ["intermediate_workers_per_server", "max_intermediate_servers"] 0
    fun _ fields => do
      let [workersPerServer, serverLimit] := fields | none
      return ⟨← fieldOr? standard.workersPerServer uint32? workersPerServer,
        ← fieldOr? standard.serverLimit (optional? uint64?) serverLimit⟩

end Settings

end StagedQuery
