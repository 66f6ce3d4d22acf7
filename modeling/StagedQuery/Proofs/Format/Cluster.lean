import StagedQuery.Proofs.Json.StandsFor

/-!
# Servers, clusters and settings as JSON

What is written for a server, a cluster or settings stands for it. Writing gives every field, also
those that may be left out, so that no standard value is ever read in place of one.
-/

namespace StagedQuery

open Json

theorem Server.standsFor (server : Server) : StandsFor ofJson? server.toJson server := by
  refine .record (by decide) rfl ?_ fun room b => ?_
  · simp [Written.nat, Written.string]
  · simp

theorem Cluster.standsFor (cluster : Cluster) : StandsFor ofJson? cluster.toJson cluster := by
  have hbroker := cluster.broker.standsFor
  have hservers : StandsFor (list? Server.ofJson?) (ofList Server.toJson cluster.servers)
      cluster.servers := .list Server.standsFor
  have htables : StandsFor tablesOfJson? (tablesToJson cluster.tables) cluster.tables :=
    .textMap fun _ => .textMap standsFor_ofTexts
  refine .record (by decide) rfl ?_ fun room b => ?_
  · simp [hbroker.written, hservers.written, htables.written]
  · simp [hbroker.read_iff, hservers.read_iff, htables.read_iff, fieldOr?,
      Option.bind_eq_some_iff, and_assoc]

theorem Settings.standsFor (settings : Settings) : StandsFor ofJson? settings.toJson settings := by
  refine .record (by decide) rfl ?_ fun room b => ?_
  · simp [Written.nat, written_ofOption]
  · simp [fieldOr?]

end StagedQuery
