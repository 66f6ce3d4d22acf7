import StagedQuery.Id

/-!
# Servers

One query server process, as the planner sees it. Servers order by host name,
then query port, then mailbox port, then instance id
(`StagedQuery.Server.compare_eq`); this order decides which worker gets which
id and in which order workers are shown.

Strings order by code point.
-/

namespace StagedQuery

/-- A query server process. -/
structure Server where
  /-- The host it runs on. -/
  hostname : String
  /-- The port that takes queries; it is the one shown with the server. -/
  queryPort : UInt16
  /-- The port that its mailboxes listen on. -/
  mailboxPort : UInt16
  /-- The name under which tables refer to the server. -/
  instanceId : String
  deriving DecidableEq, Repr

namespace Server

/-- The server on a host, under the instance id that its host and query port
make. -/
def onHost (hostname : String) (queryPort mailboxPort : UInt16) : Server :=
  ⟨hostname, queryPort, mailboxPort, "Server_" ++ hostname ++ "_" ++ toString queryPort.toNat⟩

/-- The host and query port of the server. -/
def text (s : Server) : String := s.hostname ++ ":" ++ toString s.queryPort.toNat

instance : ToString Server := ⟨text⟩

/-- The order of servers: by host name, query port, mailbox port and instance
id, in this order of importance. -/
def order : Server → Server → Ordering :=
  compareLex (compareOn hostname)
    (compareLex (compareOn queryPort) (compareLex (compareOn mailboxPort) (compareOn instanceId)))

instance : Ord Server := ⟨order⟩

theorem compare_eq (a b : Server) :
    compare a b = (compare a.hostname b.hostname).then ((compare a.queryPort b.queryPort).then
      ((compare a.mailboxPort b.mailboxPort).then (compare a.instanceId b.instanceId))) := rfl

instance : Std.TransOrd Server := by
  change Std.TransCmp order
  unfold order
  infer_instance

instance : Std.LawfulEqOrd Server where
  eq_of_compare {a b} h := by
    simp only [compare_eq, Ordering.then_eq_eq] at h
    obtain ⟨hostname, queryPort, mailboxPort, instanceId⟩ := h
    cases a; cases b
    simp only [Server.mk.injEq]
    exact ⟨Std.LawfulEqOrd.eq_of_compare hostname, Std.LawfulEqOrd.eq_of_compare queryPort,
      Std.LawfulEqOrd.eq_of_compare mailboxPort, Std.LawfulEqOrd.eq_of_compare instanceId⟩

end Server

end StagedQuery
