import StagedQuery.Assignment
import StagedQuery.Sorting

/-!
# Mailboxes

The address at which one worker takes rows (`StagedQuery.Mailbox`), and what a
worker knows of the workers it exchanges rows with
(`StagedQuery.WorkerLinks`).

Mailboxes order by port, then host name, then worker
(`StagedQuery.Mailbox.compare_eq`); lists of mailboxes are kept in this order,
so that reading a plan twice shows the same.
-/

namespace StagedQuery

/-- The address of a worker's mailbox. -/
structure Mailbox where
  /-- The host of the worker's server. -/
  hostname : String
  /-- The port that the server's mailboxes listen on. -/
  port : UInt16
  /-- The worker. -/
  worker : WorkerId
  deriving DecidableEq, Repr

namespace Mailbox

/-- The mailbox of a worker that runs on a server. -/
def onServer (server : Server) (worker : WorkerId) : Mailbox :=
  ⟨server.hostname, server.mailboxPort, worker⟩

/-- The address as it is shown, with the worker between brackets. -/
def text (m : Mailbox) : String :=
  m.hostname ++ ":" ++ toString m.port.toNat ++ "|[" ++ m.worker.text ++ "]"

instance : ToString Mailbox := ⟨text⟩

/-- The order of mailboxes: by port, host name and worker, in this order of
importance. -/
def order : Mailbox → Mailbox → Ordering :=
  compareLex (compareOn port) (compareLex (compareOn hostname) (compareOn worker))

instance : Ord Mailbox := ⟨order⟩

theorem compare_eq (a b : Mailbox) :
    compare a b = (compare a.port b.port).then ((compare a.hostname b.hostname).then
      (compare a.worker b.worker)) := rfl

instance : Std.TransOrd Mailbox := by
  change Std.TransCmp order
  unfold order
  infer_instance

instance : Std.LawfulEqOrd Mailbox where
  eq_of_compare {a b} h := by
    simp only [compare_eq, Ordering.then_eq_eq] at h
    obtain ⟨port, hostname, worker⟩ := h
    cases a; cases b
    simp only [Mailbox.mk.injEq]
    exact ⟨Std.LawfulEqOrd.eq_of_compare hostname, Std.LawfulEqOrd.eq_of_compare port,
      Std.LawfulEqOrd.eq_of_compare worker⟩

/-- The mailboxes in order. -/
def sort (mailboxes : List Mailbox) : List Mailbox := sortBy id mailboxes

/-- Whether each mailbox comes at or after the one in front of it. -/
def isSorted (mailboxes : List Mailbox) : Bool := isSortedBy id mailboxes

end Mailbox

/-- What a worker knows of the workers it exchanges rows with. -/
structure WorkerLinks where
  /-- The worker. -/
  worker : WorkerId
  /-- The server that runs it. -/
  server : Server
  /-- For each stage it sends to, the mailboxes of that stage's workers. -/
  sends : StageMap (List Mailbox)
  /-- For each stage it receives from, the mailboxes of that stage's workers. -/
  receives : StageMap (List Mailbox)
  deriving DecidableEq

/-- The mailboxes of all workers of a stage, in order. -/
def Assignment.mailboxes (assignment : Assignment) : List Mailbox :=
  Mailbox.sort (assignment.destinations.map fun (server, worker) => .onServer server worker)

end StagedQuery
