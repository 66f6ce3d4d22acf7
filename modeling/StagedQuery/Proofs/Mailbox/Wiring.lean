import Mathlib.Data.List.Induction
import StagedQuery.Mailbox.Wiring
import StagedQuery.Proofs.Keyed
import StagedQuery.Proofs.Outcome

/-!
# What the workers know

Wiring goes through the borders one by one, and each border is told to the workers of its
sender and then to those of its receiver. What a worker knows at any moment follows from
the borders that have been told to senders and those that have been told to receivers
(`StagedQuery.WorkerLinks.Knows`): for a stage that it exchanges rows with, the mailboxes
of that stage, and nothing for any other stage. Telling one stage something leaves what
the workers of all others know (`StagedQuery.Wiring.Wired.tell`), so a border may be told
to its two ends separately, and a border that is wired twice does no harm.

Wiring succeeds if every stage has an assignment and every receiver is among the stages
(`StagedQuery.wireMailboxes_ok`).
-/

namespace StagedQuery

/-- **What a worker of the stage `stage` knows** once the borders `sent` have been told to
their senders and the borders `received` to their receivers. -/
structure WorkerLinks.Knows (assignments : StageMap Assignment) (sent received : List Border)
    (stage : StageId) (assignment : Assignment) (worker : WorkerId) (links : WorkerLinks) :
    Prop where
  /-- It is described under its own id. -/
  labelled : links.worker = worker
  /-- It runs on the server that it was described on. -/
  hosted : assignment.describe[worker]?.map (·.server) = some links.server
  /-- It knows the mailboxes of the stages it sends to. -/
  sends : ∀ receiver, links.sends[receiver]? =
    if (stage, receiver) ∈ sent then assignments[receiver]?.map (·.mailboxes) else none
  /-- It knows the mailboxes of the stages it receives from. -/
  receives : ∀ sender, links.receives[sender]? =
    if (sender, stage) ∈ received then assignments[sender]?.map (·.mailboxes) else none

/-- **What is known in all stages**, of which `listed` are the ids. -/
structure Wiring.Wired (assignments : StageMap Assignment) (listed : List StageId)
    (sent received : List Border) (wiring : Wiring) : Prop where
  /-- The stages are those listed. -/
  stages : ∀ stage, stage ∈ wiring ↔ stage ∈ listed
  /-- The workers of a stage are those assigned to it, and each knows what it should. -/
  workers : ∀ (stage : StageId) (workers : WorkerMap WorkerLinks), wiring[stage]? = some workers →
    ∃ assignment : Assignment, assignments[stage]? = some assignment ∧
      (∀ worker, worker ∈ assignment.workers ↔ worker ∈ workers) ∧
      ∀ (worker : WorkerId) (links : WorkerLinks), workers[worker]? = some links →
        links.Knows assignments sent received stage assignment worker

/-! ### Before any border -/

theorem assignmentFor_eq_ok {assignments : StageMap Assignment} {stage : StageId}
    {assignment : Assignment} :
    assignmentFor assignments stage = .ok assignment ↔ assignments[stage]? = some assignment := by
  rw [assignmentFor]
  cases assignments[stage]? with
  | some found => simp
  | none => simp [structuralError]

namespace Assignment

theorem mem_foldl_describe {destinations : List (Server × WorkerId)}
    {before : WorkerMap WorkerLinks} {worker : WorkerId} :
    worker ∈ destinations.foldl (fun workers entry =>
        workers.insert entry.2 ⟨entry.2, entry.1, ∅, ∅⟩) before ↔
      worker ∈ destinations.map (·.2) ∨ worker ∈ before := by
  induction destinations generalizing before with
  | nil => simp
  | cons entry rest ih =>
    rw [List.foldl_cons, ih, Std.ExtTreeMap.mem_insert, List.map_cons, List.mem_cons,
      Std.LawfulEqCmp.compare_eq_iff_eq, or_left_comm, or_assoc, eq_comm (a := entry.2)]

/-- The workers that are described are those that are assigned. -/
theorem mem_describe {assignment : Assignment} {worker : WorkerId} :
    worker ∈ assignment.describe ↔ worker ∈ assignment.workers :=
  mem_foldl_describe.trans (or_iff_left Std.ExtTreeMap.not_mem_empty)

/-- **A worker is described on the last server that is assigned to it**, and knows nothing. -/
theorem getElem?_describe {assignment : Assignment} {worker : WorkerId} {links : WorkerLinks}
    (h : assignment.describe[worker]? = some links) :
    ∃ server before after, assignment.destinations = before ++ (server, worker) :: after ∧
      (∀ later ∈ after, later.2 ≠ worker) ∧ links = ⟨worker, server, ∅, ∅⟩ := by
  rw [describe] at h
  generalize assignment.destinations = destinations at h ⊢
  induction destinations using List.reverseRecOn with
  | nil =>
    rw [List.foldl_nil, Std.ExtTreeMap.getElem?_empty] at h
    exact nomatch h
  | append_singleton rest last ih =>
    -- an entry in front of the last one counts only if the last one is of another worker
    rw [List.foldl_append, List.foldl_cons, List.foldl_nil] at h
    rcases getElem?_insert_eq_some.mp h with ⟨rfl, rfl⟩ | ⟨hne, h⟩
    · exact ⟨last.1, rest, [], rfl, nofun, rfl⟩
    · obtain ⟨server, before, after, rfl, hlater, hlinks⟩ := ih h
      refine ⟨server, before, after ++ [last], by simp, fun later hmem => ?_, hlinks⟩
      rcases List.mem_append.mp hmem with hmem | hmem
      · exact hlater later hmem
      · rwa [List.mem_singleton.mp hmem]

/-- A worker knows nothing to begin with. -/
theorem knows_describe {assignments : StageMap Assignment} {stage : StageId}
    {assignment : Assignment} {worker : WorkerId} {links : WorkerLinks}
    (h : assignment.describe[worker]? = some links) :
    links.Knows assignments [] [] stage assignment worker := by
  have hhosted := congrArg (Option.map (·.server)) h
  obtain ⟨server, before, after, -, -, rfl⟩ := getElem?_describe h
  exact ⟨rfl, hhosted, fun _ => Std.ExtTreeMap.getElem?_empty,
    fun _ => Std.ExtTreeMap.getElem?_empty⟩

end Assignment

/-- **The workers of all stages can be described** if every stage has an assignment. -/
theorem describeWorkers_ok {stages : List Stage} {assignments : StageMap Assignment}
    (assigned : ∀ stage ∈ stages, stage.id ∈ assignments) :
    ∃ wiring, describeWorkers stages assignments = .ok wiring ∧
      Wiring.Wired assignments (stages.map (·.id)) [] [] wiring := by
  refine foldlM_ok_of_invariant (fun (before : List Stage) wiring =>
    Wiring.Wired assignments (before.map (·.id)) [] [] wiring) ?_ ?_
  · refine ⟨fun stage => ?_, fun stage workers h => ?_⟩
    · exact iff_of_false Std.ExtTreeMap.not_mem_empty List.not_mem_nil
    · rw [Std.ExtTreeMap.getElem?_empty] at h
      exact nomatch h
  · intro before stage hstage wiring hwired
    obtain ⟨assignment, hassignment⟩ := mem_iff_exists_entry.mp (assigned stage hstage)
    refine ⟨_, bind_eq_ok.mpr ⟨assignment, assignmentFor_eq_ok.mpr hassignment, rfl⟩,
      fun other => ?_, fun other workers h => ?_⟩
    · rw [Std.ExtTreeMap.mem_insert, hwired.stages, List.map_append, List.mem_append,
        Std.LawfulEqCmp.compare_eq_iff_eq, or_comm, List.map_singleton, List.mem_singleton,
        eq_comm (a := other)]
    · rcases getElem?_insert_eq_some.mp h with ⟨rfl, rfl⟩ | ⟨-, h⟩
      · exact ⟨assignment, hassignment, fun worker => Assignment.mem_describe.symm,
          fun worker links => Assignment.knows_describe⟩
      · exact hwired.workers other workers h

/-! ### Border by border -/

namespace WorkerLinks.Knows

variable {assignments : StageMap Assignment} {sent received : List Border} {stage : StageId}
  {assignment : Assignment} {worker : WorkerId} {links : WorkerLinks}

/-- A worker runs on the last server that is assigned to it. -/
theorem last (h : links.Knows assignments sent received stage assignment worker) :
    ∃ before after, assignment.destinations = before ++ (links.server, worker) :: after ∧
      ∀ later ∈ after, later.2 ≠ worker := by
  obtain ⟨first, hfirst, hserver⟩ := Option.map_eq_some_iff.mp h.hosted
  obtain ⟨server, before, after, hsplit, hlater, rfl⟩ := Assignment.getElem?_describe hfirst
  exact ⟨before, after, hserver ▸ hsplit, hlater⟩

theorem placed (h : links.Knows assignments sent received stage assignment worker) :
    (links.server, worker) ∈ assignment.destinations := by
  obtain ⟨before, after, hsplit, -⟩ := h.last
  exact hsplit ▸ List.mem_append_right _ List.mem_cons_self

/-- A worker that is told the mailboxes of a receiver. -/
theorem tellSend (h : links.Knows assignments sent received stage assignment worker)
    {receiver : StageId} {consumers : Assignment}
    (hconsumers : assignments[receiver]? = some consumers) :
    WorkerLinks.Knows assignments (sent ++ [(stage, receiver)]) received stage assignment worker
      { links with sends := links.sends.insert receiver consumers.mailboxes } := by
  refine ⟨h.labelled, h.hosted, fun other => ?_, h.receives⟩
  simp only [Std.ExtTreeMap.getElem?_insert, Std.LawfulEqCmp.compare_eq_iff_eq, h.sends]
  by_cases hother : receiver = other
  · subst hother
    simp [hconsumers]
  · simp [hother, Ne.symm hother]

/-- A worker that is told the mailboxes of a sender. -/
theorem tellReceive (h : links.Knows assignments sent received stage assignment worker)
    {sender : StageId} {producers : Assignment}
    (hproducers : assignments[sender]? = some producers) :
    WorkerLinks.Knows assignments sent (received ++ [(sender, stage)]) stage assignment worker
      { links with receives := links.receives.insert sender producers.mailboxes } := by
  refine ⟨h.labelled, h.hosted, h.sends, fun other => ?_⟩
  simp only [Std.ExtTreeMap.getElem?_insert, Std.LawfulEqCmp.compare_eq_iff_eq, h.receives]
  by_cases hother : sender = other
  · subst hother
    simp [hproducers]
  · simp [hother, Ne.symm hother]

/-- What is told to another sender plays no part. -/
theorem otherSend (h : links.Knows assignments sent received stage assignment worker)
    {sender receiver : StageId} (hne : stage ≠ sender) :
    links.Knows assignments (sent ++ [(sender, receiver)]) received stage assignment worker := by
  refine ⟨h.labelled, h.hosted, fun other => ?_, h.receives⟩
  simp [h.sends, hne]

/-- What is told to another receiver plays no part. -/
theorem otherReceive (h : links.Knows assignments sent received stage assignment worker)
    {sender receiver : StageId} (hne : stage ≠ receiver) :
    links.Knows assignments sent (received ++ [(sender, receiver)]) stage assignment worker := by
  refine ⟨h.labelled, h.hosted, h.sends, fun other => ?_⟩
  simp [h.receives, hne]

end WorkerLinks.Knows

namespace Wiring

variable {assignments : StageMap Assignment} {listed : List StageId}
  {sent received sent' received' : List Border} {wiring : Wiring}

/-- **Telling a stage something** changes what its workers know, and leaves what those of
all other stages know. -/
theorem Wired.tell (h : Wired assignments listed sent received wiring) {stage : StageId}
    (hlisted : stage ∈ listed) {news : WorkerLinks → WorkerLinks}
    (told : ∀ assignment worker links,
      WorkerLinks.Knows assignments sent received stage assignment worker links →
        (news links).Knows assignments sent' received' stage assignment worker)
    (others : ∀ other ≠ stage, ∀ assignment worker links,
      WorkerLinks.Knows assignments sent received other assignment worker links →
        links.Knows assignments sent' received' other assignment worker) :
    ∃ next, wiring.tell stage news = .ok next ∧ Wired assignments listed sent' received' next := by
  refine ⟨_, if_pos ((h.stages stage).mpr hlisted), fun other => ?_, fun other workers hother => ?_⟩
  · rw [Std.ExtTreeMap.mem_modify, h.stages]
  · simp only [Std.ExtTreeMap.getElem?_modify, Std.LawfulEqCmp.compare_eq_iff_eq] at hother
    -- the stage that is told, or another one
    split_ifs at hother with heq
    · subst heq
      obtain ⟨before, hbefore, rfl⟩ := Option.map_eq_some_iff.mp hother
      obtain ⟨assignment, hassignment, hworkers, hknows⟩ := h.workers stage before hbefore
      refine ⟨assignment, hassignment, fun worker => ?_, fun worker links hlinks => ?_⟩
      · rw [hworkers, Std.ExtTreeMap.mem_map]
      · rw [Std.ExtTreeMap.getElem?_map] at hlinks
        obtain ⟨old, hold, rfl⟩ := Option.map_eq_some_iff.mp hlinks
        exact told assignment worker old (hknows worker old hold)
    · obtain ⟨assignment, hassignment, hworkers, hknows⟩ := h.workers other workers hother
      exact ⟨assignment, hassignment, hworkers, fun worker links hlinks =>
        others other (Ne.symm heq) assignment worker links (hknows worker links hlinks)⟩

/-- **Wiring a border** between two stages that have workers. -/
theorem Wired.addBorder (h : Wired assignments listed sent received wiring) {border : Border}
    (hsender : border.1 ∈ listed) (hreceiver : border.2 ∈ listed)
    (assigned : ∀ stage ∈ listed, stage ∈ assignments) :
    ∃ next, wiring.addBorder assignments border = .ok next ∧
      Wired assignments listed (sent ++ [border]) (received ++ [border]) next := by
  obtain ⟨sender, receiver⟩ := border
  obtain ⟨producers, hproducers⟩ := mem_iff_exists_entry.mp (assigned sender hsender)
  obtain ⟨consumers, hconsumers⟩ := mem_iff_exists_entry.mp (assigned receiver hreceiver)
  -- first the sender is told, then the receiver; they may be the same stage
  obtain ⟨told, htold, hwired⟩ := h.tell hsender
    (fun assignment worker links hknows => hknows.tellSend hconsumers)
    fun other hne assignment worker links hknows => hknows.otherSend hne
  obtain ⟨next, hnext, hwired⟩ := hwired.tell hreceiver
    (fun assignment worker links hknows => hknows.tellReceive hproducers)
    fun other hne assignment worker links hknows => hknows.otherReceive hne
  refine ⟨next, ?_, hwired⟩
  exact bind_eq_ok.mpr ⟨producers, assignmentFor_eq_ok.mpr hproducers,
    bind_eq_ok.mpr ⟨consumers, assignmentFor_eq_ok.mpr hconsumers,
      bind_eq_ok.mpr ⟨told, htold, hnext⟩⟩⟩

end Wiring

theorem mem_borders {stages : List Stage} {border : Border} :
    border ∈ borders stages ↔
      ∃ stage ∈ stages, stage.id = border.1 ∧ border.2 ∈ stage.receivers := by
  simp only [borders, List.mem_flatMap, List.mem_map]
  constructor
  · rintro ⟨stage, hstage, receiver, hreceiver, rfl⟩
    exact ⟨stage, hstage, rfl, hreceiver⟩
  · rintro ⟨stage, hstage, hsender, hreceiver⟩
    exact ⟨stage, hstage, border.2, hreceiver, Prod.ext hsender rfl⟩

/-- **The mailboxes can be wired** if every stage has an assignment and every receiver is
among the stages; then every worker knows the mailboxes at the other end of each border. -/
theorem wireMailboxes_ok {stages : List Stage} {assignments : StageMap Assignment}
    (assigned : ∀ stage ∈ stages, stage.id ∈ assignments)
    (listed : ∀ stage ∈ stages, ∀ receiver ∈ stage.receivers, receiver ∈ stages.map (·.id)) :
    ∃ wiring, wireMailboxes stages assignments = .ok wiring ∧
      Wiring.Wired assignments (stages.map (·.id)) (borders stages) (borders stages) wiring := by
  obtain ⟨described, hdescribed, hwired⟩ := describeWorkers_ok assigned
  have hassigned : ∀ id ∈ stages.map (·.id), id ∈ assignments := by
    rintro id hid
    obtain ⟨stage, hstage, rfl⟩ := List.mem_map.mp hid
    exact assigned stage hstage
  obtain ⟨wiring, hwiring, hall⟩ : ∃ wiring,
      (borders stages).foldlM (Wiring.addBorder assignments) described = .ok wiring ∧
        Wiring.Wired assignments (stages.map (·.id)) (borders stages) (borders stages) wiring := by
    refine foldlM_ok_of_invariant (fun before wiring =>
      Wiring.Wired assignments (stages.map (·.id)) before before wiring) hwired ?_
    intro before border hborder wiring hbefore
    obtain ⟨stage, hstage, hsender, hreceiver⟩ := mem_borders.mp hborder
    exact hbefore.addBorder (hsender ▸ List.mem_map_of_mem hstage)
      (listed stage hstage border.2 hreceiver) hassigned
  exact ⟨wiring, bind_eq_ok.mpr ⟨described, hdescribed, hwiring⟩, hall⟩

end StagedQuery
