import StagedQuery.Proofs.Assignment.Spreading
import StagedQuery.Proofs.Dispatch.Built
import StagedQuery.Proofs.Mailbox.BothEnds

/-!
# No worker of a plan is listed twice

The workers of a stage are numbered by counting them, and nothing is said of what happens when the
numbers run out: with more workers than numbers, two workers get the same one. No plan comes of
it, and so **the workers of a plan that was made are different** however many servers a cluster
has (`StagedQuery.Planner.nodup_workers`).

The numbers of one server are consecutive and no more than there are numbers
(`StagedQuery.Stage.nodup_hosted`), so two workers with the same number are on two servers. The
description of the worker is then that of the last server which lists it, since it overwrites the
others, while the check asks for the first. The two are different, because the servers of an
assignment that was placed ascend (`StagedQuery.Assignment.Ascend.server_eq`).
-/

namespace StagedQuery

/-! ### One assignment -/

namespace Assignment

variable {assignment : Assignment}

/-- Where the servers ascend, those of the destinations do not descend. -/
theorem Ascend.destinations (h : Ascend assignment.servers) :
    assignment.destinations.Pairwise fun a b => (compare a.1 b.1).isLE = true := by
  refine List.pairwise_flatMap.mpr ⟨fun s _ => ?_, h.imp fun {a b} hlt x hx y hy => ?_⟩
  · exact List.pairwise_map.mpr (List.pairwise_of_forall fun _ _ =>
      Ordering.isLE_of_eq_eq Std.ReflCmp.compare_self)
  · obtain ⟨-, -, rfl⟩ := List.mem_map.mp hx
    obtain ⟨-, -, rfl⟩ := List.mem_map.mp hy
    exact Ordering.isLE_of_eq_lt hlt

/-- **A worker is listed with one server**, if the first that lists it is also the last. -/
theorem Ascend.server_eq (h : Ascend assignment.servers) {worker : WorkerId} {server : Server}
    (hfirst : assignment.FirstHost worker server)
    (hlast : ∃ before after, assignment.destinations = before ++ (server, worker) :: after ∧
      ∀ later ∈ after, later.2 ≠ worker)
    {hosting : Hosting} (hmem : hosting ∈ assignment.servers) (hworker : worker ∈ hosting.workers) :
    hosting.server = server := by
  have hascend := h.destinations
  have hlisted : (hosting.server, worker) ∈ assignment.destinations :=
    List.mem_flatMap.mpr ⟨hosting, hmem, List.mem_map_of_mem hworker⟩
  obtain ⟨front, first, back, hservers, hnone, -, rfl⟩ := hfirst
  obtain ⟨before, after, hsplit, hlater⟩ := hlast
  rw [hservers] at h hmem
  rw [hsplit] at hascend hlisted
  -- an entry behind the first one is of a greater server, and its worker behind the last one
  rcases List.mem_append.mp hmem with hmem | hmem
  · exact absurd hworker (hnone hosting hmem)
  · rcases List.mem_cons.mp hmem with rfl | hmem
    · rfl
    · have hlt := (List.pairwise_cons.mp (List.pairwise_append.mp h).2.1).1 hosting hmem
      rcases List.mem_append.mp hlisted with hlisted | hlisted
      · have hle := (List.pairwise_append.mp hascend).2.2 _ hlisted _ List.mem_cons_self
        exact absurd (Std.TransCmp.lt_of_lt_of_isLE hlt hle) (by simp)
      · rcases List.mem_cons.mp hlisted with heq | hlisted
        · exact congrArg Prod.fst heq
        · exact absurd rfl (hlater _ hlisted)

/-- **No worker is listed twice** if none is listed twice with one server, nor with two. -/
theorem Ascend.nodup_workers (h : Ascend assignment.servers)
    (each : ∀ hosting ∈ assignment.servers, hosting.workers.Nodup)
    (single : ∀ worker ∈ assignment.workers, ∃ server, assignment.FirstHost worker server ∧
      ∃ before after, assignment.destinations = before ++ (server, worker) :: after ∧
        ∀ later ∈ after, later.2 ≠ worker) : assignment.workers.Nodup := by
  have hmem {hosting : Hosting} (hhosting : hosting ∈ assignment.servers) {worker : WorkerId}
      (hworker : worker ∈ hosting.workers) : worker ∈ assignment.workers := by
    rw [workers_eq]
    exact List.mem_flatMap.mpr ⟨hosting, hhosting, hworker⟩
  rw [workers_eq, List.nodup_flatMap]
  refine ⟨each, List.Pairwise.imp_of_mem (fun {a b} ha hb hlt worker hwa hwb => ?_) h⟩
  obtain ⟨server, hfirst, hlast⟩ := single worker (hmem ha hwa)
  have hsame := (h.server_eq hfirst hlast ha hwa).trans (h.server_eq hfirst hlast hb hwb).symm
  exact ne_of_compare_lt hlt hsame

end Assignment

/-! ### What is placed -/

/-- The workers that are placed on one server are different. -/
theorem Stage.nodup_hosted {stage : Stage} {cluster : Cluster} {settings : Settings}
    {assignment : Assignment} (h : stage.place cluster settings = .ok assignment) :
    ∀ hosting ∈ assignment.servers, hosting.workers.Nodup := by
  intro hosting hmem
  rw [place] at h
  split_ifs at h with hroot hscan
  · cases h
    obtain rfl : hosting = ⟨cluster.broker, [Id.ofNat 0]⟩ := List.mem_singleton.mp hmem
    exact List.nodup_singleton _
  · obtain ⟨held, -, -, rfl⟩ := placeScan_eq_ok.mp h
    rw [Assignment.foldl_add_eq stage.id Std.ExtTreeMap.ordered_keys_toList,
      Assignment.oneEach] at hmem
    obtain ⟨⟨entry, n⟩, -, rfl⟩ := List.mem_map.mp hmem
    exact List.nodup_singleton _
  · obtain ⟨-, rfl⟩ := placeAnywhere_eq_ok.mp h
    rw [Assignment.foldl_addMany_eq stage.id _ Cluster.pairwise_intermediateServers,
      Assignment.evenly] at hmem
    obtain ⟨⟨server, j⟩, -, rfl⟩ := List.mem_map.mp hmem
    exact Id.nodup_map_ofNat settings.workersPerServer.toNat_lt.le

/-! ### What is wired -/

/-- **The workers of a graph know what wiring tells them**, where some stages with their
assignments are wired. -/
structure StageGraph.WiredFrom (graph : StageGraph) (stages : List Stage)
    (assignments : StageMap Assignment) : Prop where
  /-- The stages of the graph are among those that are wired, each under its id. -/
  listed : ∀ (id : StageId) (planned : PlannedStage), graph.stages[id]? = some planned →
    planned.stage ∈ stages ∧ planned.stage.id = id
  /-- Each has the assignment that is under its id. -/
  assigned : ∀ (id : StageId) (planned : PlannedStage), graph.stages[id]? = some planned →
    assignments[id]? = some planned.assignment
  /-- Each worker knows the mailboxes at the other end of every border. -/
  knows : ∀ (id : StageId) (planned : PlannedStage), graph.stages[id]? = some planned →
    ∀ (worker : WorkerId) (links : WorkerLinks), planned.workers[worker]? = some links →
      links.Knows assignments (borders stages) (borders stages) id planned.assignment worker

namespace StageGraph.WiredFrom

variable {graph : StageGraph} {stages : List Stage} {assignments : StageMap Assignment}

/-- **A worker knows the mailboxes of a stage that it sends to.** -/
theorem sends (h : graph.WiredFrom stages assignments) {id receiver : StageId}
    {planned consumers : PlannedStage} (hplanned : graph.stages[id]? = some planned)
    (hreceiver : receiver ∈ planned.stage.receivers)
    (hconsumers : graph.stages[receiver]? = some consumers) {worker : WorkerId}
    {links : WorkerLinks} (hlinks : planned.workers[worker]? = some links) :
    links.sends[receiver]? = some consumers.assignment.mailboxes := by
  obtain ⟨hstage, hid⟩ := h.listed id planned hplanned
  have hborder : (id, receiver) ∈ borders stages :=
    mem_borders.mpr ⟨planned.stage, hstage, hid, hreceiver⟩
  rw [(h.knows id planned hplanned worker links hlinks).sends, if_pos hborder,
    h.assigned receiver consumers hconsumers]
  rfl

end StageGraph.WiredFrom

/-! ### Plans that were made -/

namespace Planner

variable {planner : Planner} {root : PlanTree} {cluster : Cluster} {plan : DispatchPlan}

/-- In a plan that was made the workers know what wiring told them. -/
theorem exists_wiredFrom (h : planner.plan root cluster = .ok plan) :
    ∃ stages assignments, plan.WiredFrom stages assignments := by
  obtain ⟨stages, -, assignments, -, wiring, hwiring, hassemble⟩ := plan_eq_ok.mp h
  obtain ⟨hdistinct, -, -, joined, hjoined, hgraph⟩ := DispatchPlan.assemble_eq_ok.mp hassemble
  have hentry {id : StageId} {planned : PlannedStage} (h : plan.stages[id]? = some planned) :
      planned ∈ joined ∧ planned.stage.id = id := by
    rwa [DispatchPlan.ofGraph_eq_ok.mp hgraph,
      StageGraph.getElem?_ofJoined (by rwa [hjoined.map_id])] at h
  refine ⟨stages, assignments, fun id planned hplanned => ?_, fun id planned hplanned => ?_,
    fun id planned hplanned worker links hlinks => ?_⟩
  · obtain ⟨hmem, hid⟩ := hentry hplanned
    exact ⟨hjoined.stage_mem hmem, hid⟩
  · obtain ⟨hmem, rfl⟩ := hentry hplanned
    exact hjoined.assignments planned hmem
  · obtain ⟨hmem, rfl⟩ := hentry hplanned
    obtain ⟨assignment, hassignment, -, hknows⟩ :=
      (wireMailboxes_eq_ok.mp hwiring).2.workers _ _ (hjoined.workers planned hmem)
    obtain rfl : assignment = planned.assignment :=
      Option.some.inj (hassignment.symm.trans (hjoined.assignments planned hmem))
    exact hknows worker links hlinks

/-- **In a plan that was made no worker is listed twice**, however many workers were asked for. -/
theorem nodup_workers (h : planner.plan root cluster = .ok plan) {id : StageId}
    {planned : PlannedStage} (hplanned : plan.stages[id]? = some planned) :
    planned.assignment.workers.Nodup := by
  obtain ⟨-, -, -, hwf⟩ := exists_built h
  obtain ⟨stages, assignments, hwired⟩ := exists_wiredFrom h
  have hplace := place_of_plan h hplanned
  have sound := hwf.stages id planned hplanned
  refine (Stage.ascend_of_place hplace).nodup_workers (Stage.nodup_hosted hplace)
    fun worker hworker => ?_
  -- the check has seen that the worker is described on the first server that lists it
  obtain ⟨links, hlinks⟩ := mem_iff_exists_entry.mp ((sound.described worker).mp hworker)
  exact ⟨links.server, (sound.workers worker links hlinks).placed,
    (hwired.knows id planned hplanned worker links hlinks).last⟩

end Planner

end StagedQuery
