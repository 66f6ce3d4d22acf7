import Mathlib.Algebra.Order.BigOperators.Group.List
import Mathlib.Algebra.Order.Group.Nat
import Mathlib.Data.List.Perm.Subperm
import StagedQuery.Proofs.Dispatch.Distinct

/-!
# Whether the views of a stage's workers agree

Which worker runs where is said three times of a stage that has been planned: by the list of its
destinations, by the two questions that an assignment answers – which server hosts a worker, which
workers a server hosts – and by the description of each worker. The check of a plan compares the
workers that are assigned with those that are described, and the server of each description with
the host of the worker. It compares them as sets, and the host is the first one that is found. So
the descriptions and the hosts always agree (`StagedQuery.StageGraph.StageSound.host?_eq_some_iff`),
and the list of destinations is left out.

An assignment that was read from a file may list a worker on two servers, or a server in two
entries. Such an assignment passes the check (`StagedQuery.StageGraph.check_doubled`), and its
views differ. These are the only two ways in which they can: **the views of a stage agree exactly
if no worker is listed twice and each server has its workers in the first entry that lists it**
(`StagedQuery.DispatchPlan.viewsAgree_iff`). For the number of workers the first of the two
is enough. Assignments that planning makes satisfy both (`StagedQuery.Planner.viewsAgree`).
-/

namespace StagedQuery

/-! ### Servers that are listed more than once -/

namespace Assignment

/-- Each server has all its workers in the first entry that lists it: an entry in which a server
is listed again has no workers. -/
def Gathered (servers : List Hosting) : Prop :=
  servers.Pairwise fun earlier later => later.workers ≠ [] → earlier.server ≠ later.server

/-- Servers that ascend are listed once each. -/
theorem Ascend.gathered {servers : List Hosting} (h : Ascend servers) : Gathered servers := by
  rw [Gathered]
  refine h.imp ?_
  intro earlier later hlt _
  exact ne_of_compare_lt hlt

/-- A worker is among those that its server is found to host. -/
def FoundOn (servers : List Hosting) (server : Server) (worker : WorkerId) : Prop :=
  ∃ found, servers.find? (fun s => s.server == server) = some found ∧ worker ∈ found.workers

variable {assignment : Assignment}

theorem hosted?_eq_some {server : Server} {workers : List WorkerId} :
    assignment.hosted? server = some workers ↔
      ∃ found, assignment.servers.find? (fun s => s.server == server) = some found ∧
        found.workers = workers :=
  Option.map_eq_some_iff

/-- **Where no worker is listed twice**, each worker is found on its server exactly if each
server has its workers in one entry. -/
theorem forall_foundOn_iff {servers : List Hosting}
    (hnodup : (servers.flatMap (·.workers)).Nodup) :
    (∀ s ∈ servers, ∀ worker ∈ s.workers, FoundOn servers s.server worker) ↔ Gathered servers := by
  induction servers with
  | nil => simp [Gathered]
  | cons first rest ih =>
    rw [List.flatMap_cons, List.nodup_append] at hnodup
    obtain ⟨-, hrest, hapart⟩ := hnodup
    have hskip (s : Hosting) (worker : WorkerId) (hne : first.server ≠ s.server) :
        FoundOn (first :: rest) s.server worker ↔ FoundOn rest s.server worker := by
      rw [FoundOn, List.find?_cons_of_neg (by simpa using hne), FoundOn]
    rw [Gathered, List.pairwise_cons, ← Gathered, ← ih hrest]
    constructor
    · intro h
      have hnew : ∀ s ∈ rest, s.workers ≠ [] → first.server ≠ s.server := by
        intro s hs hne hsame
        obtain ⟨worker, hworker⟩ := List.exists_mem_of_ne_nil _ hne
        obtain ⟨found, hfound, hmem⟩ := h s (List.mem_cons_of_mem _ hs) worker hworker
        rw [List.find?_cons_of_pos (by simpa using hsame)] at hfound
        cases hfound
        -- the worker would be listed in the first entry, too
        exact hapart worker hmem worker (List.mem_flatMap.mpr ⟨s, hs, hworker⟩) rfl
      refine ⟨hnew, fun s hs worker hworker => ?_⟩
      have hne := hnew s hs (List.ne_nil_of_mem hworker)
      exact (hskip s worker hne).mp (h s (List.mem_cons_of_mem _ hs) worker hworker)
    · rintro ⟨hnew, h⟩ s hs worker hworker
      rcases List.mem_cons.mp hs with rfl | hs
      · exact ⟨s, List.find?_cons_of_pos (by simp), hworker⟩
      · have hne := hnew s hs (List.ne_nil_of_mem hworker)
        exact (hskip s worker hne).mpr (h s hs worker hworker)

theorem mem_destinations {server : Server} {worker : WorkerId} :
    (server, worker) ∈ assignment.destinations ↔
      ∃ s ∈ assignment.servers, worker ∈ s.workers ∧ s.server = server := by
  simp [destinations, destinationsOf, List.mem_flatMap]

end Assignment

/-! ### The views of one stage -/

namespace PlannedStage

/-- **The views of a stage's workers agree**: a destination lists a worker once, and what is asked
of the assignment and of the descriptions says the same as the list. -/
structure ViewsAgree (planned : PlannedStage) : Prop where
  /-- No worker is listed twice. -/
  distinct : planned.assignment.workers.Nodup
  /-- The host of a worker is the server that it is listed with. -/
  hosted : ∀ server worker, (server, worker) ∈ planned.assignment.destinations →
    planned.assignment.host? worker = some server
  /-- The worker is one of those that the server hosts. -/
  listed : ∀ server worker, (server, worker) ∈ planned.assignment.destinations →
    ∃ workers, planned.assignment.hosted? server = some workers ∧ worker ∈ workers
  /-- The worker is described as running on the server. -/
  described : ∀ server worker, (server, worker) ∈ planned.assignment.destinations →
    ∃ links, planned.workers[worker]? = some links ∧ links.server = server

end PlannedStage

namespace StageGraph

variable {graph : StageGraph} {id : StageId} {planned : PlannedStage}

/-- A worker is described as running on a server exactly if the server is found to host it. -/
theorem StageSound.host?_eq_some_iff (sound : graph.StageSound id planned) {worker : WorkerId}
    {server : Server} : planned.assignment.host? worker = some server ↔
      ∃ links, planned.workers[worker]? = some links ∧ links.server = server := by
  constructor
  · intro h
    obtain ⟨before, hosting, after, hservers, -, hworker, -⟩ := Assignment.host?_eq_some.mp h
    have hassigned : worker ∈ planned.assignment.workers := by
      rw [Assignment.workers_eq, hservers]
      simp [hworker]
    obtain ⟨links, hlinks⟩ := mem_iff_exists_entry.mp ((sound.described worker).mp hassigned)
    have hplaced := Assignment.host?_eq_some.mpr (sound.workers worker links hlinks).placed
    exact ⟨links, hlinks, Option.some.inj (hplaced.symm.trans h)⟩
  · rintro ⟨links, hlinks, rfl⟩
    exact Assignment.host?_eq_some.mpr (sound.workers worker links hlinks).placed

/-- **The views of a sound stage agree** exactly if no worker is listed twice and each server has
its workers in one entry. -/
theorem StageSound.agree_iff (sound : graph.StageSound id planned) :
    planned.ViewsAgree ↔
      planned.assignment.workers.Nodup ∧ Assignment.Gathered planned.assignment.servers := by
  constructor
  · intro h
    have hnodup := h.distinct
    rw [Assignment.workers_eq] at hnodup
    refine ⟨h.distinct, (Assignment.forall_foundOn_iff hnodup).mp fun s hs worker hworker => ?_⟩
    obtain ⟨workers, hworkers, hmem⟩ :=
      h.listed s.server worker (Assignment.mem_destinations.mpr ⟨s, hs, hworker, rfl⟩)
    obtain ⟨found, hfound, rfl⟩ := Assignment.hosted?_eq_some.mp hworkers
    exact ⟨found, hfound, hmem⟩
  · rintro ⟨hdistinct, hgathered⟩
    have hhost (server : Server) (worker : WorkerId)
        (hmem : (server, worker) ∈ planned.assignment.destinations) :
        planned.assignment.host? worker = some server :=
      Assignment.host?_eq_some.mpr (Assignment.firstHost_of_mem hdistinct hmem)
    refine ⟨hdistinct, hhost, fun server worker hmem => ?_, fun server worker hmem => ?_⟩
    · rw [Assignment.workers_eq] at hdistinct
      obtain ⟨s, hs, hworker, rfl⟩ := Assignment.mem_destinations.mp hmem
      obtain ⟨found, hfound, hmem⟩ :=
        (Assignment.forall_foundOn_iff hdistinct).mpr hgathered s hs worker hworker
      exact ⟨found.workers, Assignment.hosted?_eq_some.mpr ⟨found, hfound, rfl⟩, hmem⟩
    · exact sound.host?_eq_some_iff.mp (hhost server worker hmem)

/-! ### How many workers there are -/

/-- The workers described are no more than those listed, and as many exactly if none is listed
twice. -/
theorem StageSound.size_workers (sound : graph.StageSound id planned) :
    planned.workers.size ≤ planned.assignment.size ∧
      (planned.workers.size = planned.assignment.size ↔ planned.assignment.workers.Nodup) := by
  have hkeys : planned.workers.keys.Nodup := Std.ExtTreeMap.nodup_keys
  have hmem (worker : WorkerId) :
      worker ∈ planned.workers.keys ↔ worker ∈ planned.assignment.workers := by
    rw [Std.ExtTreeMap.mem_keys, sound.described]
  have hsub : planned.workers.keys.Subperm planned.assignment.workers :=
    List.subperm_of_subset hkeys fun worker h => (hmem worker).mp h
  rw [← Std.ExtTreeMap.length_keys, Assignment.size_eq]
  refine ⟨hsub.length_le, fun hsize => ?_, fun hnodup => ?_⟩
  · exact (hsub.perm_of_length_le (Nat.le_of_eq hsize.symm)).nodup_iff.mp hkeys
  · exact ((List.perm_ext_iff_of_nodup hkeys hnodup).mpr hmem).length_eq

end StageGraph

/-- Two sums of numbers none of which is greater on the left are equal exactly if the numbers
are. -/
theorem sum_map_eq_iff {α : Type} {items : List α} {f g : α → Nat} (hle : ∀ a ∈ items, f a ≤ g a) :
    (items.map f).sum = (items.map g).sum ↔ ∀ a ∈ items, f a = g a := by
  induction items with
  | nil => simp
  | cons a rest ih =>
    obtain ⟨ha, hrest⟩ := List.forall_mem_cons.mp hle
    have hsum : (rest.map f).sum ≤ (rest.map g).sum := List.sum_le_sum hrest
    rw [List.forall_mem_cons, ← ih hrest, List.map_cons, List.map_cons, List.sum_cons,
      List.sum_cons]
    omega

/-! ### The views of a plan -/

namespace StageGraph

variable {graph : StageGraph}

theorem totalWorkers_eq (graph : StageGraph) :
    graph.totalWorkers = (graph.stageList.map (·.assignment.size)).sum := by
  rw [totalWorkers, destinations, List.length_flatMap]
  rfl

/-- **The workers of all stages** are as many as the descriptions exactly if no stage lists a
worker twice. -/
theorem WellFormed.totalWorkers_eq_iff (h : graph.WellFormed) :
    graph.totalWorkers = (graph.stageList.map (·.workers.size)).sum ↔
      ∀ planned ∈ graph.stageList, planned.assignment.workers.Nodup := by
  have hsize (planned : PlannedStage) (hmem : planned ∈ graph.stageList) :
      planned.workers.size ≤ planned.assignment.size ∧
        (planned.workers.size = planned.assignment.size ↔ planned.assignment.workers.Nodup) := by
    obtain ⟨id, hplanned⟩ := mem_stageList.mp hmem
    exact (h.stages id planned hplanned).size_workers
  rw [totalWorkers_eq, eq_comm, sum_map_eq_iff fun planned hmem => (hsize planned hmem).1]
  exact forall₂_congr fun planned hmem => (hsize planned hmem).2

end StageGraph

/-- **The views of a stage agree** in every plan exactly if no worker is listed twice and each
server has its workers in one entry; the descriptions and the hosts agree in any case. There are
as many workers as descriptions exactly if no stage lists a worker twice. -/
theorem DispatchPlan.viewsAgree_iff (plan : DispatchPlan) :
    (∀ (id : StageId) (planned : PlannedStage), plan.stages[id]? = some planned →
      (∀ worker server, planned.assignment.host? worker = some server ↔
        ∃ links, planned.workers[worker]? = some links ∧ links.server = server) ∧
      (planned.ViewsAgree ↔
        planned.assignment.workers.Nodup ∧ Assignment.Gathered planned.assignment.servers)) ∧
    (plan.totalWorkers = (plan.stageList.map (·.workers.size)).sum ↔
      ∀ planned ∈ plan.stageList, planned.assignment.workers.Nodup) := by
  rcases plan.wellFormed with hempty | hwf
  · have hnone (id : StageId) (planned : PlannedStage) (h : plan.stages[id]? = some planned) :
        False := StageGraph.stages_ne_empty h hempty
    have hlist : plan.stageList = [] := by
      refine List.eq_nil_iff_forall_not_mem.mpr fun planned hmem => ?_
      obtain ⟨id, hplanned⟩ := StageGraph.mem_stageList.mp hmem
      exact hnone id planned hplanned
    refine ⟨fun id planned h => (hnone id planned h).elim, ?_⟩
    rw [StageGraph.totalWorkers_eq, hlist]
    simp
  · refine ⟨fun id planned hplanned => ?_, hwf.totalWorkers_eq_iff⟩
    have sound := hwf.stages id planned hplanned
    exact ⟨fun worker server => sound.host?_eq_some_iff, sound.agree_iff⟩

/-- The views agree in the plan of two stages that receive from one another, which has as many
workers as descriptions. -/
theorem DispatchPlan.viewsAgree_iff_circle : ∃ (plan : DispatchPlan) (planned : PlannedStage),
    ofGraph .circle = .ok plan ∧ plan.stages[(Id.ofNat 1 : StageId)]? = some planned ∧
      planned.ViewsAgree ∧ plan.totalWorkers = (plan.stageList.map (·.workers.size)).sum := by
  let plan : DispatchPlan := ⟨.circle, StageGraph.check_circle⟩
  obtain ⟨planned, hplanned, -⟩ := StageGraph.circle_receives.1
  obtain ⟨hstages, htotal⟩ := viewsAgree_iff plan
  have hall : ∀ planned ∈ plan.stageList, planned.assignment.workers.Nodup ∧
      planned.assignment.servers.length = 1 := by decide
  refine ⟨plan, planned, ofGraph_eq_ok.mpr rfl, hplanned, ?_, htotal.mpr fun p hp => (hall p hp).1⟩
  obtain ⟨hnodup, hlength⟩ := hall planned (StageGraph.mem_stageList.mpr ⟨_, hplanned⟩)
  refine (hstages _ planned hplanned).2.mpr ⟨hnodup, ?_⟩
  obtain ⟨hosting, hservers⟩ := List.length_eq_one_iff.mp hlength
  rw [hservers]
  exact List.pairwise_singleton _ _

namespace StageGraph

/-- A plan whose views differ: stage 1 lists the worker 0 on two servers, and the first of them in
two entries. -/
def doubled : StageGraph :=
  let broker := Server.onHost "broker" 1 2
  let near := Server.onHost "near" 3 4
  let far := Server.onHost "far" 5 6
  let result := PlanTree.mk (Id.ofNat 0) rootStageId (.receive ⟨Id.ofNat 1, .singleton⟩) []
  let rows := PlanTree.mk (Id.ofNat 2) (Id.ofNat 1) (.values [["1"]]) []
  let producer : Send := ⟨[rootStageId], .singleton, []⟩
  let described (worker : Nat) : WorkerId × WorkerLinks :=
    (Id.ofNat worker, ⟨Id.ofNat worker, near,
      (∅ : StageMap (List Mailbox)).insert rootStageId [.onServer broker (Id.ofNat 0)], ∅⟩)
  ⟨rootStageId, ((∅ : StageMap PlannedStage).insert rootStageId
    (lonePlanned rootStageId broker result)).insert (Id.ofNat 1)
      { stage := ⟨Id.ofNat 1, ⟨Id.ofNat 1, Id.ofNat 1, .send producer, [rows]⟩⟩
        assignment := ⟨Id.ofNat 1, [⟨near, [Id.ofNat 0]⟩, ⟨far, [Id.ofNat 0]⟩,
          ⟨near, [Id.ofNat 1]⟩], ∅⟩
        workers := (∅ : WorkerMap WorkerLinks).insertMany [described 0, described 1] }⟩

/-- The plan passes the check. -/
theorem check_doubled : doubled.check = .ok () := by rfl

end StageGraph

/-- Stage 1 of the plan lists the worker 0 on the far server, whose host is the near one, and the
worker 1 on the near server, where it is not found. There are three descriptions of four
workers. -/
theorem DispatchPlan.doubled_disagree : ∃ (plan : DispatchPlan) (planned : PlannedStage),
    ofGraph .doubled = .ok plan ∧ plan.stages[(Id.ofNat 1 : StageId)]? = some planned ∧
      planned.assignment.destinations =
        [(.onHost "near" 3 4, Id.ofNat 0), (.onHost "far" 5 6, Id.ofNat 0),
          (.onHost "near" 3 4, Id.ofNat 1)] ∧
      planned.assignment.host? (Id.ofNat 0) = some (.onHost "near" 3 4) ∧
      (planned.workers[(Id.ofNat 0 : WorkerId)]?).map (·.server) = some (.onHost "near" 3 4) ∧
      planned.assignment.hosted? (.onHost "near" 3 4) = some [Id.ofNat 0] ∧
      ¬planned.ViewsAgree ∧
      plan.totalWorkers = 4 ∧ (plan.stageList.map (·.workers.size)).sum = 3 := by
  obtain ⟨planned, hplanned⟩ :=
    Option.isSome_iff_exists.mp (rfl : (StageGraph.doubled.stages[(Id.ofNat 1 : StageId)]?).isSome)
  cases hplanned
  refine ⟨⟨.doubled, StageGraph.check_doubled⟩, _, ofGraph_eq_ok.mpr rfl, rfl, rfl, rfl, rfl, rfl,
    fun h => ?_, rfl, rfl⟩
  exact absurd h.distinct (by decide)

/-! ### Plans that were made -/

/-- **In a plan that was made the views of every stage agree.** -/
theorem Planner.viewsAgree {planner : Planner} {root : PlanTree} {cluster : Cluster}
    {plan : DispatchPlan} (h : planner.plan root cluster = .ok plan) {id : StageId}
    {planned : PlannedStage} (hplanned : plan.stages[id]? = some planned) : planned.ViewsAgree := by
  obtain ⟨-, -, -, hwf⟩ := exists_built h
  have hascend := Stage.ascend_of_place (place_of_plan h hplanned)
  exact (hwf.stages id planned hplanned).agree_iff.mpr
    ⟨nodup_workers h hplanned, hascend.gathered⟩

end StagedQuery
