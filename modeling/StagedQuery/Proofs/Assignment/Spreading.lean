import Mathlib.Data.List.Dedup
import Mathlib.Data.List.Perm.Subperm
import StagedQuery.Plan.Build
import StagedQuery.Proofs.Assignment.Recording
import StagedQuery.Proofs.Assignment.Segments

/-!
# Stages that may run anywhere

A stage that scans no table runs on the smallest servers of the cluster, as many as the settings
allow, and each of them runs the same number of workers
(`StagedQuery.Cluster.SpreadsWorkers`). The workers of one server have consecutive numbers, and
the numbers go on from one server to the next.

The workers of a server are put in with one insertion. That this is the same as adding them one
after the other (`StagedQuery.Assignment.addAll_replicate`) holds because an entry that has been
put in is found again (`StagedQuery.Assignment.Ascend.hostWorkers_hostWorkers`), for which the
servers have to ascend.
-/

namespace StagedQuery

namespace Assignment

/-! ### One worker after the other -/

/-- Workers that are added to an entry go behind those that it has. -/
theorem Ascend.hostWorkers_of_entry {before after : List Hosting} {server : Server}
    {workers : List WorkerId} (h : Ascend (before ++ ⟨server, workers⟩ :: after))
    (more : List WorkerId) :
    Assignment.hostWorkers (before ++ ⟨server, workers⟩ :: after) server more =
      before ++ ⟨server, workers ++ more⟩ :: after := by
  rcases h.hostWorkers_cases server with
    ⟨before', hosting, after', hsplit, hserver, heq⟩ | ⟨-, -, -, hnone, -⟩
  · -- no other entry is of the server, so the entry found is the one that is meant
    have hfront : hosting ∉ before := fun hmem => h.ne_of_mem_before hosting hmem hserver
    have hback : hosting ∉ after := by
      intro hmem
      have hless := (List.pairwise_cons.mp (List.pairwise_append.mp h).2.1).1 hosting hmem
      exact ne_of_compare_lt hless hserver.symm
    obtain ⟨rfl, rfl, rfl⟩ := (List.append_cons_inj_of_notMem hfront hback).mp hsplit
    exact heq more
  · exact absurd rfl (hnone _ (List.mem_append_right _ List.mem_cons_self))

/-- Adding workers on a server twice is adding all of them at once. -/
theorem Ascend.hostWorkers_hostWorkers {servers : List Hosting} (h : Ascend servers)
    (server : Server) (workers more : List WorkerId) :
    Assignment.hostWorkers (Assignment.hostWorkers servers server workers) server more =
      Assignment.hostWorkers servers server (workers ++ more) := by
  have hascend := h.hostWorkers server workers
  rcases h.hostWorkers_cases server with
    ⟨before, hosting, after, -, -, heq⟩ | ⟨before, after, -, -, heq⟩
  · rw [heq] at hascend
    rw [heq, heq, hascend.hostWorkers_of_entry, List.append_assoc]
  · rw [heq] at hascend
    rw [heq, heq, hascend.hostWorkers_of_entry]

theorem addMany_addMany {assignment : Assignment} (h : Ascend assignment.servers) (server : Server)
    (m n : Nat) : (assignment.addMany server m).addMany server n =
      assignment.addMany server (m + n) := by
  rw [addMany, size_addMany, addMany, addMany]
  dsimp only
  rw [h.hostWorkers_hostWorkers, ← List.map_append, List.range'_append_1]

theorem snd_addAll_append (assignment : Assignment) (additions more : List Addition) :
    (assignment.addAll (additions ++ more)).2 =
      ((assignment.addAll additions).2.addAll more).2 := by
  induction additions generalizing assignment with
  | nil => rfl
  | cons addition rest ih => exact ih _

/-- **Some workers on a server are as many single workers**, added one after the other. -/
theorem addAll_replicate {assignment : Assignment} (h : Ascend assignment.servers)
    (server : Server) {count : Nat} (hcount : count ≠ 0) :
    (assignment.addAll (List.replicate count ⟨server, none⟩)).2 =
      assignment.addMany server count := by
  obtain ⟨count, rfl⟩ := Nat.exists_eq_succ_of_ne_zero hcount
  induction count generalizing assignment with
  | zero => rfl
  | succ count ih =>
    -- the first worker is added on its own, and the others are found to go behind it
    change ((assignment.addMany server 1).addAll (List.replicate (count + 1) ⟨server, none⟩)).2 = _
    rw [ih (h.hostWorkers _ _) (Nat.succ_ne_zero _), addMany_addMany h, Nat.add_comm 1]

/-- The workers that are added for some servers, `count` on each. -/
def roundsOn (count : Nat) (servers : List Server) : List Addition :=
  servers.flatMap fun server => List.replicate count ⟨server, none⟩

/-- Putting in the workers of one server after the other is adding all workers one after the
other. -/
theorem addAll_roundsOn {assignment : Assignment} (h : Ascend assignment.servers) {count : Nat}
    (hcount : count ≠ 0) (servers : List Server) :
    (assignment.addAll (roundsOn count servers)).2 =
      servers.foldl (fun assignment server => assignment.addMany server count) assignment := by
  induction servers generalizing assignment with
  | nil => rfl
  | cons server rest ih =>
    rw [roundsOn, List.flatMap_cons, snd_addAll_append, addAll_replicate h server hcount,
      List.foldl_cons]
    exact ih (h.hostWorkers _ _)

/-! ### The same number on each server -/

/-- The assignment with `count` workers on each of some servers, numbered along the list. -/
def evenly (stage : StageId) (count : Nat) (servers : List Server) : Assignment where
  stage := stage
  servers := servers.zipIdx.map fun (server, j) =>
    ⟨server, (List.range' (j * count) count).map Id.ofNat⟩
  segments := ∅

theorem map_server_evenly (stage : StageId) (count : Nat) (servers : List Server) :
    (evenly stage count servers).servers.map (·.server) = servers := by
  rw [evenly, List.map_map]
  exact List.zipIdx_map_fst 0 servers

/-- **Adding the same number of workers on one server after the other**, in ascending order. -/
theorem foldl_addMany_eq (stage : StageId) (count : Nat) {servers : List Server}
    (h : servers.Pairwise fun a b => compare a b = .lt) :
    servers.foldl (fun assignment server => assignment.addMany server count) (.empty stage) =
      evenly stage count servers := by
  induction servers using List.reverseRecOn with
  | nil => rfl
  | append_singleton rest last ih =>
    obtain ⟨hrest, -, -⟩ := List.pairwise_append.mp h
    have hsize : (evenly stage count rest).size = rest.length * count := by
      rw [← ih hrest, size_foldl_addMany]
      exact Nat.zero_add _
    rw [← map_server_evenly stage count rest] at h
    rw [List.foldl_append, ih hrest, List.foldl_cons, List.foldl_nil, addMany, hsize,
      hostWorkers_append h, evenly, evenly, List.zipIdx_append, List.map_append,
      Nat.zero_add]
    rfl

end Assignment

/-! ### The servers of a stage that may run anywhere -/

namespace Cluster

variable {cluster : Cluster} {settings : Settings}

/-- How many servers run a stage that may run anywhere: those of the cluster, each counted once,
but no more than the settings allow. -/
def serverCount (cluster : Cluster) (settings : Settings) : Nat :=
  match settings.serverLimit with
  | some limit => min limit.toNat cluster.servers.dedup.length
  | none => cluster.servers.dedup.length

theorem length_orderedServers : cluster.orderedServers.length = cluster.servers.dedup.length := by
  refine List.Perm.length_eq ((List.perm_ext_iff_of_nodup nodup_orderedServers
    (List.nodup_dedup _)).mpr fun server => ?_)
  rw [mem_orderedServers, List.mem_dedup]

theorem intermediateServers_eq_take : cluster.intermediateServers settings =
    cluster.orderedServers.take (cluster.serverCount settings) := by
  rw [intermediateServers, serverCount, ← length_orderedServers]
  cases settings.serverLimit with
  | none => exact List.take_length.symm
  | some limit => exact List.take_eq_take_min

/-- The servers of a stage that may run anywhere ascend. -/
theorem pairwise_intermediateServers :
    (cluster.intermediateServers settings).Pairwise fun a b => compare a b = .lt := by
  rw [intermediateServers_eq_take]
  exact Std.ExtTreeSet.ordered_toList.sublist (List.take_sublist _ _)

/-- **The workers of a stage are spread over the cluster.** -/
structure SpreadsWorkers (cluster : Cluster) (settings : Settings) (stage : Stage)
    (assignment : Assignment) : Prop where
  /-- The assignment is that of the stage. -/
  own : assignment.stage = stage.id
  /-- Its servers ascend, so that each is listed once. -/
  ascending : (assignment.servers.map (·.server)).Pairwise fun a b => compare a b = .lt
  /-- They are servers of the cluster. -/
  members : ∀ server ∈ assignment.servers.map (·.server), server ∈ cluster.servers
  /-- There are as many of them as there can be. -/
  count : assignment.servers.length = cluster.serverCount settings
  /-- All other servers of the cluster come after them. -/
  smallest : ∀ server ∈ assignment.servers.map (·.server), ∀ other ∈ cluster.servers,
    other ∉ assignment.servers.map (·.server) → compare server other = .lt
  /-- Each runs the same number of workers, with numbers that go on from one to the next. -/
  numbered : ∀ j hosting, assignment.servers[j]? = some hosting →
    hosting.workers.map (·.number.toNat) =
      List.range' (j * settings.workersPerServer.toNat) settings.workersPerServer.toNat
  /-- None of them reads a segment. -/
  segmentless : assignment.segments = ∅
  /-- The assignment is what comes of adding the workers one after the other. -/
  grown : assignment = ((Assignment.empty stage.id).addAll
    (Assignment.roundsOn settings.workersPerServer.toNat
      (assignment.servers.map (·.server)))).2

theorem spreadsWorkers_of_placeAnywhere (checked : settings.check = .ok ()) {stage : Stage}
    {assignment : Assignment}
    (fits : cluster.serverCount settings * settings.workersPerServer.toNat ≤ 2 ^ 32)
    (h : stage.placeAnywhere cluster settings = .ok assignment) :
    cluster.SpreadsWorkers settings stage assignment := by
  obtain ⟨-, hfold⟩ := Stage.placeAnywhere_eq_ok.mp h
  have hordered : cluster.orderedServers.Pairwise fun a b => compare a b = .lt :=
    Std.ExtTreeSet.ordered_toList
  have hascend : (cluster.intermediateServers settings).Pairwise fun a b => compare a b = .lt :=
    pairwise_intermediateServers
  have hsplit := List.take_append_drop (cluster.serverCount settings) cluster.orderedServers
  have hlength : (cluster.orderedServers.take (cluster.serverCount settings)).length =
      cluster.serverCount settings := by
    refine List.length_take_of_le ?_
    rw [length_orderedServers, serverCount]
    cases settings.serverLimit with
    | none => exact Nat.le_refl _
    | some limit => exact Nat.min_le_right _ _
  have hcount : settings.workersPerServer.toNat ≠ 0 := fun hzero =>
    (Settings.check_eq_ok.mp checked).1 (UInt32.toNat_inj.mp hzero)
  rw [intermediateServers_eq_take] at hfold hascend
  generalize cluster.orderedServers.take (cluster.serverCount settings) = chosen at *
  have hclosed := hfold.symm.trans (Assignment.foldl_addMany_eq stage.id _ hascend)
  have hservers : assignment.servers.map (·.server) = chosen := by
    rw [hclosed]
    exact Assignment.map_server_evenly _ _ _
  refine ⟨?_, ?_, ?_, ?_, ?_, ?_, ?_, ?_⟩
  · rw [hclosed]
    rfl
  · rw [hservers]
    exact hascend
  · rw [hservers]
    intro server hserver
    exact mem_orderedServers.mp (hsplit ▸ List.mem_append_left _ hserver)
  · rw [← hlength, ← hservers, List.length_map]
  · rw [hservers]
    intro server hserver other hother hout
    rw [← hsplit] at hordered
    rw [← mem_orderedServers, ← hsplit, List.mem_append] at hother
    exact (List.pairwise_append.mp hordered).2.2 server hserver other (hother.resolve_left hout)
  · intro j hosting hj
    rw [hclosed, Assignment.evenly, List.getElem?_map, Option.map_eq_some_iff] at hj
    obtain ⟨⟨server, i⟩, hi, rfl⟩ := hj
    rw [List.getElem?_zipIdx, Nat.zero_add] at hi
    obtain ⟨_, hentry, ⟨⟩⟩ := Option.map_eq_some_iff.mp hi
    -- the numbers of the server at place `j` end where those of the next one begin
    have hlt : j + 1 ≤ cluster.serverCount settings :=
      hlength ▸ (List.getElem?_eq_some_iff.mp hentry).1
    have hnext := (Nat.mul_le_mul_right settings.workersPerServer.toNat hlt).trans fits
    rw [Nat.succ_mul] at hnext
    exact Id.map_toNat_map_ofNat hnext
  · rw [hclosed]
    rfl
  · have hempty : Assignment.Ascend (Assignment.empty stage.id).servers := .nil
    rw [hservers, Assignment.addAll_roundsOn hempty hcount]
    exact hfold.symm

end Cluster

/-- **A stage that may run anywhere** can be placed exactly if the cluster has a server. It then
has the same number of workers on each of the smallest servers, as many as there are and the
settings allow, with numbers that go on from one server to the next, as long as there are no more
workers than numbers. -/
theorem placeWorkers_spreadsWorkers {cluster : Cluster} {settings : Settings}
    (checked : settings.check = .ok ()) {stage : Stage} (hroot : stage.id ≠ rootStageId)
    (hscan : ¬∃ table, stage.Scans table) :
    ((∃ fault, placeWorkers [stage] cluster settings = .error fault) ↔ cluster.servers = []) ∧
    (cluster.servers = [] →
      placeWorkers [stage] cluster settings = .error (.planning (.noServers stage.id))) ∧
    (cluster.serverCount settings * settings.workersPerServer.toNat ≤ 2 ^ 32 →
      ∀ stages assignments, placeWorkers stages cluster settings = .ok assignments →
        (stages.map (·.id)).Nodup → stage ∈ stages →
        ∃ assignment, assignments[stage.id]? = some assignment ∧
          cluster.SpreadsWorkers settings stage assignment) := by
  have hplace : stage.place cluster settings = stage.placeAnywhere cluster settings := by
    rw [Stage.place, if_neg hroot, if_neg (mt Stage.isScan_iff.mp hscan)]
  have hnone (hservers : cluster.servers = []) :
      placeWorkers [stage] cluster settings = .error (.planning (.noServers stage.id)) := by
    rw [placeWorkers, checked, List.foldlM_cons, hplace, Stage.placeAnywhere,
      (Cluster.intermediateServers_eq_nil checked).mpr hservers]
    rfl
  refine ⟨⟨?_, fun hservers => ⟨_, hnone hservers⟩⟩, hnone,
    fun fits stages assignments h distinct hstage => ?_⟩
  · rintro ⟨fault, hfault⟩
    by_contra hservers
    have hall : ∀ other ∈ [stage], ∃ assignment, other.place cluster settings = .ok assignment := by
      intro other hother
      obtain rfl := List.mem_singleton.mp hother
      exact (Stage.place_ok_iff checked).mpr (.inr (.inr ⟨hscan, hservers⟩))
    obtain ⟨assignments, hassignments⟩ := (exists_placeWorkers_iff checked).mpr hall
    rw [hassignments] at hfault
    cases hfault
  · obtain ⟨assignment, hassignment⟩ :=
      (exists_placeWorkers_iff checked).mp ⟨assignments, h⟩ stage hstage
    refine ⟨assignment, (getElem?_placeWorkers checked h distinct).mpr
      ⟨stage, hstage, rfl, hassignment⟩, ?_⟩
    rw [hplace] at hassignment
    exact Cluster.spreadsWorkers_of_placeAnywhere checked fits hassignment

/-- A cluster that lists its four servers out of order, and one of them twice. -/
def Cluster.shuffled : Cluster :=
  .ofServers (.onHost "broker" 1 2) [.onHost "north" 3 4, .onHost "west" 3 4, .onHost "east" 3 4,
    .onHost "north" 3 4, .onHost "south" 3 4]

/-- Three servers may be used, for two workers each. -/
def Settings.twoOnThree : Settings := ⟨2, some 3⟩

/-- A stage that reads no table. -/
def Stage.literal : Stage := ⟨Id.ofNat 1, .values []⟩

/-- The three smallest servers of the four run the stage, and the second of them its workers 2
and 3. -/
theorem placeWorkers_spreadsWorkers_shuffled : ∃ assignments assignment,
    placeWorkers [.literal] .shuffled .twoOnThree = .ok assignments ∧
      assignments[(Id.ofNat 1 : StageId)]? = some assignment ∧
      assignment.hosted? (.onHost "north" 3 4) = some [Id.ofNat 2, Id.ofNat 3] ∧
      Cluster.shuffled.SpreadsWorkers .twoOnThree .literal assignment := by
  have hsome : ((placeWorkers [.literal] .shuffled .twoOnThree).toOption.any fun assignments =>
      assignments[(Id.ofNat 1 : StageId)]?.any fun assignment =>
        decide (assignment.hosted? (.onHost "north" 3 4) = some [Id.ofNat 2, Id.ofNat 3])) =
      true := by
    decide +kernel
  obtain ⟨assignments, hassignments, hfound⟩ := (Option.any_eq_true _ _).mp hsome
  obtain ⟨assignment, hassignment, hhosted⟩ := (Option.any_eq_true _ _).mp hfound
  have hassignments := toOption_eq_some.mp hassignments
  have hscan : ¬∃ table, Stage.literal.Scans table := mt Stage.isScan_iff.mpr (by decide)
  have checked : Settings.twoOnThree.check = .ok () := by decide
  obtain ⟨-, -, hspread⟩ :=
    @placeWorkers_spreadsWorkers .shuffled .twoOnThree checked .literal (by decide) hscan
  obtain ⟨other, hother, hspreads⟩ := hspread (by decide +kernel) [.literal] assignments
    hassignments (List.nodup_singleton _) (List.mem_singleton_self _)
  obtain rfl : assignment = other := Option.some.inj (hassignment.symm.trans hother)
  exact ⟨assignments, assignment, hassignments, hassignment, of_decide_eq_true hhosted, hspreads⟩

end StagedQuery
