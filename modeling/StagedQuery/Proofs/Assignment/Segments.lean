import Mathlib.Data.List.Dedup
import Mathlib.Data.List.Perm.Subperm
import StagedQuery.Proofs.Assignment.Ascending
import StagedQuery.Plan.Build

/-!
# Who reads which segments

A stage that scans has its workers where the segments are. On the way there the tables are listed
without repeats, each table is looked up and its instances without segments are passed over,
instances are resolved to servers, what one server holds of several tables is put together, and
the servers are added one after the other. Nothing is lost, invented or moved by this
(`StagedQuery.Cluster.FollowsSegments`): the workers stand for the instances that hold a part of
some scanned table, each runs on the first server of its instance, their numbers ascend with the
servers, and each reads the segments that its instance holds of all tables that are scanned
(`StagedQuery.placeWorkers_followsSegments`).

The servers come in ascending order out of a map, so each is added behind the others and no entry
is looked for in vain (`StagedQuery.Assignment.foldl_add_eq`). The numbers of the workers are then
the places of the servers, and an entry for what one of them reads is not overwritten by that of
another.
-/

namespace StagedQuery

/-! ### One worker on each server -/

namespace Assignment

/-- **A server beyond all that are listed** goes behind them. -/
theorem hostWorkers_append {servers : List Hosting} {server : Server}
    (h : (servers.map (·.server) ++ [server]).Pairwise fun a b => compare a b = .lt)
    (workers : List WorkerId) :
    hostWorkers servers server workers = servers ++ [⟨server, workers⟩] := by
  obtain ⟨hlisted, -, hacross⟩ := List.pairwise_append.mp h
  have hascend : Ascend servers := List.pairwise_map.mp hlisted
  have hless (s : Hosting) (hs : s ∈ servers) : compare s.server server = .lt :=
    hacross s.server (List.mem_map_of_mem hs) server List.mem_cons_self
  rw [hostWorkers]
  split
  case h_1 index hfound =>
    obtain ⟨hosting, hhosting, hcompare⟩ := findPosition_found hfound
    cases hcompare.symm.trans (hless hosting (List.mem_of_getElem? hhosting))
  case h_2 index hmissing =>
    obtain ⟨before, after, rfl, rfl, -, hafter⟩ :=
      exists_split_of_missing (hascend.ascendFor server) hmissing
    have hnone : after = [] := by
      refine List.eq_nil_iff_forall_not_mem.mpr fun s hs => ?_
      cases (hafter s hs).symm.trans (hless s (List.mem_append_right _ hs))
    rw [insertIdx_length, hnone, List.append_nil]

/-- The assignment with one worker on each of some servers, numbered along the list, each with
the segments that it reads. -/
def oneEach (stage : StageId) (entries : List (Server × SegmentSet)) : Assignment where
  stage := stage
  servers := entries.zipIdx.map fun (entry, n) => ⟨entry.1, [Id.ofNat n]⟩
  segments := (∅ : WorkerMap SegmentSet).insertMany
    (entries.zipIdx.map fun (entry, n) => (Id.ofNat n, entry.2))

theorem destinations_oneEach (stage : StageId) (entries : List (Server × SegmentSet)) :
    (oneEach stage entries).destinations =
      entries.zipIdx.map fun (entry, n) => (entry.1, Id.ofNat n) := by
  rw [destinations, destinationsOf, oneEach, List.flatMap_map, List.map_eq_flatMap]
  rfl

theorem map_server_oneEach (stage : StageId) (entries : List (Server × SegmentSet)) :
    (oneEach stage entries).servers.map (·.server) = entries.map (·.1) := by
  rw [oneEach, List.map_map]
  conv_rhs => rw [← List.zipIdx_map_fst 0 entries, List.map_map]
  rfl

/-- **Adding a worker on one server after the other**, in ascending order, gives each of them one
worker. -/
theorem foldl_add_eq (stage : StageId) {entries : List (Server × SegmentSet)}
    (h : entries.Pairwise fun a b => compare a.1 b.1 = .lt) :
    entries.foldl (fun assignment entry => (assignment.add entry.1 (some entry.2)).2)
      (.empty stage) = oneEach stage entries := by
  induction entries using List.reverseRecOn with
  | nil => rfl
  | append_singleton rest last ih =>
    obtain ⟨hrest, -, -⟩ := List.pairwise_append.mp h
    have hbeyond : ((rest ++ [last]).map (·.1)).Pairwise fun a b => compare a b = .lt :=
      List.pairwise_map.mpr h
    rw [List.map_append, ← map_server_oneEach stage rest] at hbeyond
    have hnext : (oneEach stage rest).nextWorker = Id.ofNat rest.length := by
      rw [nextWorker, size, destinations_oneEach, List.length_map, List.length_zipIdx]
    rw [List.foldl_append, ih hrest, List.foldl_cons, List.foldl_nil, add, hnext]
    dsimp only
    rw [hostWorkers_append hbeyond, oneEach, oneEach, List.zipIdx_append, List.map_append,
      List.map_append, Std.ExtTreeMap.insertMany_append, Nat.zero_add]
    rfl

section

variable {stage : StageId} {entries : List (Server × SegmentSet)}

/-- The destinations are the servers with the numbers of their places. -/
theorem mem_destinations_oneEach {server : Server} {worker : WorkerId} :
    (server, worker) ∈ (oneEach stage entries).destinations ↔
      ∃ n segments, entries[n]? = some (server, segments) ∧ worker = Id.ofNat n := by
  rw [destinations_oneEach, List.mem_map]
  constructor
  · rintro ⟨⟨⟨server, segments⟩, n⟩, hentry, ⟨⟩⟩
    exact ⟨n, segments, List.mem_zipIdx_iff_getElem?.mp hentry, rfl⟩
  · rintro ⟨n, segments, hentry, rfl⟩
    exact ⟨((server, segments), n), List.mem_zipIdx_iff_getElem?.mpr hentry, rfl⟩

theorem map_fst_destinations_oneEach (stage : StageId) (entries : List (Server × SegmentSet)) :
    (oneEach stage entries).destinations.map (·.1) = entries.map (·.1) := by
  rw [destinations_oneEach, List.map_map]
  conv_rhs => rw [← List.zipIdx_map_fst 0 entries, List.map_map]
  rfl

theorem workers_oneEach :
    (oneEach stage entries).workers = (List.range' 0 entries.length).map Id.ofNat := by
  rw [workers, destinations_oneEach, List.map_map, ← List.zipIdx_map_snd, List.map_map]
  rfl

/-- As long as the numbers do not run out, no worker reads what was meant for another. -/
theorem reads?_oneEach (hlength : entries.length ≤ 2 ^ 32) {worker : WorkerId}
    {segments : SegmentSet} : (oneEach stage entries).reads? worker = some segments ↔
      ∃ n server, entries[n]? = some (server, segments) ∧ worker = Id.ofNat n := by
  have hkeys : ((entries.zipIdx.map fun (entry, n) =>
      ((Id.ofNat n : WorkerId), entry.2)).map (·.1)).Nodup := by
    have hnumbers : ((List.range' 0 entries.length).map (Id.ofNat : Nat → WorkerId)).Nodup :=
      Id.nodup_map_ofNat (by omega)
    rw [← List.zipIdx_map_snd, List.map_map] at hnumbers
    rw [List.map_map]
    exact hnumbers
  rw [reads?, oneEach, mem_insertMany_empty hkeys, List.mem_map]
  constructor
  · rintro ⟨⟨⟨server, segments⟩, n⟩, hentry, ⟨⟩⟩
    exact ⟨n, server, List.mem_zipIdx_iff_getElem?.mp hentry, rfl⟩
  · rintro ⟨n, server, hentry, rfl⟩
    exact ⟨((server, segments), n), List.mem_zipIdx_iff_getElem?.mpr hentry, rfl⟩

end

end Assignment

/-! ### The instances of a stage -/

namespace Cluster

/-- The instances that hold a part of one of some tables, each once. -/
def instances (cluster : Cluster) (tables : List String) : List String :=
  (tables.flatMap fun table =>
    (cluster.tables[table]?).elim [] fun placement => (held placement).map (·.1)).dedup

/-- An instance holds a segment of a table. -/
def Stores (cluster : Cluster) (table instanceId segment : String) : Prop :=
  ∃ placement segments, cluster.tables[table]? = some placement ∧
    placement[instanceId]? = some segments ∧ segment ∈ segments

variable {cluster : Cluster}

theorem mem_instances {tables : List String} {instanceId : String} :
    instanceId ∈ cluster.instances tables ↔ ∃ table ∈ tables, cluster.Holds table instanceId := by
  rw [instances, List.mem_dedup, List.mem_flatMap]
  refine exists_congr fun table => and_congr_right fun _ => ?_
  rw [Holds]
  cases cluster.tables[table]? with
  | none => simp
  | some placement => simp [mem_held]

/-! ### The servers of the instances -/

section

variable {tables : List String} {located : Std.ExtTreeMap Server SegmentSet}
  (hlocated : cluster.segmentsByServer tables = .ok located)

include hlocated

/-- A server is listed for an instance that holds a part of a table, and it is the first of that
instance. -/
theorem holds_of_mem_segmentsByServer {server : Server} (h : server ∈ located) :
    (∃ table ∈ tables, cluster.Holds table server.instanceId) ∧
      cluster.server? server.instanceId = some server := by
  obtain ⟨table, htable, found, hfound, ⟨_, segments⟩, hholder, rfl⟩ :=
    (mem_segmentsByServer hlocated).mp h
  obtain ⟨instanceId, placement, hplacement, hsegments, hne, hserver⟩ :=
    (mem_holders hfound).mp hholder
  obtain rfl := instanceId_of_server? hserver
  exact ⟨⟨table, htable, placement, segments, hplacement, hsegments, hne⟩, hserver⟩

/-- For an instance that holds a part of a table a server is listed. -/
theorem exists_mem_segmentsByServer {table instanceId : String} (htable : table ∈ tables)
    (h : cluster.Holds table instanceId) : ∃ server ∈ located, server.instanceId = instanceId := by
  obtain ⟨found, hfound⟩ := exists_segmentsByServer_iff.mp ⟨located, hlocated⟩ table htable
  have hserver := (exists_holders_iff.mp ⟨found, hfound⟩).2 instanceId h
  obtain ⟨server, hserver⟩ := Option.isSome_iff_exists.mp (server?_isSome.mpr hserver)
  obtain ⟨placement, segments, hplacement, hsegments, hne⟩ := h
  have hholder := (mem_holders hfound).mpr
    ⟨instanceId, placement, hplacement, hsegments, hne, hserver⟩
  refine ⟨server, ?_, instanceId_of_server? hserver⟩
  exact (mem_segmentsByServer hlocated).mpr ⟨table, htable, found, hfound, _, hholder, rfl⟩

/-- The servers that are listed are of different instances. -/
theorem nodup_instanceId_keys : (located.keys.map (·.instanceId)).Nodup := by
  refine List.Nodup.map_on (fun a ha b hb heq => ?_) Std.ExtTreeMap.nodup_keys
  have hfirst := (holds_of_mem_segmentsByServer hlocated (Std.ExtTreeMap.mem_keys.mp ha)).2
  have hsecond := (holds_of_mem_segmentsByServer hlocated (Std.ExtTreeMap.mem_keys.mp hb)).2
  rw [heq] at hfirst
  exact Option.some.inj (hfirst.symm.trans hsecond)

/-- **The servers stand for the instances** that hold a part of one of the tables. -/
theorem mem_instanceId_keys {instanceId : String} :
    instanceId ∈ located.keys.map (·.instanceId) ↔
      ∃ table ∈ tables, cluster.Holds table instanceId := by
  rw [List.mem_map]
  constructor
  · rintro ⟨server, hserver, rfl⟩
    exact (holds_of_mem_segmentsByServer hlocated (Std.ExtTreeMap.mem_keys.mp hserver)).1
  · rintro ⟨table, htable, hholds⟩
    obtain ⟨server, hserver, rfl⟩ := exists_mem_segmentsByServer hlocated htable hholds
    exact ⟨server, Std.ExtTreeMap.mem_keys.mpr hserver, rfl⟩

theorem length_keys_le : located.keys.length ≤ (cluster.instances tables).length := by
  have hsub := List.subperm_of_subset (nodup_instanceId_keys hlocated) fun instanceId hmem =>
    mem_instances.mpr ((mem_instanceId_keys hlocated).mp hmem)
  have hle := hsub.length_le
  rwa [List.length_map] at hle

/-- **A server is listed with the segments that its instance holds** of the tables. -/
theorem mem_iff_stores {server : Server} {segments : SegmentSet}
    (h : located[server]? = some segments) {segment : String} :
    segment ∈ segments ↔ ∃ table ∈ tables, cluster.Stores table server.instanceId segment := by
  have hrecorded : segment ∈ segments ↔ Recorded located server segment := by
    rw [Recorded, h]
    simp
  rw [hrecorded, recorded_segmentsByServer hlocated]
  refine exists_congr fun table => and_congr_right fun htable => ?_
  constructor
  · rintro ⟨found, hfound, ⟨_, listed⟩, hholder, rfl, hmem⟩
    obtain ⟨instanceId, placement, hplacement, hsegments, -, hserver⟩ :=
      (mem_holders hfound).mp hholder
    obtain rfl := instanceId_of_server? hserver
    exact ⟨placement, listed, hplacement, hsegments, hmem⟩
  · rintro ⟨placement, listed, hplacement, hsegments, hmem⟩
    obtain ⟨found, hfound⟩ := exists_segmentsByServer_iff.mp ⟨located, hlocated⟩ table htable
    have hserver := (holds_of_mem_segmentsByServer hlocated (mem_iff_exists_entry.mpr ⟨_, h⟩)).2
    have hholder := (mem_holders hfound).mpr
      ⟨server.instanceId, placement, hplacement, hsegments, List.ne_nil_of_mem hmem, hserver⟩
    exact ⟨found, hfound, _, hholder, rfl, hmem⟩

end

/-- **The workers of a stage follow the segments** of the tables that it scans. -/
structure FollowsSegments (cluster : Cluster) (stage : Stage) (assignment : Assignment) :
    Prop where
  /-- There is one worker for an instance. -/
  distinct : (assignment.destinations.map (·.1.instanceId)).Nodup
  /-- The instances with a worker are those that hold a part of a table which is scanned. -/
  instances : ∀ instanceId, instanceId ∈ assignment.destinations.map (·.1.instanceId) ↔
    ∃ table, stage.Scans table ∧ cluster.Holds table instanceId
  /-- Each worker runs on the first server of its instance. -/
  first : ∀ server worker, (server, worker) ∈ assignment.destinations →
    cluster.servers.find? (fun other => other.instanceId == server.instanceId) = some server
  /-- The servers ascend. -/
  ascending : (assignment.destinations.map (·.1)).Pairwise fun a b => compare a b = .lt
  /-- The workers are numbered along the servers. -/
  numbered : assignment.workers.map (·.number.toNat) = List.range assignment.size
  /-- Each worker is hosted by its server. -/
  hosted : ∀ server worker, (server, worker) ∈ assignment.destinations →
    assignment.host? worker = some server
  /-- Each worker reads the segments that its instance holds of the tables which are scanned. -/
  reads : ∀ server worker, (server, worker) ∈ assignment.destinations → ∃ segments,
    assignment.reads? worker = some segments ∧ ∀ segment, segment ∈ segments ↔
      ∃ table, stage.Scans table ∧ cluster.Stores table server.instanceId segment
  /-- Only workers read segments. -/
  readers : ∀ worker segments, assignment.reads? worker = some segments →
    worker ∈ assignment.workers

/-- **A stage that scans is placed where the segments are.** -/
theorem followsSegments_of_placeScan {stage : Stage} {assignment : Assignment}
    (fits : (cluster.instances stage.root.tables).length < 2 ^ 32)
    (h : stage.placeScan cluster = .ok assignment) : cluster.FollowsSegments stage assignment := by
  obtain ⟨located, hlocated, -, rfl⟩ := Stage.placeScan_eq_ok.mp h
  rw [Assignment.foldl_add_eq stage.id Std.ExtTreeMap.ordered_keys_toList]
  have hkeys := Assignment.map_fst_destinations_oneEach stage.id located.toList
  rw [Std.ExtTreeMap.map_fst_toList_eq_keys] at hkeys
  have hlength : located.toList.length < 2 ^ 32 := by
    have hle := length_keys_le hlocated
    rw [← Std.ExtTreeMap.map_fst_toList_eq_keys, List.length_map] at hle
    omega
  have hnodup : (Assignment.oneEach stage.id located.toList).workers.Nodup := by
    rw [Assignment.workers_oneEach]
    exact Id.nodup_map_ofNat (by omega)
  have hinstances : (Assignment.oneEach stage.id located.toList).destinations.map
      (·.1.instanceId) = located.keys.map (·.instanceId) := by
    rw [← hkeys, List.map_map]
    rfl
  refine ⟨?_, fun instanceId => ?_, fun server worker hmem => ?_, ?_, ?_,
    fun server worker hmem => ?_, fun server worker hmem => ?_, fun worker segments hreads => ?_⟩
  · rw [hinstances]
    exact nodup_instanceId_keys hlocated
  · rw [hinstances, mem_instanceId_keys hlocated]
    exact exists_congr fun table => and_congr_left fun _ => Stage.mem_tables
  · have hkey := List.mem_map_of_mem (f := Prod.fst) hmem
    rw [hkeys] at hkey
    exact (holds_of_mem_segmentsByServer hlocated (Std.ExtTreeMap.mem_keys.mp hkey)).2
  · rw [hkeys]
    exact Std.ExtTreeMap.ordered_keys
  · rw [Assignment.size_eq, Assignment.workers_oneEach, Id.map_toNat_map_ofNat (by omega),
      List.length_map, List.length_range', List.range_eq_range']
  · exact Assignment.host?_eq_some.mpr (Assignment.firstHost_of_mem hnodup hmem)
  · obtain ⟨n, segments, hentry, rfl⟩ := Assignment.mem_destinations_oneEach.mp hmem
    have hreads : (Assignment.oneEach stage.id located.toList).reads? (Id.ofNat n) =
        some segments := (Assignment.reads?_oneEach (by omega)).mpr ⟨n, server, hentry, rfl⟩
    have hsegments : located[server]? = some segments :=
      Std.ExtTreeMap.mem_toList_iff_getElem?_eq_some.mp (List.mem_of_getElem? hentry)
    refine ⟨segments, hreads, fun segment => ?_⟩
    rw [mem_iff_stores hlocated hsegments]
    exact exists_congr fun table => and_congr_left fun _ => Stage.mem_tables
  · obtain ⟨n, server, hentry, rfl⟩ := (Assignment.reads?_oneEach (by omega)).mp hreads
    have hmem : (server, Id.ofNat n) ∈
        (Assignment.oneEach stage.id located.toList).destinations :=
      Assignment.mem_destinations_oneEach.mpr ⟨n, segments, hentry, rfl⟩
    exact List.mem_map_of_mem (f := Prod.snd) hmem

end Cluster

/-- **No segment is lost, invented or moved.** Where workers have been placed, those of a stage
other than the root stage that scans a table follow the segments of the tables that it scans, as
long as the instances with segments of them are fewer than there are numbers for workers. -/
theorem placeWorkers_followsSegments {stages : List Stage} {cluster : Cluster}
    {settings : Settings} {assignments : StageMap Assignment}
    (h : placeWorkers stages cluster settings = .ok assignments)
    (distinct : (stages.map (·.id)).Nodup) {stage : Stage} (hstage : stage ∈ stages)
    (hroot : stage.id ≠ rootStageId) (hscan : stage.isScan = true)
    (fits : (cluster.instances stage.root.tables).length < 2 ^ 32) :
    ∃ assignment, assignments[stage.id]? = some assignment ∧
      cluster.FollowsSegments stage assignment := by
  have checked : settings.check = .ok () := by
    obtain ⟨⟨⟩, hcheck, -⟩ := bind_eq_ok.mp h
    exact hcheck
  obtain ⟨assignment, hassignment⟩ :=
    mem_iff_exists_entry.mp ((mem_placeWorkers checked h distinct).mpr (List.mem_map_of_mem hstage))
  refine ⟨assignment, hassignment, Cluster.followsSegments_of_placeScan fits ?_⟩
  obtain ⟨other, hother, hid, hplace⟩ :=
    (getElem?_placeWorkers checked h distinct).mp hassignment
  obtain rfl : other = stage := List.inj_on_of_nodup_map distinct hother hstage hid
  rw [Stage.place, if_neg hroot, if_pos hscan] at hplace
  exact hplace

/-- A cluster with two tables. The last server has the instance id of the first, and an instance
without segments has no server. -/
def Cluster.scattered : Cluster :=
  let servers := [.onHost "north" 3 4, .onHost "east" 3 4, .onHost "north" 3 5]
  ((((Cluster.ofServers (.onHost "broker" 1 2) servers).place "t" "Server_north_3" ["s"]).place
    "t" "Server_east_3" ["u"]).place "t" "Server_gone_3" []).place "u" "Server_north_3" ["v"]

/-- A stage that scans both tables. -/
def Stage.joinedScans : Stage :=
  ⟨Id.ofNat 1, .join .inner [("a", "b")] (.tableScan "t" ["a"]) (.tableScan "u" ["b"])⟩

/-- The stage has a worker on each of the two servers that hold segments. -/
theorem placeWorkers_followsSegments_scattered : ∃ assignments assignment,
    placeWorkers [.joinedScans] .scattered .standard = .ok assignments ∧
      assignments[(Id.ofNat 1 : StageId)]? = some assignment ∧ assignment.size = 2 ∧
      Cluster.scattered.FollowsSegments .joinedScans assignment := by
  have hsome : ((placeWorkers [.joinedScans] .scattered .standard).toOption.any fun assignments =>
      assignments[(Id.ofNat 1 : StageId)]?.any fun assignment => assignment.size == 2) = true := by
    decide +kernel
  obtain ⟨assignments, hassignments, hfound⟩ := (Option.any_eq_true _ _).mp hsome
  obtain ⟨assignment, hassignment, hsize⟩ := (Option.any_eq_true _ _).mp hfound
  have hassignments := toOption_eq_some.mp hassignments
  have fits : (Cluster.scattered.instances Stage.joinedScans.root.tables).length < 2 ^ 32 := by
    decide +kernel
  obtain ⟨other, hother, hfollows⟩ := placeWorkers_followsSegments hassignments
    (List.nodup_singleton _) (List.mem_singleton_self Stage.joinedScans) (by decide) (by decide)
    fits
  obtain rfl : assignment = other := Option.some.inj (hassignment.symm.trans hother)
  exact ⟨assignments, assignment, hassignments, hassignment, eq_of_beq hsize, hfollows⟩

end StagedQuery
