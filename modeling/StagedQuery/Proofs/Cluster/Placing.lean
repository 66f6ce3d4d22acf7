import StagedQuery.Proofs.Assignment.Placement
import StagedQuery.Proofs.Sorting

/-!
# What was placed is read back

A cluster gets its tables by placing segments on instances, call by call
(`StagedQuery.Cluster.placeAll`). However the calls for different tables and instances are mixed,
an instance ends up with the segments of the calls that name it and the table, one call after the
other (`StagedQuery.Cluster.stored?_placeAll`), and nothing else about the order of the calls can
be seen (`StagedQuery.Cluster.placeAll_congr`).

Asking who holds a table reads this back (`StagedQuery.Cluster.holders_placeAll`): the answer lists
each instance with segments once, under the first server that goes by its id, in the order of
servers. There is no answer if no call named the table, or if segments were placed on an instance
that no server goes by; a call that places no segments on such an instance does no harm, but it
does make the table known.
-/

namespace StagedQuery

/-- A call that places segments of a table on an instance. -/
structure Placing where
  /-- The table. -/
  table : String
  /-- The instance. -/
  instanceId : String
  /-- The segments, in the order in which they are placed. -/
  segments : List String

/-- The calls that name a table and an instance. -/
def Placing.naming (placings : List Placing) (table instanceId : String) : List Placing :=
  placings.filter fun placing => placing.table = table ∧ placing.instanceId = instanceId

/-- Every call is among those that name what it names. -/
theorem Placing.mem_iff_mem_naming {placings : List Placing} {placing : Placing} :
    placing ∈ placings ↔ placing ∈ naming placings placing.table placing.instanceId := by
  rw [naming, List.mem_filter, decide_eq_true_eq]
  exact (and_iff_left ⟨rfl, rfl⟩).symm

/-- The segments of a table that calls place on an instance, one call after the other. -/
def Placing.gathered (placings : List Placing) (table instanceId : String) : List String :=
  (naming placings table instanceId).flatMap (·.segments)

theorem Placing.gathered_ne_nil {placings : List Placing} {table instanceId : String} :
    gathered placings table instanceId ≠ [] ↔ ∃ placing ∈ placings, placing.table = table ∧
      placing.instanceId = instanceId ∧ placing.segments ≠ [] := by
  simp only [gathered, naming, ne_eq, List.flatMap_eq_nil_iff, List.mem_filter, decide_eq_true_eq,
    not_forall, exists_prop, and_assoc]

namespace Cluster

open Placing

variable {cluster : Cluster}

/-- The cluster after some calls, one after the other. -/
def placeAll (cluster : Cluster) (placings : List Placing) : Cluster :=
  placings.foldl (fun cluster placing =>
    cluster.place placing.table placing.instanceId placing.segments) cluster

/-- What is stored of a table for an instance, if there is an entry for it. -/
def stored? (cluster : Cluster) (table instanceId : String) : Option (List String) :=
  cluster.tables[table]?.bind (·[instanceId]?)

theorem stored?_eq_some {table instanceId : String} {segments : List String} :
    cluster.stored? table instanceId = some segments ↔
      ∃ placement, cluster.tables[table]? = some placement ∧
        placement[instanceId]? = some segments :=
  Option.bind_eq_some_iff

/-- Clusters with the same machines and the same entries in their tables are equal. -/
theorem ext_stored? {a b : Cluster} (broker : a.broker = b.broker)
    (servers : a.servers = b.servers) (known : ∀ table, table ∈ a.tables ↔ table ∈ b.tables)
    (stored : ∀ table instanceId, a.stored? table instanceId = b.stored? table instanceId) :
    a = b := by
  have htables : a.tables = b.tables := by
    refine Std.ExtTreeMap.ext_getElem? fun table => ?_
    have hknown := known table
    have hstored := stored table
    rw [mem_iff_exists_entry, mem_iff_exists_entry] at hknown
    simp only [stored?] at hstored
    cases ha : a.tables[table]? with
    | none =>
      cases hb : b.tables[table]? with
      | none => rfl
      | some placement =>
        obtain ⟨_, hentry⟩ := hknown.mpr ⟨placement, hb⟩
        cases ha.symm.trans hentry
    | some placement =>
      obtain ⟨placement', hb⟩ := hknown.mp ⟨placement, ha⟩
      rw [ha, hb] at hstored
      rw [hb, Std.ExtTreeMap.ext_getElem? hstored]
  cases a
  cases b
  rw [mk.injEq]
  exact ⟨broker, servers, htables⟩

/-! ### One more call -/

theorem mem_tables_place {table instanceId other : String} {segments : List String} :
    other ∈ (cluster.place table instanceId segments).tables ↔
      table = other ∨ other ∈ cluster.tables := by
  rw [place, Std.ExtTreeMap.mem_alter]
  simp only [Std.LawfulEqCmp.compare_eq_iff_eq, Option.isSome_some]
  split_ifs with h
  · simp [h]
  · simp [h]

/-- **One more call** adds to what is stored under its names and changes nothing else. -/
theorem stored?_place {table instanceId table' instanceId' : String} {segments : List String} :
    (cluster.place table instanceId segments).stored? table' instanceId' =
      if table = table' ∧ instanceId = instanceId' then
        some ((cluster.stored? table instanceId).getD [] ++ segments)
      else cluster.stored? table' instanceId' := by
  rw [stored?, place, Std.ExtTreeMap.getElem?_alter]
  simp only [Std.LawfulEqCmp.compare_eq_iff_eq]
  by_cases htable : table = table'
  · subst htable
    have hstored (name : String) :
        ((cluster.tables[table]?).getD ∅)[name]? = cluster.stored? table name := by
      rw [stored?]
      cases cluster.tables[table]? with
      | none => exact Std.ExtTreeMap.getElem?_empty
      | some placement => rfl
    rw [if_pos rfl, Option.bind_some, Std.ExtTreeMap.getElem?_alter, hstored, hstored]
    simp only [Std.LawfulEqCmp.compare_eq_iff_eq, true_and]
  · rw [if_neg htable, if_neg fun h => htable h.1, stored?]

/-! ### All calls -/

theorem servers_placeAll (placings : List Placing) :
    (cluster.placeAll placings).servers = cluster.servers ∧
      (cluster.placeAll placings).broker = cluster.broker := by
  induction placings generalizing cluster with
  | nil => exact ⟨rfl, rfl⟩
  | cons placing rest ih => exact ih

theorem mem_tables_placeAll {placings : List Placing} {table : String} :
    table ∈ (cluster.placeAll placings).tables ↔
      (∃ placing ∈ placings, placing.table = table) ∨ table ∈ cluster.tables := by
  induction placings generalizing cluster with
  | nil => simp [placeAll]
  | cons placing rest ih =>
    rw [placeAll, List.foldl_cons, ← placeAll, ih, mem_tables_place]
    simp only [List.mem_cons, exists_eq_or_imp]
    exact or_left_comm.trans or_assoc.symm

/-- **What all calls store** for an instance are the segments of the calls that name it. -/
theorem stored?_placeAll {placings : List Placing} {table instanceId : String} :
    (cluster.placeAll placings).stored? table instanceId =
      if naming placings table instanceId = [] then cluster.stored? table instanceId
      else some ((cluster.stored? table instanceId).getD [] ++
        gathered placings table instanceId) := by
  induction placings generalizing cluster with
  | nil => rfl
  | cons placing rest ih =>
    rw [placeAll, List.foldl_cons, ← placeAll, ih, stored?_place, gathered, gathered, naming,
      naming, List.filter_cons]
    by_cases hnames : placing.table = table ∧ placing.instanceId = instanceId
    · rw [if_pos hnames, if_pos (decide_eq_true hnames), if_neg (List.cons_ne_nil _ _),
        List.flatMap_cons, Option.getD_some, hnames.1, hnames.2, List.append_assoc]
      split_ifs with hnone
      · rw [hnone, List.flatMap_nil, List.append_nil]
      · rfl
    · rw [if_neg hnames, if_neg fun h => hnames (of_decide_eq_true h)]

/-- **Nothing but the order of the calls with the same names** can be seen. -/
theorem placeAll_congr {placings others : List Placing}
    (h : ∀ table instanceId, naming placings table instanceId = naming others table instanceId) :
    cluster.placeAll placings = cluster.placeAll others := by
  have hmem (placing : Placing) : placing ∈ placings ↔ placing ∈ others := by
    rw [mem_iff_mem_naming, h, ← mem_iff_mem_naming]
  refine ext_stored? ?_ ?_ (fun table => ?_) fun table instanceId => ?_
  · rw [(servers_placeAll _).2, (servers_placeAll _).2]
  · rw [(servers_placeAll _).1, (servers_placeAll _).1]
  · simp only [mem_tables_placeAll, hmem]
  · rw [stored?_placeAll, stored?_placeAll, gathered, gathered, h]

/-! ### Who holds a table -/

theorem holds_iff {table instanceId : String} : cluster.Holds table instanceId ↔
    ∃ segments, cluster.stored? table instanceId = some segments ∧ segments ≠ [] := by
  simp only [Holds, stored?_eq_some]
  constructor
  · rintro ⟨placement, segments, hplacement, hsegments, hne⟩
    exact ⟨segments, ⟨placement, hplacement, hsegments⟩, hne⟩
  · rintro ⟨segments, ⟨placement, hplacement, hsegments⟩, hne⟩
    exact ⟨placement, segments, hplacement, hsegments, hne⟩

/-- **The holders of a table** are listed each under the instance that it goes by. -/
theorem mem_holders_iff_stored? {table : String} {found : List (Server × List String)}
    (h : cluster.holders table = .ok found) {server : Server} {segments : List String} :
    (server, segments) ∈ found ↔ cluster.stored? table server.instanceId = some segments ∧
      segments ≠ [] ∧ cluster.server? server.instanceId = some server := by
  rw [mem_holders h, stored?_eq_some]
  constructor
  · rintro ⟨instanceId, placement, hplacement, hsegments, hne, hserver⟩
    obtain rfl := instanceId_of_server? hserver
    exact ⟨⟨placement, hplacement, hsegments⟩, hne, hserver⟩
  · rintro ⟨⟨placement, hplacement, hsegments⟩, hne, hserver⟩
    exact ⟨server.instanceId, placement, hplacement, hsegments, hne, hserver⟩

/-- No two holders of a table go by the same instance id. -/
theorem nodup_instanceId_holders {table : String} {found : List (Server × List String)}
    (h : cluster.holders table = .ok found) : (found.map (·.1.instanceId)).Nodup := by
  obtain ⟨placement, -, located, hlocated, rfl⟩ := holders_eq_ok.mp h
  -- the holders stand for the entries of the table, which have different keys
  have hids : (held placement).map (·.1) = located.map (·.1.instanceId) := by
    rw [← List.forall₂_eq_eq_eq, List.forall₂_map_left_iff, List.forall₂_map_right_iff]
    exact hlocated.imp fun entry holder h => (instanceId_of_server? h.1).symm
  have hkeys : (placement.toList.map (·.1)).Nodup :=
    List.pairwise_map.mpr (Std.ExtTreeMap.ordered_keys_toList.imp ne_of_compare_lt)
  have hheld : ((held placement).map (·.1)).Nodup := hkeys.sublist (List.filter_sublist.map _)
  rwa [((sortBy_perm _ located).map _).nodup_iff, ← hids]

/-- The holders of a table ascend, and none is listed twice. -/
theorem ascending_holders {table : String} {found : List (Server × List String)}
    (h : cluster.holders table = .ok found) :
    found.Pairwise fun a b => compare a.1 b.1 = .lt := by
  have hdistinct := List.pairwise_map.mp (nodup_instanceId_holders h)
  obtain ⟨placement, -, located, -, rfl⟩ := holders_eq_ok.mp h
  refine ((pairwise_sortBy located).and hdistinct).imp fun ⟨hle, hne⟩ => ?_
  refine Ordering.isLE_iff_eq_lt_or_eq_eq.mp hle |>.resolve_right fun heq => hne ?_
  rw [Std.LawfulEqOrd.eq_of_compare heq]

/-- Where the holders of a table are not found, the fault is one of planning. -/
theorem holders_cases (cluster : Cluster) (table : String) :
    (∃ fault, cluster.holders table = .error (.planning fault)) ∨
      ∃ found, cluster.holders table = .ok found := by
  have hkind := Stage.holders_failsOnly cluster table
  cases h : cluster.holders table with
  | ok found => exact .inr ⟨found, rfl⟩
  | error fault =>
    cases fault with
    | planning fault => exact .inl ⟨fault, rfl⟩
    | _ => cases hkind _ h

/-! ### Reading back -/

/-- The first server that goes by an instance id. -/
def FirstNamed (servers : List Server) (instanceId : String) (server : Server) : Prop :=
  ∃ before after, servers = before ++ server :: after ∧ server.instanceId = instanceId ∧
    ∀ other ∈ before, other.instanceId ≠ instanceId

theorem server?_eq_some_iff {instanceId : String} {server : Server} :
    cluster.server? instanceId = some server ↔
      FirstNamed cluster.servers instanceId server := by
  simp only [server?, List.find?_eq_some_iff_append, beq_iff_eq, FirstNamed, Bool.not_eq_true',
    beq_eq_false_iff_ne]
  constructor
  · rintro ⟨hid, before, after, hservers, hbefore⟩
    exact ⟨before, after, hservers, hid, hbefore⟩
  · rintro ⟨before, after, hservers, hid, hbefore⟩
    exact ⟨hid, before, after, hservers, hbefore⟩

/-- The question who holds a table has no answer: no call named the table, or segments of it were
placed on an instance that no server goes by. -/
def Unanswerable (servers : List Server) (placings : List Placing) (table : String) : Prop :=
  (∀ placing ∈ placings, placing.table ≠ table) ∨
    ∃ instanceId, gathered placings table instanceId ≠ [] ∧
      ∀ server ∈ servers, server.instanceId ≠ instanceId

theorem unanswerable_iff {servers : List Server} {placings : List Placing} {table : String} :
    Unanswerable servers placings table ↔ (∀ placing ∈ placings, placing.table ≠ table) ∨
      ∃ placing ∈ placings, (placing.table = table ∧ placing.segments ≠ []) ∧
        ∀ server ∈ servers, server.instanceId ≠ placing.instanceId := by
  refine or_congr_right ⟨?_, ?_⟩
  · rintro ⟨instanceId, hne, hservers⟩
    obtain ⟨placing, hmem, htable, rfl, hsegments⟩ := gathered_ne_nil.mp hne
    exact ⟨placing, hmem, ⟨htable, hsegments⟩, hservers⟩
  · rintro ⟨placing, hmem, ⟨htable, hsegments⟩, hservers⟩
    exact ⟨placing.instanceId, gathered_ne_nil.mpr ⟨placing, hmem, htable, rfl, hsegments⟩,
      hservers⟩

instance (servers : List Server) (placings : List Placing) (table : String) :
    Decidable (Unanswerable servers placings table) :=
  decidable_of_iff _ unanswerable_iff.symm

/-- **The answer reads back what was placed** of a table. -/
structure ReadsBack (servers : List Server) (placings : List Placing) (table : String)
    (found : List (Server × List String)) : Prop where
  /-- The servers ascend, and none is listed twice. -/
  ascending : found.Pairwise fun a b => compare a.1 b.1 = .lt
  /-- No instance is listed twice. -/
  distinct : (found.map (·.1.instanceId)).Nodup
  /-- The instances listed are those on which segments were placed. -/
  instances : ∀ instanceId, instanceId ∈ found.map (·.1.instanceId) ↔
    gathered placings table instanceId ≠ []
  /-- Each is listed under the first server that goes by its id, with the segments of all calls
  that name it. -/
  holders : ∀ server segments, (server, segments) ∈ found →
    FirstNamed servers server.instanceId server ∧
      segments = gathered placings table server.instanceId

section

variable {broker : Server} {servers : List Server} {placings : List Placing} {table : String}

/-- What is stored after calls that began without tables. -/
theorem stored?_placeAll_ofServers {instanceId : String} {segments : List String} :
    ((ofServers broker servers).placeAll placings).stored? table instanceId = some segments ↔
      naming placings table instanceId ≠ [] ∧ gathered placings table instanceId = segments := by
  have hnone : (ofServers broker servers).stored? table instanceId = none := by
    rw [stored?, ofServers, Std.ExtTreeMap.getElem?_empty, Option.bind_none]
  rw [stored?_placeAll, hnone]
  split_ifs with hnaming
  · simp [hnaming]
  · simp [hnaming]

/-- The instances that hold a part of a table are those on which segments were placed. -/
theorem holds_placeAll_ofServers {instanceId : String} :
    ((ofServers broker servers).placeAll placings).Holds table instanceId ↔
      gathered placings table instanceId ≠ [] := by
  simp only [holds_iff, stored?_placeAll_ofServers]
  constructor
  · rintro ⟨_, ⟨-, rfl⟩, hne⟩
    exact hne
  · intro hne
    refine ⟨_, ⟨fun hnone => hne ?_, rfl⟩, hne⟩
    rw [gathered, hnone, List.flatMap_nil]

/-- **There is an answer** unless there can be none. -/
theorem exists_holders_placeAll_iff :
    (∃ found, ((ofServers broker servers).placeAll placings).holders table = .ok found) ↔
      ¬Unanswerable servers placings table := by
  have hnone : table ∉ (ofServers broker servers).tables := Std.ExtTreeMap.not_mem_empty
  rw [exists_holders_iff, mem_tables_placeAll, or_iff_left hnone]
  simp only [holds_placeAll_ofServers, (servers_placeAll _).1, Unanswerable, not_or, not_forall,
    not_exists, not_and, ne_eq, not_not, exists_prop]
  rfl

/-- **An answer reads back what was placed.** -/
theorem readsBack_of_holders {found : List (Server × List String)}
    (h : ((ofServers broker servers).placeAll placings).holders table = .ok found) :
    ReadsBack servers placings table found := by
  refine ⟨ascending_holders h, nodup_instanceId_holders h, fun instanceId => ?_,
    fun server segments hmem => ?_⟩
  · rw [List.mem_map]
    constructor
    · rintro ⟨⟨server, segments⟩, hmem, rfl⟩
      obtain ⟨hstored, hne, -⟩ := (mem_holders_iff_stored? h).mp hmem
      rwa [(stored?_placeAll_ofServers.mp hstored).2]
    · intro hne
      -- the instance has a server, and the first of its servers is listed
      have hholds : ((ofServers broker servers).placeAll placings).Holds table instanceId :=
        holds_placeAll_ofServers.mpr hne
      obtain ⟨server, hserver⟩ := Option.isSome_iff_exists.mp
        (server?_isSome.mpr ((exists_holders_iff.mp ⟨found, h⟩).2 instanceId hholds))
      obtain rfl := instanceId_of_server? hserver
      obtain ⟨segments, hstored, hsegments⟩ := holds_iff.mp hholds
      exact ⟨(server, segments),
        (mem_holders_iff_stored? h).mpr ⟨hstored, hsegments, hserver⟩, rfl⟩
  · obtain ⟨hstored, -, hserver⟩ := (mem_holders_iff_stored? h).mp hmem
    rw [server?_eq_some_iff, (servers_placeAll _).1] at hserver
    exact ⟨hserver, (stored?_placeAll_ofServers.mp hstored).2.symm⟩

end

/-- **What was placed is read back**, for every table after any calls. Asking who holds the table
fails, and the fault is one of planning, exactly if the question has no answer; otherwise the
answer reads back what was placed. Calls that name different tables or instances do not affect one
another: two sequences that agree on the calls for each table and instance give the same
cluster. -/
theorem holders_placeAll (broker : Server) (servers : List Server) (placings : List Placing)
    (table : String) :
    ((∃ fault, ((ofServers broker servers).placeAll placings).holders table =
        .error (.planning fault)) ↔ Unanswerable servers placings table) ∧
    (¬Unanswerable servers placings table →
      ∃ found, ((ofServers broker servers).placeAll placings).holders table = .ok found ∧
        ReadsBack servers placings table found) ∧
    ∀ others, (∀ table instanceId,
        naming placings table instanceId = naming others table instanceId) →
      (ofServers broker servers).placeAll placings =
        (ofServers broker servers).placeAll others := by
  have hanswer : (∃ found, ((ofServers broker servers).placeAll placings).holders table =
      .ok found) ↔ ¬Unanswerable servers placings table := exists_holders_placeAll_iff
  refine ⟨⟨?_, fun hnone => ?_⟩, fun hsome => ?_, fun others => placeAll_congr⟩
  · rintro ⟨fault, hfault⟩
    by_contra hsome
    obtain ⟨found, hfound⟩ := hanswer.mpr hsome
    cases hfault.symm.trans hfound
  · rcases holders_cases ((ofServers broker servers).placeAll placings) table with
      hfault | hfound
    · exact hfault
    · exact absurd hnone (hanswer.mp hfound)
  · obtain ⟨found, hfound⟩ := hanswer.mpr hsome
    exact ⟨found, hfound, readsBack_of_holders hfound⟩

/-- Calls for two tables and three instances, mixed: nothing is placed on one of the instances, of
which there is no server. -/
def mixedPlacings : List Placing :=
  [⟨"t", "Server_north_3", ["b"]⟩, ⟨"u", "Server_north_3", ["x"]⟩, ⟨"t", "Server_gone_3", []⟩,
    ⟨"t", "Server_east_3", ["c"]⟩, ⟨"t", "Server_north_3", ["a", "b"]⟩]

/-- The answer lists two servers, in order, with the segments of all calls. -/
theorem holders_placeAll_mixed :
    let servers := [Server.onHost "north" 3 4, .onHost "east" 3 4, .onHost "north" 3 5]
    ¬Unanswerable servers mixedPlacings "t" ∧ Unanswerable servers mixedPlacings "v" ∧
      ∃ found, ((ofServers (.onHost "broker" 1 2) servers).placeAll mixedPlacings).holders "t" =
          .ok found ∧
        found = [(.onHost "east" 3 4, ["c"]), (.onHost "north" 3 4, ["b", "a", "b"])] ∧
        ReadsBack servers mixedPlacings "t" found := by
  intro servers
  have hanswer : ¬Unanswerable servers mixedPlacings "t" := by decide
  obtain ⟨-, hsome, -⟩ := holders_placeAll (.onHost "broker" 1 2) servers mixedPlacings "t"
  obtain ⟨found, hfound, hreads⟩ := hsome hanswer
  refine ⟨hanswer, by decide, found, hfound, ?_, hreads⟩
  have hsame : ((ofServers (.onHost "broker" 1 2) servers).placeAll mixedPlacings).holders "t" =
      .ok [(.onHost "east" 3 4, ["c"]), (.onHost "north" 3 4, ["b", "a", "b"])] := by rfl
  exact Except.ok.inj (hfound.symm.trans hsame)

end Cluster

end StagedQuery
