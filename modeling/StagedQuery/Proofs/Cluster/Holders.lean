import StagedQuery.Assignment.Placement
import StagedQuery.Proofs.Keyed
import StagedQuery.Proofs.Noting
import StagedQuery.Proofs.Outcome

/-!
# Who holds the tables

A cluster description says which instance holds which segments of a table, and refers to
instances by name. The servers that hold a table are found exactly if the table is known
and every instance that holds a part of it has a server
(`StagedQuery.Cluster.exists_holders_iff`); instances that hold nothing are passed over
and need none. Where several tables are taken together, the servers are those that hold
one of them (`StagedQuery.Cluster.mem_segmentsByServer`), and each is recorded with the segments
that it holds of all of them (`StagedQuery.Cluster.recorded_segmentsByServer`).
-/

namespace StagedQuery

namespace Cluster

variable {cluster : Cluster}

/-- An instance holds a part of a table. -/
def Holds (cluster : Cluster) (table instanceId : String) : Prop :=
  ∃ placement segments, cluster.tables[table]? = some placement ∧
    placement[instanceId]? = some segments ∧ segments ≠ []

/-! ### Servers -/

theorem mem_orderedServers {server : Server} :
    server ∈ cluster.orderedServers ↔ server ∈ cluster.servers := by
  rw [orderedServers, Std.ExtTreeSet.mem_toList]
  exact mem_noteAll_empty

theorem nodup_orderedServers : cluster.orderedServers.Nodup :=
  Std.ExtTreeSet.ordered_toList.imp ne_of_compare_lt

theorem orderedServers_eq_nil : cluster.orderedServers = [] ↔ cluster.servers = [] := by
  rw [List.eq_nil_iff_forall_not_mem, List.eq_nil_iff_forall_not_mem]
  simp only [mem_orderedServers]

theorem server?_isSome {instanceId : String} :
    (cluster.server? instanceId).isSome = true ↔
      ∃ server ∈ cluster.servers, server.instanceId = instanceId := by
  rw [server?, List.find?_isSome]
  simp only [beq_iff_eq]

theorem instanceId_of_server? {instanceId : String} {server : Server}
    (h : cluster.server? instanceId = some server) : server.instanceId = instanceId :=
  eq_of_beq (List.find?_some (p := fun other : Server => other.instanceId == instanceId) h)

theorem serverFor_eq_ok {table instanceId : String} {server : Server} :
    cluster.serverFor table instanceId = .ok server ↔
      cluster.server? instanceId = some server := by
  rw [serverFor]
  cases cluster.server? instanceId with
  | some found => simp
  | none => simp

/-! ### Who holds a table -/

/-- The instances that hold a part of a table, each with its segments. -/
def held (placement : Holdings) : List (String × List String) :=
  placement.toList.filter fun (_, segments) => !segments.isEmpty

theorem mem_held {placement : Holdings} {instanceId : String} {segments : List String} :
    (instanceId, segments) ∈ held placement ↔
      placement[instanceId]? = some segments ∧ segments ≠ [] := by
  rw [held, List.mem_filter, Std.ExtTreeMap.mem_toList_iff_getElem?_eq_some]
  simp only [Bool.not_eq_true', List.isEmpty_eq_false_iff]

/-- **How the holders of a table are found**: each instance that holds a part of it is looked up
by its id and keeps its segments, and the servers that come out are put in order. -/
theorem holders_eq_ok {table : String} {found : List (Server × List String)} :
    cluster.holders table = .ok found ↔
      ∃ placement, cluster.tables[table]? = some placement ∧
        ∃ located, List.Forall₂ (fun entry holder =>
            cluster.server? entry.1 = some holder.1 ∧ holder.2 = entry.2)
          (held placement) located ∧ sortBy (·.1) located = found := by
  rw [holders]
  cases cluster.tables[table]? with
  | none => exact ⟨nofun, nofun⟩
  | some placement =>
    have hstep (entry : String × List String) (holder : Server × List String) :
        (cluster.serverFor table entry.1 >>= fun server =>
            (pure (server, entry.2) : Except PlanError _)) = .ok holder ↔
          cluster.server? entry.1 = some holder.1 ∧ holder.2 = entry.2 := by
      rw [bind_eq_ok]
      simp only [serverFor_eq_ok, pure_eq_ok]
      constructor
      · rintro ⟨server, hserver, rfl⟩
        exact ⟨hserver, rfl⟩
      · rintro ⟨hserver, hsegments⟩
        exact ⟨holder.1, hserver, by rw [← hsegments]⟩
    constructor
    · intro h
      obtain ⟨located, hlocated, hfound⟩ := bind_eq_ok.mp h
      exact ⟨placement, rfl, located,
        (mapM_eq_ok.mp hlocated).imp fun entry holder => (hstep entry holder).mp,
        pure_eq_ok.mp hfound⟩
    · rintro ⟨_, ⟨⟩, located, hlocated, hfound⟩
      exact bind_eq_ok.mpr ⟨located,
        mapM_eq_ok.mpr (hlocated.imp fun entry holder => (hstep entry holder).mpr),
        pure_eq_ok.mpr hfound⟩

/-- The holders of a table are found exactly if the table is known and every instance that holds
a part of it has a server. -/
theorem exists_holders_iff {table : String} :
    (∃ found, cluster.holders table = .ok found) ↔
      table ∈ cluster.tables ∧ ∀ instanceId, cluster.Holds table instanceId →
        ∃ server ∈ cluster.servers, server.instanceId = instanceId := by
  constructor
  · rintro ⟨found, hfound⟩
    obtain ⟨placement, hplacement, located, hlocated, -⟩ := holders_eq_ok.mp hfound
    refine ⟨mem_iff_exists_entry.mpr ⟨placement, hplacement⟩, ?_⟩
    rintro instanceId ⟨other, segments, hother, hsegments, hne⟩
    rw [hplacement] at hother
    cases hother
    obtain ⟨holder, -, hserver, -⟩ :=
      result_of_item hlocated (instanceId, segments) (mem_held.mpr ⟨hsegments, hne⟩)
    exact server?_isSome.mp (hserver ▸ rfl)
  · rintro ⟨hknown, hlocated⟩
    -- only instances with segments are looked up, and each of these has a server
    obtain ⟨placement, hplacement⟩ := mem_iff_exists_entry.mp hknown
    obtain ⟨located, hfound⟩ : ∃ located, List.Forall₂
        (fun (entry : String × List String) (holder : Server × List String) =>
          cluster.server? entry.1 = some holder.1 ∧ holder.2 = entry.2)
        (held placement) located := by
      refine exists_forall₂ fun entry hentry => ?_
      obtain ⟨hsegments, hne⟩ := mem_held.mp hentry
      obtain ⟨server, hserver⟩ := Option.isSome_iff_exists.mp
        (server?_isSome.mpr (hlocated entry.1 ⟨placement, entry.2, hplacement, hsegments, hne⟩))
      exact ⟨(server, entry.2), hserver, rfl⟩
    exact ⟨_, holders_eq_ok.mpr ⟨placement, hplacement, located, hfound, rfl⟩⟩

/-- Some server holds a table if some instance does. -/
theorem holders_ne_nil {table : String} {found : List (Server × List String)}
    (h : cluster.holders table = .ok found) :
    (∃ holder, holder ∈ found) ↔ ∃ instanceId, cluster.Holds table instanceId := by
  obtain ⟨placement, hplacement, located, hlocated, rfl⟩ := holders_eq_ok.mp h
  simp only [(sortBy_perm _ located).mem_iff]
  constructor
  · rintro ⟨holder, hholder⟩
    obtain ⟨⟨instanceId, segments⟩, hentry, -⟩ := item_of_result hlocated holder hholder
    obtain ⟨hsegments, hne⟩ := mem_held.mp hentry
    exact ⟨instanceId, placement, segments, hplacement, hsegments, hne⟩
  · rintro ⟨instanceId, other, segments, hother, hsegments, hne⟩
    rw [hplacement] at hother
    cases hother
    obtain ⟨holder, hholder, -⟩ :=
      result_of_item hlocated (instanceId, segments) (mem_held.mpr ⟨hsegments, hne⟩)
    exact ⟨holder, hholder⟩

/-! ### The segments of several tables -/

/-- What servers hold, together with what they hold of one more table. -/
def addHolders (held : Std.ExtTreeMap Server SegmentSet) (located : List (Server × List String)) :
    Std.ExtTreeMap Server SegmentSet :=
  located.foldl (fun held (server, segments) =>
    held.alter server fun set? =>
      some (segments.foldl (fun set segment => set.insert segment) (set?.getD ∅))) held

theorem mem_addHolders {held : Std.ExtTreeMap Server SegmentSet}
    {located : List (Server × List String)} {server : Server} :
    server ∈ addHolders held located ↔ server ∈ held ∨ ∃ holder ∈ located, holder.1 = server := by
  induction located generalizing held with
  | nil => simp [addHolders]
  | cons holder rest ih =>
    rw [addHolders, List.foldl_cons, ← addHolders, ih, Std.ExtTreeMap.mem_alter]
    simp only [Std.LawfulEqCmp.compare_eq_iff_eq, Option.isSome_some, List.mem_cons,
      exists_eq_or_imp]
    by_cases h : holder.1 = server
    · simp [h]
    · simp [h]

/-- Taking tables together succeeds if the servers that hold each of them are found. -/
theorem exists_segmentsByServer_iff {tables : List String} :
    (∃ held, cluster.segmentsByServer tables = .ok held) ↔
      ∀ table ∈ tables, ∃ found, cluster.holders table = .ok found := by
  constructor
  · rintro ⟨held, hheld⟩ table htable
    obtain ⟨founds, hfounds, -⟩ := foldlM_collect_eq_ok.mp hheld
    obtain ⟨found, -, hfound⟩ := result_of_item hfounds table htable
    exact ⟨found, hfound⟩
  · intro h
    obtain ⟨founds, hfounds⟩ := exists_forall₂ h
    exact ⟨_, foldlM_collect_eq_ok.mpr ⟨founds, hfounds, rfl⟩⟩

/-- **Taking tables together** adds what is held of one table after the other: what holds of
nothing, and comes to hold with one of the holders of a table, holds at the end if it came to hold
with one of the tables. -/
theorem segmentsByServer_iff {P : Std.ExtTreeMap Server SegmentSet → Prop}
    {R : Server × List String → Prop} (empty : ¬P ∅)
    (add : ∀ held located, P (addHolders held located) ↔ P held ∨ ∃ holder ∈ located, R holder)
    {tables : List String} {held : Std.ExtTreeMap Server SegmentSet}
    (h : cluster.segmentsByServer tables = .ok held) :
    P held ↔ ∃ table ∈ tables, ∃ found, cluster.holders table = .ok found ∧
      ∃ holder ∈ found, R holder := by
  -- what is held of the tables in front does not go away
  suffices ∀ (tables : List String) (before : Std.ExtTreeMap Server SegmentSet),
      tables.foldlM (fun held table => cluster.holders table >>= fun located =>
        (pure (addHolders held located) : Except PlanError _)) before = .ok held →
      (P held ↔ P before ∨ ∃ table ∈ tables, ∃ found,
        cluster.holders table = .ok found ∧ ∃ holder ∈ found, R holder) from
    (this tables ∅ h).trans (or_iff_right empty)
  intro tables
  induction tables with
  | nil =>
    intro before h
    rw [List.foldlM_nil, pure_eq_ok] at h
    simp [h]
  | cons table rest ih =>
    intro before h
    obtain ⟨next, hnext, hrest⟩ := foldlM_cons_eq_ok.mp h
    obtain ⟨found, hfound, hadded⟩ := bind_eq_ok.mp hnext
    rw [ih next hrest, ← pure_eq_ok.mp hadded, add, or_assoc]
    simp [hfound]

/-- The servers that hold segments of some tables are those that hold one of the
tables. -/
theorem mem_segmentsByServer {tables : List String} {held : Std.ExtTreeMap Server SegmentSet}
    (h : cluster.segmentsByServer tables = .ok held) {server : Server} :
    server ∈ held ↔ ∃ table ∈ tables, ∃ found, cluster.holders table = .ok found ∧
      ∃ holder ∈ found, holder.1 = server :=
  segmentsByServer_iff (P := (server ∈ ·)) (R := (·.1 = server)) Std.ExtTreeMap.not_mem_empty
    (fun _ _ => mem_addHolders) h

/-! ### Which segments a server holds -/

/-- A server is recorded with a segment. -/
def Recorded (held : Std.ExtTreeMap Server SegmentSet) (server : Server) (segment : String) :
    Prop :=
  ∃ segments, held[server]? = some segments ∧ segment ∈ segments

theorem recorded_addHolders {held : Std.ExtTreeMap Server SegmentSet}
    {located : List (Server × List String)} {server : Server} {segment : String} :
    Recorded (addHolders held located) server segment ↔
      Recorded held server segment ∨
        ∃ holder ∈ located, holder.1 = server ∧ segment ∈ holder.2 := by
  induction located generalizing held with
  | nil => simp [addHolders]
  | cons holder rest ih =>
    rw [addHolders, List.foldl_cons, ← addHolders, ih]
    simp only [List.mem_cons, exists_eq_or_imp]
    rw [← or_assoc]
    refine or_congr ?_ Iff.rfl
    rw [Recorded, Std.ExtTreeMap.getElem?_alter]
    split_ifs with h
    · -- the segments of the holder join those that the server has already
      obtain rfl := Std.LawfulEqOrd.eq_of_compare h
      rw [Recorded]
      have hset (set : SegmentSet) : segment ∈ holder.2.foldl (fun set segment =>
          set.insert segment) set ↔ segment ∈ set ∨ segment ∈ holder.2 := mem_noteAll
      cases held[holder.1]? with
      | none => simp [hset]
      | some set => simp [hset]
    · rw [Std.LawfulEqCmp.compare_eq_iff_eq] at h
      simp [Recorded, h]

/-- The segments that a server is recorded with are those it holds of one of the tables. -/
theorem recorded_segmentsByServer {tables : List String}
    {held : Std.ExtTreeMap Server SegmentSet} (h : cluster.segmentsByServer tables = .ok held)
    {server : Server} {segment : String} :
    Recorded held server segment ↔ ∃ table ∈ tables, ∃ found, cluster.holders table = .ok found ∧
      ∃ holder ∈ found, holder.1 = server ∧ segment ∈ holder.2 := by
  refine segmentsByServer_iff (P := (Recorded · server segment))
    (R := fun holder => holder.1 = server ∧ segment ∈ holder.2) ?_
    (fun _ _ => recorded_addHolders) h
  rintro ⟨segments, hsegments, -⟩
  rw [Std.ExtTreeMap.getElem?_empty] at hsegments
  exact nomatch hsegments

/-- **The holders of a table** are the servers of the instances that hold a part of it. -/
theorem mem_holders {table : String} {found : List (Server × List String)}
    (h : cluster.holders table = .ok found) {server : Server} {segments : List String} :
    (server, segments) ∈ found ↔ ∃ instanceId placement, cluster.tables[table]? = some placement ∧
      placement[instanceId]? = some segments ∧ segments ≠ [] ∧
      cluster.server? instanceId = some server := by
  obtain ⟨placement, hplacement, located, hlocated, rfl⟩ := holders_eq_ok.mp h
  rw [(sortBy_perm _ located).mem_iff]
  constructor
  · intro hmem
    obtain ⟨⟨instanceId, listed⟩, hentry, hserver, rfl⟩ := item_of_result hlocated _ hmem
    obtain ⟨hsegments, hne⟩ := mem_held.mp hentry
    exact ⟨instanceId, placement, hplacement, hsegments, hne, hserver⟩
  · rintro ⟨instanceId, other, hother, hsegments, hne, hserver⟩
    obtain rfl : placement = other := Option.some.inj (hplacement.symm.trans hother)
    obtain ⟨⟨server', segments'⟩, hmem, hserver', hsegments'⟩ :=
      result_of_item hlocated (instanceId, segments) (mem_held.mpr ⟨hsegments, hne⟩)
    obtain rfl : server = server' := Option.some.inj (hserver.symm.trans hserver')
    obtain rfl : segments' = segments := hsegments'
    exact hmem

end Cluster

end StagedQuery
