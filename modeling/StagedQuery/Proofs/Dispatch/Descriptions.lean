import StagedQuery.Proofs.Dispatch.Planner
import StagedQuery.Proofs.Sorting

/-!
# A plan does not depend on how its cluster is described

The servers of a cluster and the segments that an instance holds are described by lists, so the
same cluster has many descriptions: in any order, and with repetitions. Two descriptions that say
the same are **alike** (`StagedQuery.Cluster.Alike`), and planning cannot tell them apart: it makes
the same plan for both, or fails for both with the same fault
(`StagedQuery.Planner.plan_eq_of_alike`).

A description is read in three ways, and each of them forgets the order:

* a stage that runs anywhere takes the servers in order, each once
  (`StagedQuery.Cluster.Alike.orderedServers_eq`);
* an instance is looked up by its id, which only one server goes by
  (`StagedQuery.Cluster.Alike.server?_eq`);
* a stage that scans gathers the segments of each server in a set
  (`StagedQuery.Cluster.Alike.segmentsByServer_eq`).

The last of these reads the tables instance by instance and may fail at any of them, so the two
descriptions are followed side by side: their outcomes **agree** at every step
(`StagedQuery.Agree`).

That only one server goes by an id is needed: of several, the first in the list is meant
(`StagedQuery.Planner.exists_alike_plan_ne`).
-/

namespace StagedQuery

namespace Cluster

/-! ### Descriptions of one cluster -/

/-- Two lists have the same members. -/
def SameMembers {α : Type} (xs ys : List α) : Prop := ∀ a, a ∈ xs ↔ a ∈ ys

theorem SameMembers.refl {α : Type} (xs : List α) : SameMembers xs xs := fun _ => Iff.rfl

theorem SameMembers.of_subset {α : Type} {xs ys : List α} (h : xs ⊆ ys) (h' : ys ⊆ xs) :
    SameMembers xs ys := fun _ => ⟨@h _, @h' _⟩

theorem SameMembers.append {α : Type} {xs ys xs' ys' : List α} (h : SameMembers xs ys)
    (h' : SameMembers xs' ys') : SameMembers (xs ++ xs') (ys ++ ys') := fun a => by
  rw [List.mem_append, List.mem_append, h a, h' a]

theorem SameMembers.isEmpty_eq {α : Type} {xs ys : List α} (h : SameMembers xs ys) :
    xs.isEmpty = ys.isEmpty := by
  rw [Bool.eq_iff_iff, List.isEmpty_iff, List.isEmpty_iff, List.eq_nil_iff_forall_not_mem,
    List.eq_nil_iff_forall_not_mem]
  exact forall_congr' fun a => not_congr (h a)

/-- Two tables are stored at the same instances, with the same segments at each. -/
def SameStore (placement placement' : Holdings) : Prop :=
  ∀ instanceId : String, Option.Rel SameMembers placement[instanceId]? placement'[instanceId]?

/-- **Two descriptions are alike**: they say the same but for the order in which servers and
segments are listed, and for repetitions. -/
structure Alike (a b : Cluster) : Prop where
  /-- They have the same broker. -/
  broker : a.broker = b.broker
  /-- They list the same servers. -/
  servers : SameMembers a.servers b.servers
  /-- They have the same tables, which are stored alike. -/
  tables : ∀ table : String, Option.Rel SameStore a.tables[table]? b.tables[table]?

/-- No two servers go by the same instance id. -/
def Unambiguous (cluster : Cluster) : Prop :=
  ∀ s ∈ cluster.servers, ∀ t ∈ cluster.servers, s.instanceId = t.instanceId → s = t

instance (cluster : Cluster) : Decidable cluster.Unambiguous :=
  inferInstanceAs (Decidable (∀ s ∈ cluster.servers, ∀ t ∈ cluster.servers,
    s.instanceId = t.instanceId → s = t))

variable {a b : Cluster}

theorem rel_getD {α : Type} {R : α → α → Prop} {x y : Option α} (h : Option.Rel R x y)
    {default default' : α} (hdefault : R default default') :
    R (x.getD default) (y.getD default') := by
  cases h with
  | some related => exact related
  | none => exact hdefault

theorem sameStore_empty : SameStore ∅ ∅ := by
  intro instanceId
  rw [Std.ExtTreeMap.getElem?_empty]
  exact .none

theorem alike_ofServers (broker : Server) {servers servers' : List Server}
    (h : SameMembers servers servers') :
    (ofServers broker servers).Alike (ofServers broker servers') := by
  refine ⟨rfl, h, fun table => ?_⟩
  have hnone : (∅ : Std.ExtTreeMap String Holdings)[table]? = none :=
    Std.ExtTreeMap.getElem?_empty
  rw [ofServers, ofServers, hnone]
  exact .none

/-- What is added to alike descriptions under the same names leaves them alike. -/
theorem Alike.place (h : Alike a b) (table instanceId : String) {segments segments' : List String}
    (hsegments : SameMembers segments segments') :
    (a.place table instanceId segments).Alike (b.place table instanceId segments') := by
  refine ⟨h.broker, h.servers, fun other => ?_⟩
  rw [Cluster.place, Cluster.place, Std.ExtTreeMap.getElem?_alter, Std.ExtTreeMap.getElem?_alter]
  split_ifs
  · refine .some fun otherId => ?_
    have hstore := rel_getD (h.tables table) sameStore_empty
    rw [Std.ExtTreeMap.getElem?_alter, Std.ExtTreeMap.getElem?_alter]
    split_ifs
    · exact .some ((rel_getD (hstore instanceId) (SameMembers.refl [])).append hsegments)
    · exact hstore otherId
  · exact h.tables other

/-! ### The servers -/

/-- **The servers in order** are the same. -/
theorem Alike.orderedServers_eq (h : Alike a b) : a.orderedServers = b.orderedServers :=
  congrArg Std.ExtTreeSet.toList (noteAll_congr ∅ h.servers)

/-- Where instance ids are unambiguous, the server with the id is the one that is meant. -/
theorem Unambiguous.server?_eq_some (h : a.Unambiguous) {instanceId : String} {server : Server} :
    a.server? instanceId = some server ↔
      server ∈ a.servers ∧ server.instanceId = instanceId := by
  constructor
  · intro hfound
    exact ⟨List.mem_of_find?_eq_some hfound, instanceId_of_server? hfound⟩
  · rintro ⟨hserver, hid⟩
    obtain ⟨found, hfound⟩ :=
      Option.isSome_iff_exists.mp (server?_isSome.mpr ⟨server, hserver, hid⟩)
    have hsame := (instanceId_of_server? hfound).trans hid.symm
    rw [hfound, h found (List.mem_of_find?_eq_some hfound) server hserver hsame]

theorem Alike.unambiguous (h : Alike a b) (hunique : a.Unambiguous) : b.Unambiguous :=
  fun s hs t ht => hunique s ((h.servers s).mpr hs) t ((h.servers t).mpr ht)

/-- **The server of an instance** is the same. -/
theorem Alike.server?_eq (h : Alike a b) (hunique : a.Unambiguous) (instanceId : String) :
    a.server? instanceId = b.server? instanceId := by
  refine Option.ext fun server => ?_
  rw [hunique.server?_eq_some, (h.unambiguous hunique).server?_eq_some, h.servers server]

/-! ### The segments -/

/-- Two entries have the same key, and their lists of segments the same members. -/
def SameEntry {κ : Type} (entry entry' : κ × List String) : Prop :=
  entry.1 = entry'.1 ∧ SameMembers entry.2 entry'.2

/-- Maps with the same members under each key have the same entries, in the same order. -/
theorem SameStore.forall₂_toList {placement placement' : Holdings}
    (h : SameStore placement placement') :
    List.Forall₂ SameEntry placement.toList placement'.toList := by
  -- with their segments gathered in sets, the two maps are equal
  have hmap : placement.map (fun _ segments => noteAll ∅ segments) =
      placement'.map fun _ segments => noteAll ∅ segments := by
    refine Std.ExtTreeMap.ext_getElem? fun instanceId => ?_
    have hrel := h instanceId
    rw [Std.ExtTreeMap.getElem?_map, Std.ExtTreeMap.getElem?_map]
    generalize placement[instanceId]? = segments?, placement'[instanceId]? = segments'? at hrel
    cases hrel with
    | some hsame => exact congrArg some (noteAll_congr ∅ hsame)
    | none => rfl
  have hlist := congrArg Std.ExtTreeMap.toList hmap
  rw [Std.ExtTreeMap.toList_map, Std.ExtTreeMap.toList_map, ← List.forall₂_eq_eq_eq,
    List.forall₂_map_left_iff, List.forall₂_map_right_iff] at hlist
  refine hlist.imp fun entry entry' heq => ?_
  obtain ⟨hkey, hsegments⟩ := Prod.mk.inj heq
  exact ⟨hkey, noteAll_empty_inj.mp hsegments⟩

/-- Instances without segments are passed over in both. -/
theorem SameStore.forall₂_held {placement placement' : Holdings}
    (h : SameStore placement placement') :
    List.Forall₂ SameEntry (held placement) (held placement') := by
  refine List.rel_filter (fun entry entry' hsame => ?_) h.forall₂_toList
  dsimp only
  rw [hsame.2.isEmpty_eq]

theorem Alike.serverFor_eq (h : Alike a b) (hunique : a.Unambiguous) (table instanceId : String) :
    a.serverFor table instanceId = b.serverFor table instanceId := by
  rw [serverFor, serverFor, h.server?_eq hunique]

/-- **Who holds a table** is found for both, with the same segments, or for neither. -/
theorem Alike.holders_agree (h : Alike a b) (hunique : a.Unambiguous) (table : String) :
    Agree (List.Forall₂ SameEntry) (a.holders table) (b.holders table) := by
  have hrel := h.tables table
  rw [holders, holders]
  generalize a.tables[table]? = placement?, b.tables[table]? = placement'? at hrel
  cases hrel with
  | none => exact .error _
  | some hplacement =>
    refine Agree.bind (Agree.mapM hplacement.forall₂_held fun entry entry' hsame => ?_)
      fun located located' hlocated => .ok (forall₂_sortBy (fun _ _ hsame => hsame.1) hlocated)
    -- the server is looked up under the same id, and found for both or for neither
    dsimp only
    rw [hsame.1, h.serverFor_eq hunique]
    cases b.serverFor table entry'.1 with
    | error fault => exact .error fault
    | ok server => exact .ok ⟨rfl, hsame.2⟩

/-- Holders with the same segments add the same. -/
theorem addHolders_eq {located located' : List (Server × List String)}
    (h : List.Forall₂ SameEntry located located') (held : Std.ExtTreeMap Server SegmentSet) :
    addHolders held located = addHolders held located' := by
  induction h generalizing held with
  | nil => rfl
  | @cons entry entry' rest rest' hsame _ ih =>
    have hstep : (held.alter entry.1 fun set? => some (noteAll (set?.getD ∅) entry.2)) =
        held.alter entry'.1 fun set? => some (noteAll (set?.getD ∅) entry'.2) := by
      simp only [noteAll_congr _ hsame.2, hsame.1]
    exact (congrArg (addHolders · rest) hstep).trans (ih _)

/-- **The segments that servers hold** of some tables are the same, or are not to be found for
the same reason. -/
theorem Alike.segmentsByServer_eq (h : Alike a b) (hunique : a.Unambiguous)
    (tables : List String) : a.segmentsByServer tables = b.segmentsByServer tables := by
  have hstep (held : Std.ExtTreeMap Server SegmentSet) (table : String) :
      (a.holders table >>= fun located => (pure (addHolders held located) : Except PlanError _)) =
        b.holders table >>= fun located => pure (addHolders held located) :=
    ((h.holders_agree hunique table).bind fun _ _ hlocated => .ok (addHolders_eq hlocated held)).eq
  exact congrArg (tables.foldlM · ∅) (funext fun held => funext (hstep held))

end Cluster

/-! ### The plan -/

variable {a b : Cluster}

/-- The workers of a stage are placed alike. -/
theorem Stage.place_eq_of_alike (h : a.Alike b) (hunique : a.Unambiguous) (stage : Stage)
    (settings : Settings) : stage.place a settings = stage.place b settings := by
  have hroot : stage.placeRoot a = stage.placeRoot b := by
    rw [placeRoot, placeRoot, h.broker]
  have hscan : stage.placeScan a = stage.placeScan b := by
    rw [placeScan, placeScan, h.segmentsByServer_eq hunique]
  have hservers : a.intermediateServers settings = b.intermediateServers settings := by
    rw [Cluster.intermediateServers, Cluster.intermediateServers, h.orderedServers_eq]
  rw [place, place, hroot, hscan, placeAnywhere, placeAnywhere, hservers]

theorem placeWorkers_eq_of_alike (h : a.Alike b) (hunique : a.Unambiguous) (stages : List Stage)
    (settings : Settings) : placeWorkers stages a settings = placeWorkers stages b settings := by
  simp only [placeWorkers, Stage.place_eq_of_alike h hunique]

namespace Planner

/-- **Planning does not depend on how the cluster is described.** For descriptions that are alike,
where no two servers go by the same instance id, the plans of a query are equal, or there is none
for the same reason. -/
theorem plan_eq_of_alike (planner : Planner) (root : PlanTree) (a b : Cluster)
    (alike : a.Alike b) (unambiguous : a.Unambiguous) :
    planner.plan root a = planner.plan root b := by
  simp only [plan, placeWorkers_eq_of_alike alike unambiguous]

/-- A cluster with some servers, of which the one on `host` holds some segments of a table. -/
def described (servers : List Server) (segments : List String) : Cluster :=
  (Cluster.ofServers (.onHost "broker" 1 2) servers).place "t" "Server_host_3" segments

theorem alike_described {servers servers' : List Server} {segments segments' : List String}
    (hservers : Cluster.SameMembers servers servers')
    (hsegments : Cluster.SameMembers segments segments') :
    (described servers segments).Alike (described servers' segments') :=
  (Cluster.alike_ofServers _ hservers).place _ _ hsegments

/-- The servers and the segments listed the other way round, one of each twice. -/
theorem plan_eq_of_alike_reversed : ∃ (planner : Planner) (a b : Cluster) (plan : DispatchPlan),
    a.Alike b ∧ a.Unambiguous ∧ a ≠ b ∧ a.servers.length = 2 ∧ b.servers.length = 3 ∧
      planner.plan filteredScan a = .ok plan ∧ planner.plan filteredScan b = .ok plan := by
  let planner : Planner := ⟨.standard, rfl⟩
  let host : Server := .onHost "host" 3 4
  let other : Server := .onHost "other" 3 4
  let a := described [host, other] ["s", "u"]
  let b := described [other, host, other] ["u", "s", "u"]
  have alike : a.Alike b := alike_described
    (.of_subset (by decide +kernel) (by decide +kernel)) (.of_subset (by decide) (by decide))
  have unambiguous : a.Unambiguous := by decide +kernel
  have hsome : (planner.plan filteredScan a).toOption.isSome = true := by decide +kernel
  obtain ⟨plan, hplan⟩ := Option.isSome_iff_exists.mp hsome
  have hplan := toOption_eq_some.mp hplan
  refine ⟨planner, a, b, plan, alike, unambiguous, by decide +kernel, rfl, rfl, hplan, ?_⟩
  rw [← plan_eq_of_alike planner filteredScan a b alike unambiguous]
  exact hplan

/-- Where two servers go by one id, the first of them is meant, and the order is not forgotten. -/
theorem exists_alike_plan_ne : ∃ (planner : Planner) (a b : Cluster),
    a.Alike b ∧ ¬a.Unambiguous ∧ planner.plan filteredScan a ≠ planner.plan filteredScan b := by
  let planner : Planner := ⟨.standard, rfl⟩
  let host : Server := .onHost "host" 3 4
  let twin : Server := ⟨"twin", 3, 4, host.instanceId⟩
  let a := described [host, twin] ["s"]
  let b := described [twin, host] ["s"]
  have alike : a.Alike b := alike_described
    (.of_subset (by decide +kernel) (by decide +kernel)) (.refl _)
  have hne : (planner.plan filteredScan a).toOption ≠ (planner.plan filteredScan b).toOption := by
    decide +kernel
  exact ⟨planner, a, b, alike, by decide +kernel, fun heq => hne (congrArg Except.toOption heq)⟩

end Planner

end StagedQuery
