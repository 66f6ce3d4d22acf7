import StagedQuery.Proofs.Assignment.Growing
import StagedQuery.Proofs.Cluster.Holders
import StagedQuery.Proofs.Keyed
import StagedQuery.Proofs.Plan.Tables

/-!
# When stages can be placed

The workers of a stage that scans tables can be placed exactly if the cluster knows its
tables, has a server for every instance that holds a part of them, and holds some part of
them at all (`StagedQuery.Cluster.CanScan`, `StagedQuery.Stage.placeScan_ok_iff`). Those of
any other stage but the first can be placed exactly if the cluster has a server
(`StagedQuery.Stage.place_ok_iff`). When placing fails, it is never for want of a part of a
plan (`StagedQuery.placeWorkers_failsOnly`).

The workers that are placed are numbered from zero, and there is at least one
(`StagedQuery.Stage.Placed`): a server is taken up for a scan only if it holds segments,
and the settings of a planner ask for at least one worker on at least one server.
-/

namespace StagedQuery

/-! ### Scans -/

/-- The stage scans a table. -/
def Stage.Scans (stage : Stage) (table : String) : Prop :=
  ∃ node ∈ stage.root.nodes, ∃ columns, node.operator = .tableScan table columns

theorem Stage.mem_tables {stage : Stage} {table : String} :
    table ∈ stage.root.tables ↔ stage.Scans table :=
  PlanTree.mem_tables

theorem Stage.isScan_iff {stage : Stage} : stage.isScan = true ↔ ∃ table, stage.Scans table :=
  PlanTree.hasScan_iff.trans (exists_congr fun _ => Stage.mem_tables)

namespace Cluster

variable {cluster : Cluster}

/-- **The cluster can run the scans of a stage.** -/
structure CanScan (cluster : Cluster) (stage : Stage) : Prop where
  /-- It knows every table that the stage scans. -/
  known : ∀ table, stage.Scans table → table ∈ cluster.tables
  /-- It has a server for every instance that holds a part of one of them. -/
  located : ∀ table instanceId, stage.Scans table → cluster.Holds table instanceId →
    ∃ server ∈ cluster.servers, server.instanceId = instanceId
  /-- Some instance holds a part of one of them. -/
  stored : ∃ table instanceId, stage.Scans table ∧ cluster.Holds table instanceId

/-- Something is held of the tables of a stage if an instance holds a part of one. -/
theorem segmentsByServer_ne_empty {stage : Stage} {held : Std.ExtTreeMap Server SegmentSet}
    (h : cluster.segmentsByServer stage.root.tables = .ok held) :
    held ≠ ∅ ↔ ∃ table instanceId, stage.Scans table ∧ cluster.Holds table instanceId := by
  rw [ne_eq, Std.ExtTreeMap.eq_empty_iff_forall_not_mem, not_forall]
  simp only [not_not, mem_segmentsByServer h, Stage.mem_tables]
  constructor
  · rintro ⟨server, table, htable, found, hfound, holder, hholder, -⟩
    obtain ⟨instanceId, hholds⟩ := (holders_ne_nil hfound).mp ⟨holder, hholder⟩
    exact ⟨table, instanceId, htable, hholds⟩
  · rintro ⟨table, instanceId, htable, hholds⟩
    obtain ⟨found, hfound⟩ := exists_segmentsByServer_iff.mp ⟨held, h⟩ table
      (Stage.mem_tables.mpr htable)
    obtain ⟨holder, hholder⟩ := (holders_ne_nil hfound).mpr ⟨instanceId, hholds⟩
    exact ⟨holder.1, table, htable, found, hfound, holder, hholder, rfl⟩

end Cluster

/-! ### When workers can be placed -/

namespace Stage

variable {stage : Stage} {cluster : Cluster}

theorem placeScan_eq_ok {assignment : Assignment} :
    stage.placeScan cluster = .ok assignment ↔
      ∃ held, cluster.segmentsByServer stage.root.tables = .ok held ∧ held ≠ ∅ ∧
        held.toList.foldl (fun assignment entry => (assignment.add entry.1 (some entry.2)).2)
          (.empty stage.id) = assignment := by
  rw [placeScan, bind_eq_ok]
  refine exists_congr fun held => and_congr_right fun _ => ite_error_eq_ok.trans ?_
  rw [Std.ExtTreeMap.isEmpty_iff, pure_eq_ok]

/-- **The workers of a stage that scans tables can be placed** exactly if the cluster can
run the scans. -/
theorem placeScan_ok_iff :
    (∃ assignment, stage.placeScan cluster = .ok assignment) ↔ cluster.CanScan stage := by
  have hfound : (∃ held, cluster.segmentsByServer stage.root.tables = .ok held) ↔
      ∀ table, stage.Scans table → table ∈ cluster.tables ∧
        ∀ instanceId, cluster.Holds table instanceId →
          ∃ server ∈ cluster.servers, server.instanceId = instanceId := by
    simp only [Cluster.exists_segmentsByServer_iff, Cluster.exists_holders_iff, mem_tables]
  simp only [placeScan_eq_ok]
  constructor
  · rintro ⟨assignment, held, hheld, hne, -⟩
    have htables := hfound.mp ⟨held, hheld⟩
    exact ⟨fun table htable => (htables table htable).1,
      fun table instanceId htable hholds => (htables table htable).2 instanceId hholds,
      (Cluster.segmentsByServer_ne_empty hheld).mp hne⟩
  · rintro ⟨hknown, hlocated, hstored⟩
    obtain ⟨held, hheld⟩ := hfound.mpr fun table htable =>
      ⟨hknown table htable, fun instanceId => hlocated table instanceId htable⟩
    exact ⟨_, held, hheld, (Cluster.segmentsByServer_ne_empty hheld).mpr hstored, rfl⟩

theorem placeAnywhere_eq_ok {settings : Settings} {assignment : Assignment} :
    stage.placeAnywhere cluster settings = .ok assignment ↔
      cluster.intermediateServers settings ≠ [] ∧
        (cluster.intermediateServers settings).foldl (fun assignment server =>
          assignment.addMany server settings.workersPerServer.toNat) (.empty stage.id) =
          assignment := by
  rw [placeAnywhere, ite_error_eq_ok, List.isEmpty_iff, Except.ok.injEq]

end Stage

theorem Settings.check_eq_ok {settings : Settings} :
    settings.check = .ok () ↔ settings.workersPerServer ≠ 0 ∧ settings.serverLimit ≠ some 0 := by
  rw [check, ite_error_eq_ok, ite_error_eq_ok]
  exact and_congr_right fun _ => and_iff_left rfl

/-- Settings that make sense leave some server, if there is one. -/
theorem Cluster.intermediateServers_eq_nil {cluster : Cluster} {settings : Settings}
    (checked : settings.check = .ok ()) :
    cluster.intermediateServers settings = [] ↔ cluster.servers = [] := by
  rw [← orderedServers_eq_nil, intermediateServers]
  cases hlimit : settings.serverLimit with
  | none => rfl
  | some limit =>
    have hne : limit ≠ 0 := by
      rintro rfl
      exact (Settings.check_eq_ok.mp checked).2 hlimit
    dsimp only
    rw [List.take_eq_nil_iff, or_iff_right]
    intro hzero
    exact hne (UInt64.toNat_inj.mp hzero)

namespace Stage

variable {stage : Stage} {cluster : Cluster}

/-- **The workers of a stage can be placed** exactly if the stage is the first one, or the
cluster can run its scans, or it has none and there is a server. -/
theorem place_ok_iff {settings : Settings} (checked : settings.check = .ok ()) :
    (∃ assignment, stage.place cluster settings = .ok assignment) ↔
      stage.id = rootStageId ∨ (∃ table, stage.Scans table) ∧ cluster.CanScan stage ∨
        (¬∃ table, stage.Scans table) ∧ cluster.servers ≠ [] := by
  rw [place, ← isScan_iff]
  split_ifs with hroot hscan
  · simp [hroot]
  · simp [hroot, hscan, placeScan_ok_iff]
  · simp [hroot, hscan, placeAnywhere_eq_ok, Cluster.intermediateServers_eq_nil checked]

/-! ### What is placed -/

/-- **An assignment as planning makes it**: it belongs to the stage, and its workers are
numbered. -/
structure Placed (stage : Stage) (assignment : Assignment) : Prop where
  /-- It belongs to the stage. -/
  own : assignment.stage = stage.id
  /-- Its workers are numbered from zero. -/
  numbered : assignment.Numbered
  /-- There is a worker. -/
  busy : 0 < assignment.size

/-- Workers that are added server by server, at least one on each. -/
theorem placed_foldl {α : Type} {grow : Assignment → α → Assignment}
    (hstage : ∀ assignment a, (grow assignment a).stage = assignment.stage)
    (hgrow : ∀ assignment a, assignment.Numbered →
      (grow assignment a).Numbered ∧ assignment.size < (grow assignment a).size)
    {items : List α} (hne : items ≠ []) :
    stage.Placed (items.foldl grow (.empty stage.id)) := by
  -- every item adds a worker, so from the empty assignment one is enough
  suffices ∀ (items : List α) (before : Assignment), before.stage = stage.id →
      before.Numbered → before.size + items.length ≤ (items.foldl grow before).size ∧
        (items.foldl grow before).stage = stage.id ∧ (items.foldl grow before).Numbered by
    obtain ⟨hsize, hown, hnumbered⟩ :=
      this items (.empty stage.id) rfl (Assignment.numbered_empty stage.id)
    have hpos := List.length_pos_iff.mpr hne
    exact ⟨hown, hnumbered, by omega⟩
  intro items
  induction items with
  | nil => exact fun before hown hnumbered => ⟨Nat.le_refl _, hown, hnumbered⟩
  | cons a rest ih =>
    intro before hown hnumbered
    obtain ⟨hnumbered, hlt⟩ := hgrow before a hnumbered
    obtain ⟨hsize, hrest⟩ := ih (grow before a) ((hstage before a).trans hown) hnumbered
    rw [List.length_cons]
    exact ⟨by rw [List.foldl_cons]; omega, hrest⟩

/-- **What is placed for a stage** has workers, numbered from zero. -/
theorem placed_of_place {settings : Settings} (checked : settings.check = .ok ())
    {assignment : Assignment} (h : stage.place cluster settings = .ok assignment) :
    stage.Placed assignment := by
  have hadd (assignment : Assignment) (server : Server) (segments? : Option SegmentSet)
      (hnumbered : assignment.Numbered) : (assignment.add server segments?).2.Numbered ∧
        assignment.size < (assignment.add server segments?).2.size := by
    obtain ⟨hnumbered, hsize⟩ := hnumbered.add server segments?
    exact ⟨hnumbered, by omega⟩
  have hmany (assignment : Assignment) (server : Server) (hnumbered : assignment.Numbered) :
      (assignment.addMany server settings.workersPerServer.toNat).Numbered ∧
        assignment.size < (assignment.addMany server settings.workersPerServer.toNat).size := by
    obtain ⟨hnumbered, hsize⟩ := hnumbered.addMany server settings.workersPerServer.toNat
    have hzero : settings.workersPerServer.toNat ≠ 0 := fun hzero =>
      (Settings.check_eq_ok.mp checked).1 (UInt32.toNat_inj.mp hzero)
    exact ⟨hnumbered, by omega⟩
  rw [place] at h
  split_ifs at h with hroot hscan
  · cases h
    have hone : stage.Placed ([cluster.broker].foldl
        (fun assignment server => (assignment.add server none).2) (.empty stage.id)) := by
      refine placed_foldl ?_ (fun a server => hadd a server none) (List.cons_ne_nil _ _)
      exact fun _ _ => rfl
    exact hone
  · obtain ⟨held, -, hne, rfl⟩ := placeScan_eq_ok.mp h
    refine placed_foldl ?_ (fun a (entry : Server × SegmentSet) => hadd a entry.1 (some entry.2)) ?_
    · exact fun _ _ => rfl
    · rwa [ne_eq, Std.ExtTreeMap.toList_eq_nil_iff]
  · obtain ⟨hne, rfl⟩ := placeAnywhere_eq_ok.mp h
    refine placed_foldl ?_ hmany hne
    exact fun _ _ => rfl

/-- The first stage has one worker. -/
theorem size_of_place_root {settings : Settings} {assignment : Assignment}
    (h : stage.place cluster settings = .ok assignment) (hroot : stage.id = rootStageId) :
    assignment.size = 1 := by
  rw [place, if_pos hroot] at h
  cases h
  exact ((Assignment.numbered_empty stage.id).add cluster.broker none).2

/-! ### How placing fails -/

theorem serverFor_failsOnly (cluster : Cluster) (table instanceId : String) :
    FailsOnly (fun fault => fault.kind = .planning) (cluster.serverFor table instanceId) := by
  rw [Cluster.serverFor]
  cases cluster.server? instanceId with
  | some server => exact failsOnly_ok _
  | none => exact failsOnly_error rfl

theorem holders_failsOnly (cluster : Cluster) (table : String) :
    FailsOnly (fun fault => fault.kind = .planning) (cluster.holders table) := by
  rw [Cluster.holders]
  cases cluster.tables[table]? with
  | none => exact failsOnly_error rfl
  | some placement =>
    refine FailsOnly.bind (FailsOnly.mapM (fun entry => ?_) _) fun located => failsOnly_ok _
    exact (serverFor_failsOnly cluster table entry.1).bind fun server => failsOnly_ok _

theorem place_failsOnly (stage : Stage) (cluster : Cluster) (settings : Settings) :
    FailsOnly (fun fault => fault.kind = .planning) (stage.place cluster settings) := by
  rw [place]
  split_ifs
  · exact failsOnly_ok _
  · rw [placeScan]
    refine FailsOnly.bind (FailsOnly.foldlM (fun held table => ?_) _ _) fun held => ?_
    · exact (holders_failsOnly cluster table).bind fun located => failsOnly_ok _
    · by_cases hempty : held.isEmpty
      · rw [if_pos hempty]
        exact failsOnly_error rfl
      · rw [if_neg hempty]
        exact failsOnly_ok _
  · rw [placeAnywhere]
    by_cases hempty : (cluster.intermediateServers settings).isEmpty
    · rw [if_pos hempty]
      exact failsOnly_error rfl
    · rw [if_neg hempty]
      exact failsOnly_ok _

end Stage

/-! ### All stages -/

variable {stages : List Stage} {cluster : Cluster} {settings : Settings}

/-- **Placing the workers of all stages fails** with what planning says of a cluster. -/
theorem placeWorkers_failsOnly (checked : settings.check = .ok ()) (stages : List Stage)
    (cluster : Cluster) :
    FailsOnly (fun fault => fault.kind = .planning) (placeWorkers stages cluster settings) := by
  rw [placeWorkers, checked]
  exact FailsOnly.foldlM (fun assignments stage =>
    (stage.place_failsOnly cluster settings).bind fun _ => failsOnly_ok _) _ _

/-- The workers of all stages are placed stage by stage, and put under the ids of their
stages. -/
theorem placeWorkers_eq_ok (checked : settings.check = .ok ()) {assignments : StageMap Assignment} :
    placeWorkers stages cluster settings = .ok assignments ↔
      ∃ placed, List.Forall₂ (fun stage assignment =>
          stage.place cluster settings = .ok assignment) stages placed ∧
        assignments = (∅ : StageMap Assignment).insertMany
          ((stages.zip placed).map fun entry => (entry.1.id, entry.2)) := by
  rw [placeWorkers, checked]
  refine foldlM_collect_eq_ok.trans ?_
  refine exists_congr fun placed => and_congr_right fun _ => ?_
  rw [Std.ExtTreeMap.insertMany_list_eq_foldl, List.foldl_map]

/-- The workers of all stages can be placed exactly if those of each stage can. -/
theorem exists_placeWorkers_iff (checked : settings.check = .ok ()) :
    (∃ assignments, placeWorkers stages cluster settings = .ok assignments) ↔
      ∀ stage ∈ stages, ∃ assignment, stage.place cluster settings = .ok assignment := by
  simp only [placeWorkers_eq_ok checked]
  constructor
  · rintro ⟨_, placed, hplaced, -⟩ stage hstage
    obtain ⟨assignment, -, hassignment⟩ := result_of_item hplaced stage hstage
    exact ⟨assignment, hassignment⟩
  · intro h
    obtain ⟨placed, hplaced⟩ := exists_forall₂ h
    exact ⟨_, placed, hplaced, rfl⟩

/-- **What is found under an id**, where the ids of the stages are distinct: what was
placed for the stage with the id. -/
theorem getElem?_placeWorkers (checked : settings.check = .ok ())
    {assignments : StageMap Assignment} (h : placeWorkers stages cluster settings = .ok assignments)
    (distinct : (stages.map (·.id)).Nodup) {id : StageId} {assignment : Assignment} :
    assignments[id]? = some assignment ↔
      ∃ stage ∈ stages, stage.id = id ∧ stage.place cluster settings = .ok assignment := by
  obtain ⟨placed, hplaced, rfl⟩ := (placeWorkers_eq_ok checked).mp h
  have hlength : stages.length ≤ placed.length := Nat.le_of_eq hplaced.length_eq
  have hkeys : ((stages.zip placed).map fun entry => (entry.1.id, entry.2)).map (·.1) =
      stages.map (·.id) := by
    conv_rhs => rw [← List.map_fst_zip hlength, List.map_map]
    rw [List.map_map]
    rfl
  rw [mem_insertMany_empty (hkeys ▸ distinct), List.mem_map]
  constructor
  · rintro ⟨⟨stage, result⟩, hmem, heq⟩
    cases heq
    exact ⟨stage, (List.of_mem_zip hmem).1, rfl, List.forall₂_zip hplaced hmem⟩
  · rintro ⟨stage, hstage, rfl, hplace⟩
    rw [← List.map_fst_zip hlength, List.mem_map] at hstage
    obtain ⟨⟨stage, result⟩, hmem, rfl⟩ := hstage
    have hresult := List.forall₂_zip hplaced hmem
    rw [hplace] at hresult
    cases hresult
    exact ⟨(stage, assignment), hmem, rfl⟩

/-- There is something under the ids of the stages, and under no other. -/
theorem mem_placeWorkers (checked : settings.check = .ok ()) {assignments : StageMap Assignment}
    (h : placeWorkers stages cluster settings = .ok assignments)
    (distinct : (stages.map (·.id)).Nodup) {id : StageId} :
    id ∈ assignments ↔ id ∈ stages.map (·.id) := by
  rw [mem_iff_exists_entry, List.mem_map]
  constructor
  · rintro ⟨assignment, hassignment⟩
    obtain ⟨stage, hstage, hid, -⟩ := (getElem?_placeWorkers checked h distinct).mp hassignment
    exact ⟨stage, hstage, hid⟩
  · rintro ⟨stage, hstage, hid⟩
    obtain ⟨assignment, hplace⟩ :=
      (exists_placeWorkers_iff checked).mp ⟨assignments, h⟩ stage hstage
    exact ⟨assignment, (getElem?_placeWorkers checked h distinct).mpr
      ⟨stage, hstage, hid, hplace⟩⟩

end StagedQuery
