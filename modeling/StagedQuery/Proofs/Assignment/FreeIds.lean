import StagedQuery.Proofs.Assignment.Recording
import StagedQuery.Proofs.Format.Dispatch

/-!
# Which ids are free

A worker that is added gets the number of workers as its id. Nothing looks at the ids that are in
use, and an assignment that was read from a file may use any: it can be well formed, with its
servers in order and its workers all different, and yet list a worker under the id that is given
out next (`StagedQuery.Assignment.oneBased_not_addsFreely`).

Two things are said of this, and both are exact (`StagedQuery.Assignment.addsFreely_iff`). The next
worker gets an id of its own if no worker has the number of workers as its id; if one has, then
everything goes wrong at once: the id is listed twice, and what the new worker reads is recorded in
place of what the other one read. And **all** workers to come get ids of their own if the workers
are numbered from zero, as they are in whatever was grown from the empty assignment, and so in all
that planning makes (`StagedQuery.Stage.addsFreely_of_place`). If there is a gap, then the ids that
are given out reach a worker behind it sooner or later.
-/

namespace StagedQuery

namespace Assignment

variable {assignment : Assignment}

/-- **A worker that is added on a server gets an id of its own**, whatever it is to read. -/
structure AddsFreely (assignment : Assignment) (server : Server) : Prop where
  /-- Nobody had the id before. -/
  free : ∀ segments?, (assignment.add server segments?).1 ∉ assignment.workers
  /-- No worker is listed twice afterwards. -/
  distinct : ∀ segments?, (assignment.add server segments?).2.workers.Nodup
  /-- The workers that were there before read what they did. -/
  reads : ∀ segments?, ∀ worker ∈ assignment.workers,
    (assignment.add server segments?).2.reads? worker = assignment.reads? worker

/-! ### The next worker -/

theorem add_workers_perm (assignment : Assignment) (server : Server)
    (segments? : Option SegmentSet) :
    (assignment.add server segments?).2.workers.Perm
      (assignment.nextWorker :: assignment.workers) := by
  have hperm := (add_destinations_perm assignment server segments?).map (·.2)
  rw [List.map_append] at hperm
  exact hperm.trans (List.perm_append_singleton _ _)

theorem size_add (assignment : Assignment) (server : Server) (segments? : Option SegmentSet) :
    (assignment.add server segments?).2.size = assignment.size + 1 := by
  rw [size_eq, (add_workers_perm assignment server segments?).length_eq, List.length_cons,
    ← size_eq]

/-- No worker is listed twice after an addition if none was before and the id was free. -/
theorem nodup_workers_add (distinct : assignment.workers.Nodup) {server : Server}
    {segments? : Option SegmentSet} :
    (assignment.add server segments?).2.workers.Nodup ↔
      assignment.nextWorker ∉ assignment.workers := by
  rw [(add_workers_perm assignment server segments?).nodup_iff, List.nodup_cons]
  exact and_iff_left distinct

/-- What a worker reads can be overwritten by an addition if it has the id that is given out. -/
theorem reads?_add_eq_self_iff {server : Server} {worker : WorkerId} :
    (∀ segments?, (assignment.add server segments?).2.reads? worker = assignment.reads? worker) ↔
      assignment.nextWorker ≠ worker := by
  simp only [reads?_add]
  constructor
  · rintro h rfl
    -- no set of segments is both empty and not
    have hempty := h (some ∅)
    have hfull := h (some ((∅ : SegmentSet).insert ""))
    rw [if_pos rfl, Option.some_or] at hempty hfull
    have heq : ("" : String) ∈ (∅ : SegmentSet) := by
      rw [Option.some.inj (hempty.trans hfull.symm)]
      exact Std.ExtTreeSet.mem_insert_self
    exact Std.ExtTreeSet.not_mem_empty heq
  · intro hne segments?
    rw [if_neg hne]

/-- The id that is given out is free if no worker has the number of workers as its id. -/
theorem nextWorker_not_mem (few : assignment.size < 2 ^ 32) :
    assignment.nextWorker ∉ assignment.workers ↔
      ∀ worker ∈ assignment.workers, worker.number.toNat ≠ assignment.size := by
  refine ⟨fun h worker hworker heq => h ?_, fun h hmem => h _ hmem (Id.toNat_ofNat few)⟩
  rwa [nextWorker, ← heq, Id.ofNat_toNat]

/-- **The next worker** gets an id of its own exactly if the id is free; otherwise every part of
this fails. -/
theorem addsFreely_iff_nextWorker (distinct : assignment.workers.Nodup) (server : Server) :
    assignment.AddsFreely server ↔ assignment.nextWorker ∉ assignment.workers := by
  refine ⟨fun h => h.free none, fun hfree => ⟨fun _ => hfree,
    fun _ => (nodup_workers_add distinct).mpr hfree, fun segments? worker hworker => ?_⟩⟩
  have hne : assignment.nextWorker ≠ worker := fun heq => hfree (heq ▸ hworker)
  exact reads?_add_eq_self_iff.mpr hne segments?

/-! ### All workers to come -/

/-- Different workers are numbered from zero if none of them has a number beyond the others. -/
theorem numbered_iff (distinct : assignment.workers.Nodup) (few : assignment.size ≤ 2 ^ 32) :
    assignment.Numbered ↔ ∀ worker ∈ assignment.workers, worker.number.toNat < assignment.size := by
  constructor
  · intro h worker hworker
    obtain ⟨n, hn, rfl⟩ := List.mem_map.mp (h.mem_iff.mp hworker)
    have hlt : n < assignment.size := by
      have := (List.mem_range'_1.mp hn).2
      omega
    rwa [Id.toNat_ofNat (by omega)]
  · intro h
    have hsub : assignment.workers ⊆ (List.range' 0 assignment.size).map Id.ofNat := by
      intro worker hworker
      refine List.mem_map.mpr ⟨worker.number.toNat, List.mem_range'_1.mpr ?_, Id.ofNat_toNat worker⟩
      have := h worker hworker
      omega
    -- as many workers as there are numbers below the size, so all of these are used
    refine (List.subperm_of_subset distinct hsub).perm_of_length_le ?_
    rw [List.length_map, List.length_range', size_eq]

theorem size_addAll (additions : List Addition) :
    (assignment.addAll additions).2.size = assignment.size + additions.length := by
  induction additions generalizing assignment with
  | nil => rfl
  | cons addition rest ih =>
    rw [addAll, List.length_cons]
    refine ih.trans ?_
    rw [size_add]
    omega

/-- Workers stay where they are when others are added. -/
theorem mem_workers_addAll {worker : WorkerId} (h : worker ∈ assignment.workers)
    (additions : List Addition) : worker ∈ (assignment.addAll additions).2.workers := by
  induction additions generalizing assignment with
  | nil => exact h
  | cons addition rest ih =>
    exact ih ((add_workers_perm _ _ _).mem_iff.mpr (List.mem_cons_of_mem _ h))

theorem Numbered.addAll (h : assignment.Numbered) (additions : List Addition) :
    (assignment.addAll additions).2.Numbered := by
  induction additions generalizing assignment with
  | nil => exact h
  | cons addition rest ih => exact ih (h.add _ _).1

/-- **Where workers are numbered from zero** the next one gets an id of its own. -/
theorem Numbered.addsFreely (h : assignment.Numbered) (few : assignment.size < 2 ^ 32)
    (server : Server) : assignment.AddsFreely server := by
  have distinct := h.nodup few.le
  rw [addsFreely_iff_nextWorker distinct, nextWorker_not_mem few]
  exact fun worker hworker => ((numbered_iff distinct few.le).mp h worker hworker).ne

/-- **A worker behind a gap** is reached when as many workers have been added as lie between. -/
theorem exists_additions_of_not_numbered (distinct : assignment.workers.Nodup)
    (few : assignment.size < 2 ^ 32) (h : ¬assignment.Numbered) (server : Server) :
    ∃ additions, assignment.size + additions.length < 2 ^ 32 ∧
      (assignment.addAll additions).2.nextWorker ∈ (assignment.addAll additions).2.workers := by
  rw [numbered_iff distinct few.le] at h
  push Not at h
  obtain ⟨worker, hworker, hbehind⟩ := h
  have hnumber : worker.number.toNat < 2 ^ 32 := worker.number.toNat_lt
  refine ⟨List.replicate (worker.number.toNat - assignment.size) ⟨server, none⟩, ?_, ?_⟩
  · rw [List.length_replicate]
    omega
  · have hnext : (assignment.addAll (List.replicate (worker.number.toNat - assignment.size)
        ⟨server, none⟩)).2.nextWorker = worker := by
      rw [nextWorker, size_addAll, List.length_replicate, Nat.add_sub_cancel' hbehind,
        Id.ofNat_toNat]
    rw [hnext]
    exact mem_workers_addAll hworker _

/-- **When ids are free.** The next worker gets an id of its own exactly if no worker has the
number of workers as its id. If one has, the id is listed twice and what that worker reads can be
overwritten. All workers to come get ids of their own, as far as there are numbers for them,
exactly if the workers are numbered from zero. -/
theorem addsFreely_iff (distinct : assignment.workers.Nodup) (few : assignment.size < 2 ^ 32)
    (server : Server) :
    (assignment.AddsFreely server ↔
      ∀ worker ∈ assignment.workers, worker.number.toNat ≠ assignment.size) ∧
    (∀ worker ∈ assignment.workers, worker.number.toNat = assignment.size → ∀ segments?,
      (assignment.add server segments?).1 = worker ∧
      ¬(assignment.add server segments?).2.workers.Nodup ∧
      (assignment.add server segments?).2.reads? worker =
        segments?.or (assignment.reads? worker)) ∧
    ((∀ additions, assignment.size + additions.length < 2 ^ 32 →
        (assignment.addAll additions).2.AddsFreely server) ↔ assignment.Numbered) := by
  refine ⟨?_, fun worker hworker hnumber segments? => ?_, fun hall => ?_,
    fun hnumbered additions hfew => ?_⟩
  · rw [addsFreely_iff_nextWorker distinct, nextWorker_not_mem few]
  · have hnext : assignment.nextWorker = worker := by
      rw [nextWorker, ← hnumber, Id.ofNat_toNat]
    refine ⟨hnext, fun hnodup => ?_, ?_⟩
    · exact (nodup_workers_add distinct).mp hnodup (hnext ▸ hworker)
    · rw [reads?_add, if_pos hnext]
  · by_contra hgap
    obtain ⟨additions, hfew, htaken⟩ :=
      exists_additions_of_not_numbered distinct few hgap server
    exact (hall additions hfew).free none htaken
  · rw [← size_addAll] at hfew
    exact (hnumbered.addAll additions).addsFreely hfew server

/-- An assignment with a gap: two workers, with the ids 0 and 3. -/
def gapped : Assignment :=
  ⟨rootStageId, [⟨.onHost "east" 3 4, [Id.ofNat 0]⟩, ⟨.onHost "west" 3 4, [Id.ofNat 3]⟩], ∅⟩

/-- The next worker gets an id of its own, the one after it does not. -/
theorem addsFreely_iff_gapped : gapped.workers.Nodup ∧ gapped.size < 2 ^ 32 ∧
    gapped.AddsFreely (.onHost "east" 3 4) ∧
    ¬∀ additions, gapped.size + additions.length < 2 ^ 32 →
      (gapped.addAll additions).2.AddsFreely (.onHost "east" 3 4) := by
  have distinct : gapped.workers.Nodup := by decide
  have few : gapped.size < 2 ^ 32 := by decide
  obtain ⟨hnext, -, hall⟩ := addsFreely_iff distinct few (.onHost "east" 3 4)
  refine ⟨distinct, few, hnext.mpr (by decide), fun h => ?_⟩
  have hbehind := (numbered_iff distinct few.le).mp (hall.mp h)
  exact absurd hbehind (by decide)

/-- An assignment whose only worker has the id 1. -/
def oneBased : Assignment :=
  ⟨rootStageId, [⟨.onHost "east" 3 4, [Id.ofNat 1]⟩],
    (∅ : WorkerMap SegmentSet).insert (Id.ofNat 1) ((∅ : SegmentSet).insert "old")⟩

/-- A file can hold the assignment, its servers ascend and its workers are different, but the next
worker gets the id of the first one, and what that one read is lost. -/
theorem oneBased_not_addsFreely :
    (∃ text, Json.readText? ofJson? text = some oneBased) ∧
      (oneBased.servers.Pairwise fun a b => compare a.server b.server = .lt) ∧
      oneBased.workers.Nodup ∧ oneBased.size < 2 ^ 32 ∧
      ¬oneBased.AddsFreely (.onHost "west" 3 4) ∧
      (oneBased.add (.onHost "west" 3 4) (some ((∅ : SegmentSet).insert "new"))).2.workers =
        [Id.ofNat 1, Id.ofNat 1] ∧
      (oneBased.add (.onHost "west" 3 4) (some ((∅ : SegmentSet).insert "new"))).2.reads?
        (Id.ofNat 1) = some ((∅ : SegmentSet).insert "new") := by
  refine ⟨⟨_, oneBased.standsFor.readText?_render.trans (if_pos (by decide +kernel))⟩,
    List.pairwise_singleton _ _, by decide, by decide, fun h => ?_, by decide +kernel,
    by decide +kernel⟩
  exact h.free none (by decide)

end Assignment

/-- Whatever planning places for a stage takes more workers under ids of their own. -/
theorem Stage.addsFreely_of_place {stage : Stage} {cluster : Cluster} {settings : Settings}
    (checked : settings.check = .ok ()) {assignment : Assignment}
    (h : stage.place cluster settings = .ok assignment) (few : assignment.size < 2 ^ 32)
    (server : Server) : assignment.AddsFreely server :=
  (placed_of_place checked h).numbered.addsFreely few server

end StagedQuery
