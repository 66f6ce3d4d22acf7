import StagedQuery.Proofs.Assignment.Ascending

/-!
# An assignment records how it was grown

Workers are added one at a time, on servers in any order and as often as one likes. Whatever is
asked for in this way, the assignment that comes out records it
(`StagedQuery.Assignment.Records`): the workers are numbered in the order in which they were
added, each is hosted where it was put and reads what it was given, and a server lists its workers
in the order in which they came to it.

**One more worker** (`StagedQuery.Assignment.Records.add`) changes the entry of its server and no
other. That the search finds this entry, if there is one, is where the order of the servers comes
in (`StagedQuery.Assignment.Ascend.hostWorkers_cases`): in a list out of order it may miss the entry
and make a second one for the same server.

The record is kept as long as there are no more workers than numbers. A worker more would get a
number that is taken, and what it reads would be recorded in place of what the other one reads.
-/

namespace StagedQuery

namespace Assignment

/-! ### The entry of one server -/

/-- **What adding workers does to the entries**, where the servers ascend: the entry of the server
gets more workers, or if there is none, a new one is put in. All others stay as they are. Where
this happens does not depend on the workers. -/
theorem Ascend.hostWorkers_cases {servers : List Hosting} (h : Ascend servers) (server : Server) :
    (∃ before hosting after, servers = before ++ hosting :: after ∧ hosting.server = server ∧
      ∀ workers, Assignment.hostWorkers servers server workers =
        before ++ ⟨server, hosting.workers ++ workers⟩ :: after) ∨
    ∃ before after, servers = before ++ after ∧ (∀ s ∈ servers, s.server ≠ server) ∧
      ∀ workers, Assignment.hostWorkers servers server workers =
        before ++ ⟨server, workers⟩ :: after := by
  cases hposition : findPosition (fun s => compare s.server server) servers with
  | found index =>
    obtain ⟨hosting, hhosting, hcompare⟩ := findPosition_found hposition
    obtain rfl := Std.LawfulEqOrd.eq_of_compare hcompare
    obtain ⟨hlt, rfl⟩ := List.getElem?_eq_some_iff.mp hhosting
    refine .inl ⟨servers.take index, servers[index], servers.drop (index + 1), ?_, rfl,
      fun workers => ?_⟩
    · rw [List.cons_getElem_drop_succ, List.take_append_drop]
    · rw [Assignment.hostWorkers, hposition]
      exact List.modify_eq_take_cons_drop hlt
  | missing index =>
    obtain ⟨before, after, rfl, rfl, hbefore, hafter⟩ :=
      exists_split_of_missing (h.ascendFor server) hposition
    refine .inr ⟨before, after, rfl, fun s hs heq => ?_, fun workers => ?_⟩
    · -- an entry of the server would be neither before it nor beyond it
      have hself : compare s.server server = .eq := heq ▸ Std.ReflCmp.compare_self
      rcases List.mem_append.mp hs with hs | hs
      · cases hself.symm.trans (hbefore s hs)
      · cases hself.symm.trans (hafter s hs)
    · rw [Assignment.hostWorkers, hposition]
      exact insertIdx_length before after _

/-- **One entry among others** is the one that is found under its server, and is passed over under
any other. -/
theorem workersOf_append_cons {before : List Hosting} {hosting : Hosting}
    (h : ∀ s ∈ before, s.server ≠ hosting.server) (after : List Hosting) (server : Server) :
    workersOf (before ++ hosting :: after) server =
      if hosting.server = server then some hosting.workers
      else workersOf (before ++ after) server := by
  rw [workersOf, List.find?_append]
  split_ifs with heq
  · subst heq
    have hnone : before.find? (fun s => s.server == hosting.server) = none :=
      List.find?_eq_none.mpr fun s hs heq => h s hs (eq_of_beq heq)
    rw [hnone, Option.none_or, List.find?_cons, beq_self_eq_true]
    rfl
  · have hpassed : (hosting :: after).find? (fun s => s.server == server) =
        after.find? fun s => s.server == server :=
      List.find?_cons_of_neg fun hbeq => heq (eq_of_beq hbeq)
    rw [hpassed, ← List.find?_append]
    rfl

theorem workersOf_eq_none {servers : List Hosting} {server : Server}
    (h : ∀ s ∈ servers, s.server ≠ server) : workersOf servers server = none := by
  rw [workersOf, List.find?_eq_none.mpr fun s hs heq => h s hs (eq_of_beq heq)]
  rfl

theorem Ascend.ne_of_mem_before {before after : List Hosting} {hosting : Hosting}
    (h : Ascend (before ++ hosting :: after)) : ∀ s ∈ before, s.server ≠ hosting.server :=
  fun s hs => ne_of_compare_lt ((List.pairwise_append.mp h).2.2 s hs hosting List.mem_cons_self)

/-- **An entry is found under its server**, where the servers ascend. -/
theorem Ascend.workersOf_of_mem {servers : List Hosting} (h : Ascend servers) {hosting : Hosting}
    (hmem : hosting ∈ servers) : workersOf servers hosting.server = some hosting.workers := by
  obtain ⟨before, after, rfl⟩ := List.append_of_mem hmem
  rw [workersOf_append_cons h.ne_of_mem_before, if_pos rfl]

/-- **Which workers a server lists** after some have been added. -/
theorem Ascend.workersOf_hostWorkers {servers : List Hosting} (h : Ascend servers)
    (server : Server) (workers : List WorkerId) (other : Server) :
    workersOf (Assignment.hostWorkers servers server workers) other =
      if server = other then some ((workersOf servers server).getD [] ++ workers)
      else workersOf servers other := by
  have hascend := h.hostWorkers server workers
  rcases h.hostWorkers_cases server with
    ⟨before, hosting, after, rfl, rfl, heq⟩ | ⟨before, after, rfl, hnone, heq⟩
  · rw [heq] at hascend
    rw [heq, workersOf_append_cons hascend.ne_of_mem_before,
      workersOf_append_cons h.ne_of_mem_before, workersOf_append_cons h.ne_of_mem_before,
      if_pos rfl]
    split_ifs <;> rfl
  · rw [heq] at hascend
    rw [heq, workersOf_append_cons hascend.ne_of_mem_before, workersOf_eq_none hnone]
    rfl

/-! ### What is recorded -/

/-- A worker that is asked for. -/
structure Addition where
  /-- The server that is to run it. -/
  server : Server
  /-- The segments that it is to read, if it scans. -/
  segments? : Option SegmentSet

/-- Adds one worker after the other: their ids, and the assignment with them. -/
def addAll (assignment : Assignment) : List Addition → List WorkerId × Assignment
  | [] => ([], assignment)
  | addition :: rest =>
    let (worker, grown) := assignment.add addition.server addition.segments?
    let (workers, grown) := addAll grown rest
    (worker :: workers, grown)

/-- The places at which a worker is asked for on a server, as ids. -/
def numbersOn (additions : List Addition) (server : Server) : List WorkerId :=
  (additions.zipIdx.filter fun (addition, _) => addition.server = server).map
    fun (_, n) => Id.ofNat n

/-- **An assignment records the workers that were asked for**, the first of which is worker 0. -/
structure Records (assignment : Assignment) (additions : List Addition) : Prop where
  /-- The servers ascend. -/
  ascending : assignment.servers.Pairwise fun a b => compare a.server b.server = .lt
  /-- Each lists a worker, and its workers ascend. -/
  listed : ∀ hosting ∈ assignment.servers,
    hosting.workers ≠ [] ∧ hosting.workers.Pairwise fun a b => compare a b = .lt
  /-- The destinations are the servers that were named, with the numbers of the workers. -/
  destinations : assignment.destinations.Perm
    (additions.zipIdx.map fun (addition, n) => (addition.server, Id.ofNat n))
  /-- Each worker is hosted by the server that was named for it. -/
  hosts : ∀ n addition, additions[n]? = some addition →
    assignment.host? (Id.ofNat n) = some addition.server
  /-- Each server lists the workers that it was named for, in the order in which they were added,
  and is not listed if there are none. -/
  hosted : ∀ server, assignment.hosted? server =
    if numbersOn additions server = [] then none else some (numbersOn additions server)
  /-- Each worker reads what it was given to read. -/
  reads : ∀ n addition, additions[n]? = some addition →
    assignment.reads? (Id.ofNat n) = addition.segments?
  /-- Nobody else reads anything. -/
  readers : ∀ worker segments, assignment.reads? worker = some segments →
    ∃ n < additions.length, worker = Id.ofNat n

/-! ### One more worker -/

theorem reads?_add (assignment : Assignment) (server : Server) (segments? : Option SegmentSet)
    (worker : WorkerId) :
    (assignment.add server segments?).2.reads? worker =
      if assignment.nextWorker = worker then segments?.or (assignment.reads? worker)
      else assignment.reads? worker := by
  cases segments? with
  | none => exact (ite_self _).symm
  | some segments =>
    change (assignment.segments.insert assignment.nextWorker segments)[worker]? = _
    rw [Std.ExtTreeMap.getElem?_insert]
    simp only [Std.LawfulEqCmp.compare_eq_iff_eq]
    rfl

theorem numbersOn_append (additions : List Addition) (addition : Addition) (server : Server) :
    numbersOn (additions ++ [addition]) server =
      numbersOn additions server ++
        if addition.server = server then [Id.ofNat additions.length] else [] := by
  rw [numbersOn, List.zipIdx_append, List.filter_append, List.map_append, Nat.zero_add]
  refine congrArg (numbersOn additions server ++ ·) ?_
  by_cases h : addition.server = server <;> simp [h]

/-- The places of a server ascend, as long as there are numbers for all workers. -/
theorem pairwise_numbersOn {additions : List Addition} (few : additions.length ≤ 2 ^ 32)
    (server : Server) : (numbersOn additions server).Pairwise fun a b => compare a b = .lt := by
  have hall : ((List.range' 0 additions.length).map (Id.ofNat : Nat → WorkerId)).Pairwise
      fun a b => compare a b = .lt := Id.pairwise_map_ofNat (by omega)
  rw [← List.zipIdx_map_snd, List.map_map] at hall
  exact hall.sublist (List.filter_sublist.map _)

namespace Records

variable {assignment : Assignment} {additions : List Addition}

theorem size_eq (h : assignment.Records additions) : assignment.size = additions.length := by
  rw [size, h.destinations.length_eq, List.length_map, List.length_zipIdx]

theorem empty (stage : StageId) : (Assignment.empty stage).Records [] where
  ascending := .nil
  listed := nofun
  destinations := .refl _
  hosts := nofun
  hosted _ := rfl
  reads := nofun
  readers worker segments h := by
    rw [reads?, Assignment.empty, Std.ExtTreeMap.getElem?_empty] at h
    exact nomatch h

/-- What is listed, and who hosts whom, follows from the order of the servers, from what is found
under each, and from the destinations. -/
theorem of_hosted (few : additions.length ≤ 2 ^ 32) (ascending : Ascend assignment.servers)
    (destinations : assignment.destinations.Perm
      (additions.zipIdx.map fun (addition, n) => (addition.server, Id.ofNat n)))
    (hosted : ∀ server, assignment.hosted? server =
      if numbersOn additions server = [] then none else some (numbersOn additions server))
    (reads : ∀ n addition, additions[n]? = some addition →
      assignment.reads? (Id.ofNat n) = addition.segments?)
    (readers : ∀ worker segments, assignment.reads? worker = some segments →
      ∃ n < additions.length, worker = Id.ofNat n) :
    assignment.Records additions := by
  refine ⟨ascending, fun hosting hmem => ?_, destinations, fun n addition hn => ?_, hosted, reads,
    readers⟩
  · have hfound : assignment.hosted? hosting.server = some hosting.workers :=
      ascending.workersOf_of_mem hmem
    rw [hosted] at hfound
    split_ifs at hfound with hnone
    rw [← Option.some.inj hfound]
    exact ⟨hnone, pairwise_numbersOn few hosting.server⟩
  · have hnodup : assignment.workers.Nodup := by
      have hnumbers : ((List.range' 0 additions.length).map (Id.ofNat : Nat → WorkerId)).Nodup :=
        Id.nodup_map_ofNat (by omega)
      rw [← List.zipIdx_map_snd, List.map_map] at hnumbers
      have hworkers := destinations.map (·.2)
      rw [List.map_map] at hworkers
      exact hworkers.nodup_iff.mpr hnumbers
    refine host?_eq_some.mpr (firstHost_of_mem hnodup (destinations.mem_iff.mpr ?_))
    exact List.mem_map.mpr ⟨(addition, n), List.mem_zipIdx_iff_getElem?.mpr hn, rfl⟩

/-- **One more worker** gets the next number, and the assignment with it records it, too. -/
theorem add (h : assignment.Records additions) (few : additions.length < 2 ^ 32)
    (addition : Addition) :
    (assignment.add addition.server addition.segments?).1 = Id.ofNat additions.length ∧
      (assignment.add addition.server addition.segments?).2.Records (additions ++ [addition]) := by
  have hnext : assignment.nextWorker = Id.ofNat additions.length := by
    rw [nextWorker, h.size_eq]
  have hfresh {n : Nat} (hn : n < additions.length) :
      (Id.ofNat additions.length : WorkerId) ≠ Id.ofNat n := by
    rw [ne_eq, Id.ofNat_inj few (by omega)]
    omega
  refine ⟨hnext, of_hosted ?_ ?_ ?_ ?_ ?_ ?_⟩
  · rw [List.length_append, List.length_singleton]
    omega
  · exact Ascend.hostWorkers h.ascending _ _
  · have hperm := add_destinations_perm assignment addition.server addition.segments?
    rw [hnext] at hperm
    rw [List.zipIdx_append, List.map_append, Nat.zero_add]
    exact hperm.trans (h.destinations.append_right _)
  · intro server
    have hold (server : Server) : workersOf assignment.servers server =
        if numbersOn additions server = [] then none else some (numbersOn additions server) :=
      h.hosted server
    refine (Ascend.workersOf_hostWorkers h.ascending _ [assignment.nextWorker] server).trans ?_
    rw [hnext, hold, hold, numbersOn_append]
    by_cases hserver : addition.server = server
    · rw [if_pos hserver, if_pos hserver, hserver, if_neg (List.append_ne_nil_of_right_ne_nil _
        (List.cons_ne_nil _ _))]
      split_ifs with hnone
      · rw [hnone]
        rfl
      · rfl
    · rw [if_neg hserver, if_neg hserver, List.append_nil]
  · intro n found hn
    rw [reads?_add, hnext]
    rw [List.getElem?_append] at hn
    split_ifs at hn with hlt
    · rw [if_neg (hfresh hlt)]
      exact h.reads n found hn
    · -- nothing was recorded for the number of the new worker
      rw [List.getElem?_singleton] at hn
      split_ifs at hn with hzero
      obtain rfl : n = additions.length := by omega
      cases hn
      have hnone : assignment.reads? (Id.ofNat additions.length) = none := by
        refine Option.eq_none_iff_forall_ne_some.mpr fun segments hsegments => ?_
        obtain ⟨m, hm, heq⟩ := h.readers _ segments hsegments
        exact hfresh hm heq
      rw [if_pos rfl, hnone, Option.or_none]
  · intro worker segments hreads
    rw [reads?_add, hnext] at hreads
    rw [List.length_append, List.length_singleton]
    split_ifs at hreads with heq
    · exact ⟨additions.length, Nat.lt_succ_self _, heq.symm⟩
    · obtain ⟨n, hn, hworker⟩ := h.readers worker segments hreads
      exact ⟨n, Nat.lt_succ_of_lt hn, hworker⟩

/-- **A run of additions** gives the workers the next numbers, and all of it is recorded. -/
theorem addAll (h : assignment.Records additions) (rest : List Addition)
    (few : (additions ++ rest).length ≤ 2 ^ 32) :
    (assignment.addAll rest).1 = (List.range' additions.length rest.length).map Id.ofNat ∧
      (assignment.addAll rest).2.Records (additions ++ rest) := by
  induction rest generalizing assignment additions with
  | nil =>
    rw [List.append_nil]
    exact ⟨rfl, h⟩
  | cons addition rest ih =>
    rw [List.append_cons] at few ⊢
    have hfirst : additions.length < 2 ^ 32 := by
      rw [List.length_append, List.length_append, List.length_singleton] at few
      omega
    obtain ⟨hworker, hadded⟩ := h.add hfirst addition
    obtain ⟨hworkers, hrest⟩ := ih hadded few
    rw [List.length_append, List.length_singleton] at hworkers
    rw [Assignment.addAll, List.length_cons, List.range'_succ, List.map_cons]
    exact ⟨List.cons_eq_cons.mpr ⟨hworker, hworkers⟩, hrest⟩

end Records

/-- **Every run of additions is recorded.** As long as there are no more workers than numbers, they
are numbered in the order in which they are added, and after any number of additions the
assignment records those that have been made. -/
theorem addAll_records (stage : StageId) (additions : List Addition)
    (few : additions.length ≤ 2 ^ 32) :
    ((empty stage).addAll additions).1.map (·.number.toNat) = List.range additions.length ∧
      ∀ n, ((empty stage).addAll (additions.take n)).2.Records (additions.take n) := by
  refine ⟨?_, fun n => ?_⟩
  · rw [((Records.empty stage).addAll additions few).1]
    rw [List.length_nil, Id.map_toNat_map_ofNat (by omega), List.range_eq_range']
  · refine ((Records.empty stage).addAll (additions.take n) ?_).2
    exact (List.length_take_le' n additions).trans few

/-- Three workers, the first and the last of them on one server, and the second on a server that
comes before it. -/
def interleaved : List Addition :=
  [⟨.onHost "north" 3 4, none⟩, ⟨.onHost "east" 3 4, some ((∅ : SegmentSet).insert "s")⟩,
    ⟨.onHost "north" 3 4, none⟩]

/-- The server that comes second lists the first worker and the last. -/
theorem addAll_records_interleaved : interleaved.length ≤ 2 ^ 32 ∧
    ((empty rootStageId).addAll interleaved).1.map (·.number.toNat) = [0, 1, 2] ∧
      ((empty rootStageId).addAll interleaved).2.Records interleaved ∧
      ((empty rootStageId).addAll interleaved).2.hosted? (.onHost "north" 3 4) =
        some [Id.ofNat 0, Id.ofNat 2] := by
  have few : interleaved.length ≤ 2 ^ 32 := by decide
  obtain ⟨hworkers, hrecords⟩ := addAll_records rootStageId interleaved few
  have hall : ((empty rootStageId).addAll interleaved).2.Records interleaved := hrecords 3
  refine ⟨few, hworkers, hall, (hall.hosted _).trans ?_⟩
  decide +kernel

end Assignment

end StagedQuery
