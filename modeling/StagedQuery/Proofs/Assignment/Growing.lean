import StagedQuery.Proofs.Assignment.Reading
import StagedQuery.Proofs.Ids

/-!
# How an assignment grows

Adding workers on a server finds the place of the server by halving and puts the workers
there. Whether the servers stand in order or not, nothing is lost and nothing is put on
another server: the destinations afterwards are those of before and the new ones, in some
order (`StagedQuery.Assignment.hostWorkers_perm`). All that is needed of the search is
that an index it says is found is one, and that an index at which something is missing is
not beyond the end of the list, where an insertion would be dropped.

A worker that is added gets the number of workers there are, so the workers of an
assignment that was grown from the empty one are numbered from zero
(`StagedQuery.Assignment.Numbered`). They are different workers as long as there are no
more than `2 ^ 32` of them, and then each of them is hosted where it was put
(`StagedQuery.Assignment.firstHost_of_mem`).
-/

namespace StagedQuery

/-! ### Where the search ends -/

section

variable {α : Type} {compareTo : α → Ordering} {items : List α}

/-- The search stays in the window that it starts with. -/
theorem narrow_lt (steps base size : Nat) (h : 0 < size) :
    narrow compareTo items steps base size < base + size := by
  induction steps generalizing base size with
  | zero =>
    rw [narrow]
    omega
  | succ steps ih =>
    rw [narrow]
    split
    · omega
    · -- the half that is kept begins where the window did or half-way through it
      have hkept := ih (if compareAt compareTo items (base + size / 2) = .gt then base
        else base + size / 2) (size - size / 2) (by omega)
      refine Nat.lt_of_lt_of_le hkept ?_
      split <;> omega

/-- What is found is an item that compares as equal. -/
theorem findPosition_found {index : Nat} (h : findPosition compareTo items = .found index) :
    ∃ item, items[index]? = some item ∧ compareTo item = .eq := by
  rw [findPosition] at h
  split at h
  · exact nomatch h
  · dsimp only at h
    split at h
    case h_1 hcompare =>
      cases h
      rw [compareAt] at hcompare
      cases hitem : items[narrow compareTo items items.length 0 items.length]? with
      | some item =>
        rw [hitem] at hcompare
        exact ⟨item, rfl, hcompare⟩
      | none =>
        rw [hitem] at hcompare
        exact nomatch hcompare
    all_goals exact nomatch h

/-- What is missing would go somewhere among the items or behind them. -/
theorem findPosition_missing {index : Nat} (h : findPosition compareTo items = .missing index) :
    index ≤ items.length := by
  rw [findPosition] at h
  split at h
  · cases h
    exact Nat.zero_le _
  · rename_i hne
    have hpos : 0 < items.length := List.length_pos_iff.mpr fun hnil => hne (hnil ▸ rfl)
    have hlt : narrow compareTo items items.length 0 items.length < 0 + items.length :=
      narrow_lt _ _ _ hpos
    dsimp only at h
    split at h
    case h_1 => exact nomatch h
    all_goals
      cases h
      omega

end

namespace Assignment

/-! ### Destinations -/

/-- More workers on a server that is listed. -/
theorem destinationsOf_modify_perm (workers : List WorkerId) {servers : List Hosting} {index : Nat}
    {hosting : Hosting} (h : servers[index]? = some hosting) :
    (destinationsOf (servers.modify index fun s => { s with workers := s.workers ++ workers })).Perm
      (destinationsOf servers ++ workers.map (hosting.server, ·)) := by
  induction servers generalizing index with
  | nil => exact nomatch h
  | cons first rest ih =>
    cases index with
    | zero =>
      cases h
      rw [List.modify_zero_cons, destinationsOf, destinationsOf, List.flatMap_cons,
        List.flatMap_cons, List.map_append, List.append_assoc, List.append_assoc]
      exact List.Perm.append_left _ List.perm_append_comm
    | succ index =>
      rw [List.modify_succ_cons, destinationsOf, destinationsOf, List.flatMap_cons,
        List.flatMap_cons, List.append_assoc]
      exact List.Perm.append_left _ (ih h)

/-- **Adding workers on a server** keeps every destination and adds the new ones, in
whatever order the servers stand. -/
theorem hostWorkers_perm (servers : List Hosting) (server : Server) (workers : List WorkerId) :
    (destinationsOf (hostWorkers servers server workers)).Perm
      (destinationsOf servers ++ workers.map (server, ·)) := by
  rw [hostWorkers]
  split
  case h_1 index hfound =>
    -- the entry found is one of the server itself
    obtain ⟨hosting, hhosting, hcompare⟩ := findPosition_found hfound
    obtain rfl := Std.LawfulEqOrd.eq_of_compare hcompare
    exact destinationsOf_modify_perm workers hhosting
  case h_2 index hmissing =>
    -- the new entry goes in at a place that exists
    have hinsert := List.perm_insertIdx ⟨server, workers⟩ servers (findPosition_missing hmissing)
    exact (hinsert.flatMap_right _).trans List.perm_append_comm

variable {assignment : Assignment}

theorem add_destinations_perm (assignment : Assignment) (server : Server)
    (segments? : Option SegmentSet) :
    (assignment.add server segments?).2.destinations.Perm
      (assignment.destinations ++ [(server, assignment.nextWorker)]) :=
  hostWorkers_perm _ _ _

theorem addMany_destinations_perm (assignment : Assignment) (server : Server) (count : Nat) :
    (assignment.addMany server count).destinations.Perm
      (assignment.destinations ++
        ((List.range' assignment.size count).map Id.ofNat).map (server, ·)) :=
  hostWorkers_perm _ _ _

/-! ### Workers are numbered -/

/-- **The workers are numbered from zero**, in some order. -/
def Numbered (assignment : Assignment) : Prop :=
  assignment.workers.Perm ((List.range' 0 assignment.size).map Id.ofNat)

theorem numbered_empty (stage : StageId) : (empty stage).Numbered := .refl _

/-- Workers with the next numbers keep an assignment numbered. -/
theorem Numbered.grow {after : Assignment} {server : Server} {count : Nat}
    (h : assignment.Numbered) (hperm : after.destinations.Perm (assignment.destinations ++
      ((List.range' assignment.size count).map Id.ofNat).map (server, ·))) :
    after.Numbered ∧ after.size = assignment.size + count := by
  have hsize : after.size = assignment.size + count := by
    rw [size, hperm.length_eq, List.length_append, List.length_map, List.length_map,
      List.length_range']
    rfl
  refine ⟨?_, hsize⟩
  have hworkers := hperm.map (·.2)
  rw [List.map_append, List.map_map] at hworkers
  rw [Numbered, hsize, ← List.range'_append_1, List.map_append, Nat.zero_add]
  refine hworkers.trans (h.append ?_)
  rw [Function.comp_def, List.map_id']

theorem Numbered.add (h : assignment.Numbered) (server : Server) (segments? : Option SegmentSet) :
    (assignment.add server segments?).2.Numbered ∧
      (assignment.add server segments?).2.size = assignment.size + 1 :=
  h.grow (add_destinations_perm assignment server segments?)

theorem Numbered.addMany (h : assignment.Numbered) (server : Server) (count : Nat) :
    (assignment.addMany server count).Numbered ∧
      (assignment.addMany server count).size = assignment.size + count :=
  h.grow (addMany_destinations_perm assignment server count)

theorem size_addMany (assignment : Assignment) (server : Server) (count : Nat) :
    (assignment.addMany server count).size = assignment.size + count := by
  rw [size, (addMany_destinations_perm assignment server count).length_eq, List.length_append,
    List.length_map, List.length_map, List.length_range']
  rfl

/-- Adding the same number of workers on each of some servers. -/
theorem size_foldl_addMany (count : Nat) (servers : List Server) (before : Assignment) :
    (servers.foldl (fun assignment server => assignment.addMany server count) before).size =
      before.size + servers.length * count := by
  induction servers generalizing before with
  | nil => rw [List.foldl_nil, List.length_nil, Nat.zero_mul, Nat.add_zero]
  | cons server rest ih =>
    rw [List.foldl_cons, ih, size_addMany, List.length_cons, Nat.succ_mul]
    omega

/-- As long as the numbers do not run out, no worker is listed twice. -/
theorem Numbered.nodup (h : assignment.Numbered) (hsize : assignment.size ≤ 2 ^ 32) :
    assignment.workers.Nodup :=
  h.nodup_iff.mpr (Id.nodup_map_ofNat (by omega))

/-- **Where no worker is listed twice, each is hosted by the server that lists it.** -/
theorem firstHost_of_mem (hnodup : assignment.workers.Nodup) {server : Server} {worker : WorkerId}
    (h : (server, worker) ∈ assignment.destinations) : assignment.FirstHost worker server := by
  obtain ⟨hosting, hhosting, hmem⟩ := List.mem_flatMap.mp h
  obtain ⟨listed, hlisted, heq⟩ := List.mem_map.mp hmem
  obtain ⟨rfl, rfl⟩ := Prod.mk.inj heq
  obtain ⟨before, after, hservers⟩ := List.append_of_mem hhosting
  refine ⟨before, hosting, after, hservers, fun other hother hagain => ?_, hlisted, rfl⟩
  -- an earlier entry with the worker would list it a second time
  rw [workers_eq, hservers, List.flatMap_append, List.flatMap_cons, List.nodup_append] at hnodup
  exact hnodup.2.2 listed (List.mem_flatMap.mpr ⟨other, hother, hagain⟩) listed
    (List.mem_append_left _ hlisted) rfl

end Assignment

end StagedQuery
