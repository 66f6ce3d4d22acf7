import Mathlib.Data.List.Induction
import Mathlib.Data.List.InsertIdx
import StagedQuery.Proofs.Assignment.Placement

/-!
# The servers of an assignment ascend

In a list that ascends, as seen from a value, all items are before the value up to some place
and beyond it from there on, with the value itself in between if it is listed. Halving finds
this place (`StagedQuery.exists_split_of_missing`). So an assignment whose servers ascend keeps
them in order when workers are added, on whatever server
(`StagedQuery.Assignment.Ascend.hostWorkers`), and every assignment that planning makes has
its servers in order (`StagedQuery.Stage.ascend_of_place`).

Servers that ascend are listed once each. The last destination is then the last worker of the
server that is listed last, as far as servers with workers go
(`StagedQuery.Assignment.Ascend.last_hosted`).
-/

namespace StagedQuery

/-! ### What halving finds -/

section

variable {α : Type} {compareTo : α → Ordering} {items : List α}

/-- **Items ascend as seen from a value**: what stands in front of an item that is not beyond
the value is before the value. -/
def AscendFor (compareTo : α → Ordering) (items : List α) : Prop :=
  items.Pairwise fun a b => compareTo b ≠ .gt → compareTo a = .lt

theorem compareAt_of_getElem? {index : Nat} {item : α} (h : items[index]? = some item) :
    compareAt compareTo items index = compareTo item := by
  rw [compareAt, h]
  rfl

/-- An item that is not beyond the value is one of the list. -/
theorem exists_of_compareAt_ne {index : Nat} (h : compareAt compareTo items index ≠ .gt) :
    ∃ item, items[index]? = some item := by
  rw [compareAt] at h
  cases hitem : items[index]? with
  | some item => exact ⟨item, rfl⟩
  | none =>
    rw [hitem] at h
    exact absurd rfl h

theorem AscendFor.compareAt_eq_lt (h : AscendFor compareTo items) {i j : Nat} (hij : i < j)
    (hj : compareAt compareTo items j ≠ .gt) : compareAt compareTo items i = .lt := by
  obtain ⟨item, hitem⟩ := exists_of_compareAt_ne hj
  obtain ⟨hlt, rfl⟩ := List.getElem?_eq_some_iff.mp hitem
  rw [compareAt_of_getElem? hitem] at hj
  rw [compareAt_of_getElem? (List.getElem?_eq_getElem (Nat.lt_trans hij hlt))]
  exact List.pairwise_iff_getElem.mp h i j _ hlt hij hj

/-- **The place of a value is in a window** of `size` items that begins at `base`: what lies
behind the window is beyond the value, and its first item is not, unless it is the first
item of all. -/
structure HasPlace (compareTo : α → Ordering) (items : List α) (base size : Nat) : Prop where
  /-- The items behind the window are beyond the value. -/
  beyond : ∀ i, base + size ≤ i → compareAt compareTo items i = .gt
  /-- The first item of the window is not. -/
  reached : 0 < base → compareAt compareTo items base ≠ .gt

theorem HasPlace.mono {base size size' : Nat} (h : HasPlace compareTo items base size)
    (hsize : size ≤ size') : HasPlace compareTo items base size' :=
  ⟨fun i hi => h.beyond i (by omega), h.reached⟩

/-- The items in front of the window are before the value. -/
theorem HasPlace.before {base size : Nat} (h : HasPlace compareTo items base size)
    (hascend : AscendFor compareTo items) : ∀ i < base, compareAt compareTo items i = .lt :=
  fun _ hi => hascend.compareAt_eq_lt hi (h.reached (Nat.zero_lt_of_lt hi))

/-- **Halving keeps the place of the value in the window**, down to a window with one item. -/
theorem hasPlace_narrow (hascend : AscendFor compareTo items) {steps base size : Nat}
    (hsteps : size ≤ steps + 1) (h : HasPlace compareTo items base size) :
    HasPlace compareTo items (narrow compareTo items steps base size) 1 := by
  induction steps generalizing base size with
  | zero =>
    rw [narrow]
    exact h.mono hsteps
  | succ steps ih =>
    rw [narrow]
    split
    case isTrue hsize => exact h.mono hsize
    case isFalse hsize =>
      dsimp only
      by_cases hhalf : compareAt compareTo items (base + size / 2) = .gt
      · -- what lies behind an item that is beyond the value is beyond it, too
        rw [if_pos hhalf]
        refine ih (by omega) ⟨fun i hi => ?_, h.reached⟩
        by_contra hne
        have hle : base + size / 2 ≤ i := by omega
        rcases Nat.lt_or_eq_of_le hle with hlt | rfl
        · cases hhalf.symm.trans (hascend.compareAt_eq_lt hlt hne)
        · exact hne hhalf
      · rw [if_neg hhalf]
        exact ih (by omega) ⟨fun i hi => h.beyond i (by omega), fun _ => hhalf⟩

/-- **Where a value that is missing would go**: behind the items before it and in front of
those beyond it, and there are no others. -/
theorem exists_split_of_missing (h : AscendFor compareTo items) {index : Nat}
    (hmissing : findPosition compareTo items = .missing index) :
    ∃ before after, items = before ++ after ∧ before.length = index ∧
      (∀ a ∈ before, compareTo a = .lt) ∧ ∀ a ∈ after, compareTo a = .gt := by
  suffices (∀ i < index, compareAt compareTo items i = .lt) ∧
      ∀ i, index ≤ i → compareAt compareTo items i = .gt by
    obtain ⟨hbefore, hbeyond⟩ := this
    refine ⟨items.take index, items.drop index, (List.take_append_drop _ _).symm,
      List.length_take_of_le (findPosition_missing hmissing), fun a ha => ?_, fun a ha => ?_⟩
    · obtain ⟨i, hi⟩ := List.mem_iff_getElem?.mp ha
      rw [List.getElem?_take] at hi
      split_ifs at hi with hlt
      exact (compareAt_of_getElem? hi).symm.trans (hbefore i hlt)
    · obtain ⟨i, hi⟩ := List.mem_iff_getElem?.mp ha
      rw [List.getElem?_drop] at hi
      exact (compareAt_of_getElem? hi).symm.trans (hbeyond _ (Nat.le_add_right _ _))
  have hplace : HasPlace compareTo items
      (narrow compareTo items items.length 0 items.length) 1 := by
    refine hasPlace_narrow h (Nat.le_succ _) ⟨fun i hi => ?_, fun hpos => absurd hpos (by omega)⟩
    rw [compareAt, List.getElem?_eq_none (by omega)]
    rfl
  have hbefore := hplace.before h
  rw [findPosition] at hmissing
  split_ifs at hmissing with hempty
  · cases hmissing
    refine ⟨fun i hi => absurd hi (Nat.not_lt_zero i), fun i _ => ?_⟩
    rw [List.isEmpty_iff.mp hempty]
    rfl
  · dsimp only at hmissing
    split at hmissing
    case h_1 => cases hmissing
    case h_2 hlt =>
      -- the item at the place is the last one before the value
      cases hmissing
      refine ⟨fun i hi => ?_, hplace.beyond⟩
      rcases Nat.lt_or_eq_of_le (Nat.le_of_lt_succ hi) with hi | rfl
      · exact hbefore i hi
      · exact hlt
    case h_3 hgt =>
      cases hmissing
      refine ⟨hbefore, fun i hi => ?_⟩
      rcases Nat.lt_or_eq_of_le hi with hi | rfl
      · exact hplace.beyond i hi
      · exact hgt

theorem insertIdx_length (before after : List α) (item : α) :
    (before ++ after).insertIdx before.length item = before ++ item :: after := by
  induction before with
  | nil => rfl
  | cons first rest ih =>
    rw [List.cons_append, List.length_cons, List.insertIdx_succ_cons, ih, List.cons_append]

end

namespace Assignment

/-! ### Adding workers -/

/-- The servers ascend, and so each is listed once. -/
def Ascend (servers : List Hosting) : Prop :=
  servers.Pairwise fun a b => compare a.server b.server = .lt

theorem Ascend.ascendFor {servers : List Hosting} (h : Ascend servers) (server : Server) :
    AscendFor (fun s => compare s.server server) servers :=
  h.imp fun hlt hne => Std.TransCmp.lt_of_lt_of_isLE hlt (Ordering.isLE_iff_ne_gt.mpr hne)

/-- **Adding workers keeps servers in order.** -/
theorem Ascend.hostWorkers {servers : List Hosting} (h : Ascend servers) (server : Server)
    (workers : List WorkerId) : Ascend (hostWorkers servers server workers) := by
  rw [Assignment.hostWorkers]
  split
  case h_1 index hfound =>
    have hsame : (servers.modify index fun s => { s with workers := s.workers ++ workers }).map
        (·.server) = servers.map (·.server) := by
      refine List.ext_getElem? fun i => ?_
      rw [List.getElem?_map, List.getElem?_map, List.getElem?_modify]
      cases servers[i]? with
      | none => rfl
      | some s =>
        change some (Hosting.server (if index = i then _ else _)) = _
        split_ifs <;> rfl
    have hservers : (servers.map (·.server)).Pairwise fun a b => compare a b = .lt :=
      List.pairwise_map.mpr h
    rw [← hsame] at hservers
    exact List.pairwise_map.mp hservers
  case h_2 index hmissing =>
    obtain ⟨before, after, rfl, rfl, hbefore, hafter⟩ :=
      exists_split_of_missing (h.ascendFor server) hmissing
    obtain ⟨hfront, hback, hacross⟩ := List.pairwise_append.mp h
    rw [insertIdx_length]
    refine List.pairwise_append.mpr ⟨hfront, List.pairwise_cons.mpr ⟨fun s hs => ?_, hback⟩,
      fun s hs t ht => ?_⟩
    · exact Std.OrientedCmp.gt_iff_lt.mp (hafter s hs)
    · rcases List.mem_cons.mp ht with rfl | ht
      · exact hbefore s hs
      · exact hacross s hs t ht

/-! ### The last worker -/

/-- **The last destination is the last worker of its server**, where no server is listed
twice. -/
theorem Ascend.last_hosted {assignment : Assignment} (h : Ascend assignment.servers)
    {server : Server} {worker : WorkerId}
    (hlast : assignment.destinations.getLast? = some (server, worker)) :
    (assignment.hosted? server).bind List.getLast? = some worker := by
  obtain ⟨stage, servers, segments⟩ := assignment
  change (destinationsOf servers).getLast? = some (server, worker) at hlast
  change (workersOf servers server).bind List.getLast? = _
  -- servers without workers may be listed behind the one with the last destination
  induction servers using List.reverseRecOn with
  | nil => cases hlast
  | append_singleton rest last ih =>
    obtain ⟨hrest, -, hacross⟩ := List.pairwise_append.mp h
    rw [destinationsOf, List.flatMap_append, List.flatMap_singleton, List.getLast?_append,
      List.getLast?_map, Option.or_eq_some_iff] at hlast
    rw [workersOf, List.find?_append]
    rcases hlast with hlast | ⟨-, hlast⟩
    · obtain ⟨found, hfound, heq⟩ := Option.map_eq_some_iff.mp hlast
      obtain ⟨rfl, rfl⟩ := Prod.mk.inj heq
      have hnone : rest.find? (fun s => s.server == last.server) = none := by
        refine List.find?_eq_none.mpr fun s hs heq => ?_
        exact ne_of_compare_lt (hacross s hs last List.mem_cons_self) (eq_of_beq heq)
      rw [hnone, Option.none_or, List.find?_singleton, if_pos (beq_self_eq_true _)]
      exact hfound
    · have hin := ih hrest hlast
      rw [workersOf] at hin
      cases hfind : rest.find? fun s => s.server == server with
      | none =>
        rw [hfind] at hin
        cases hin
      | some found => rwa [hfind] at hin

end Assignment

namespace Stage

/-! ### What planning makes -/

/-- Servers that workers are added on one after the other. -/
theorem ascend_foldl {α : Type} {grow : Assignment → α → Assignment}
    (hgrow : ∀ assignment a, Assignment.Ascend assignment.servers →
      Assignment.Ascend (grow assignment a).servers) (items : List α) (before : Assignment)
    (h : Assignment.Ascend before.servers) :
    Assignment.Ascend (items.foldl grow before).servers := by
  induction items generalizing before with
  | nil => exact h
  | cons a rest ih => exact ih (grow before a) (hgrow before a h)

/-- **What is placed for a stage** has its servers in order. -/
theorem ascend_of_place {stage : Stage} {cluster : Cluster} {settings : Settings}
    {assignment : Assignment} (h : stage.place cluster settings = .ok assignment) :
    Assignment.Ascend assignment.servers := by
  have hempty : Assignment.Ascend (Assignment.empty stage.id).servers := .nil
  rw [place] at h
  split_ifs at h with hroot hscan
  · cases h
    exact hempty.hostWorkers _ _
  · obtain ⟨held, -, -, rfl⟩ := placeScan_eq_ok.mp h
    exact ascend_foldl (fun _ _ hbefore => hbefore.hostWorkers _ _) _ _ hempty
  · obtain ⟨-, rfl⟩ := placeAnywhere_eq_ok.mp h
    exact ascend_foldl (fun _ _ hbefore => hbefore.hostWorkers _ _) _ _ hempty

end Stage

end StagedQuery
