import Mathlib.Algebra.BigOperators.Group.List.Basic
import Mathlib.Algebra.GroupWithZero.Nat
import Mathlib.Logic.Relation
import StagedQuery.Dispatch.Reachability
import StagedQuery.Proofs.Keyed
import StagedQuery.Proofs.Outcome
import StagedQuery.Proofs.Plan.Nodes

/-!
# The exploration finds what the root depends on

A stage depends on the stages it receives from
(`StagedQuery.StageGraph.ReceivesFrom`), and `StagedQuery.StageGraph.Needed` says
that the root depends on a stage, however many stages lie in between.

The exploration takes one stage after the other from a stack:
`StagedQuery.StageGraph.Explores` has a rule for each thing that can happen to the
stage on top, and counts the passes. What it relies on is
`StagedQuery.StageGraph.Exploring`: everything on the stack and in the set of stages
reached is needed, the root is in one of them, and so is every stage that a stage in
the set receives from. Each rule keeps this, whatever the stack holds besides, and
once the stack is used up the set is closed and so holds exactly the needed stages.

**It comes to an end.** The stack may grow, and hold a stage many times, so neither
its length nor the number of stages left goes down with every pass. What goes down is
the length of the stack and the number of receives in the stages not reached, taken
together: a stage puts as many ids on the stack as it has receives, and does so once
(`StagedQuery.StageGraph.exists_explores`).

`StagedQuery.StageGraph.explore` follows the rules
(`StagedQuery.StageGraph.Explores.explore_eq`). It counts down a number that is never
less than the number of stages not reached, so it does not run out as long as a stage
is left to look into.
-/

namespace StagedQuery

namespace StageGraph

variable {graph : StageGraph}

/-! ### Who depends on whom -/

/-- The stage `receiver` has a receive that names the stage `sender`. -/
def ReceivesFrom (graph : StageGraph) (receiver sender : StageId) : Prop :=
  ∃ planned, graph.stages[receiver]? = some planned ∧
    ∃ node ∈ planned.stage.root.nodes, ∃ receive,
      node.operator = .receive receive ∧ receive.sender = sender

/-- The root depends on a stage: a chain of receives leads from it to the
stage. -/
def Needed (graph : StageGraph) (stage : StageId) : Prop :=
  Relation.ReflTransGen graph.ReceivesFrom graph.root stage

/-- **Nothing is missing**: the root is there, and so is every stage that a needed stage
receives from. -/
structure Gapless (graph : StageGraph) : Prop where
  /-- The root is there. -/
  root : graph.root ∈ graph.stages
  /-- The senders that a needed stage names are there. -/
  senders : ∀ receiver sender, graph.Needed receiver → graph.ReceivesFrom receiver sender →
    sender ∈ graph.stages

theorem gapless_iff : graph.Gapless ↔ ∀ id, graph.Needed id → id ∈ graph.stages := by
  refine ⟨fun h id hneeded => ?_, fun h => ⟨h _ .refl, fun receiver sender hneeded hreceives =>
    h sender (hneeded.tail hreceives)⟩⟩
  rcases Relation.ReflTransGen.cases_tail hneeded with rfl | ⟨receiver, hreceiver, hreceives⟩
  · exact h.root
  · exact h.senders receiver id hreceiver hreceives

theorem stage_eq_ok {id : StageId} {planned : PlannedStage} :
    graph.stage id = .ok planned ↔ graph.stages[id]? = some planned := by
  rw [stage]
  cases graph.stages[id]? with
  | some found => simp
  | none => simp [structuralError]

theorem stage_eq_error {id : StageId} {fault : PlanError} :
    graph.stage id = .error fault ↔
      id ∉ graph.stages ∧ fault = .structural (.unknownStage id) := by
  rw [stage, mem_iff_exists_entry]
  cases graph.stages[id]? with
  | some found => simp
  | none => simp [structuralError, eq_comm]

theorem receivesFrom_iff {receiver sender : StageId} {planned : PlannedStage}
    (h : graph.stages[receiver]? = some planned) :
    graph.ReceivesFrom receiver sender ↔ sender ∈ planned.stage.senders := by
  rw [Stage.senders, PlanTree.mem_senders]
  refine ⟨fun ⟨found, hfound, hnode⟩ => ?_, fun hnode => ⟨planned, h, hnode⟩⟩
  rw [h] at hfound
  exact Option.some.inj hfound ▸ hnode

/-! ### The invariant of the exploration -/

/-- **What the exploration relies on**, where `reached` holds the stages looked
into and `pending` those still to come. -/
structure Exploring (graph : StageGraph) (reached : Std.ExtTreeSet StageId)
    (pending : List StageId) : Prop where
  /-- What has been reached is needed. -/
  reached_needed : ∀ id ∈ reached, graph.Needed id
  /-- What is still to come is needed. -/
  pending_needed : ∀ id ∈ pending, graph.Needed id
  /-- The root is not forgotten. -/
  root : graph.root ∈ reached ∨ graph.root ∈ pending
  /-- Nothing that a stage looked into receives from is forgotten. -/
  senders : ∀ id ∈ reached, ∀ sender, graph.ReceivesFrom id sender →
    sender ∈ reached ∨ sender ∈ pending

namespace Exploring

variable {reached : Std.ExtTreeSet StageId} {pending : List StageId}

/-- The exploration begins with the root. -/
theorem start (graph : StageGraph) : graph.Exploring ∅ [graph.root] where
  reached_needed _ h := absurd h Std.ExtTreeSet.not_mem_empty
  pending_needed _ h := List.mem_singleton.mp h ▸ Relation.ReflTransGen.refl
  root := .inr (List.mem_singleton_self _)
  senders _ h := absurd h Std.ExtTreeSet.not_mem_empty

/-- A stage on top of the stack that has been reached may be dropped. -/
theorem skip {id : StageId} (h : graph.Exploring reached (id :: pending)) (old : id ∈ reached) :
    graph.Exploring reached pending := by
  have keep : ∀ other, other ∈ reached ∨ other ∈ id :: pending →
      other ∈ reached ∨ other ∈ pending := by
    rintro other (hr | hp)
    · exact .inl hr
    · rcases List.mem_cons.mp hp with rfl | hp
      · exact .inl old
      · exact .inr hp
  exact ⟨h.reached_needed, fun other ho => h.pending_needed other (List.mem_cons_of_mem _ ho),
    keep _ h.root, fun other ho sender hs => keep _ (h.senders other ho sender hs)⟩

/-- **Looking into the stage on top of the stack** puts it among the stages
reached, and the stages it receives from on the stack. -/
theorem step {id : StageId} {planned : PlannedStage} (h : graph.Exploring reached (id :: pending))
    (hid : graph.stages[id]? = some planned) :
    graph.Exploring (reached.insert id) (planned.stage.senders.reverse ++ pending) := by
  have hneed : graph.Needed id := h.pending_needed id List.mem_cons_self
  have keep : ∀ other, other ∈ reached ∨ other ∈ id :: pending →
      other ∈ reached.insert id ∨ other ∈ planned.stage.senders.reverse ++ pending := by
    rintro other (hr | hp)
    · exact .inl (Std.ExtTreeSet.mem_insert.mpr (.inr hr))
    · rcases List.mem_cons.mp hp with rfl | hp
      · exact .inl Std.ExtTreeSet.mem_insert_self
      · exact .inr (List.mem_append_right _ hp)
  refine ⟨fun other ho => ?_, fun other ho => ?_, keep _ h.root, fun other ho sender hs => ?_⟩
  · rcases Std.ExtTreeSet.mem_insert.mp ho with heq | hr
    · exact Std.LawfulEqOrd.eq_of_compare heq ▸ hneed
    · exact h.reached_needed other hr
  · rcases List.mem_append.mp ho with hs | hp
    · exact hneed.tail ((receivesFrom_iff hid).mpr (List.mem_reverse.mp hs))
    · exact h.pending_needed other (List.mem_cons_of_mem _ hp)
  · rcases Std.ExtTreeSet.mem_insert.mp ho with heq | hr
    · rw [← Std.LawfulEqOrd.eq_of_compare heq, receivesFrom_iff hid] at hs
      exact .inr (List.mem_append_left _ (List.mem_reverse.mpr hs))
    · exact keep _ (h.senders other hr sender hs)

/-- Once nothing is left on the stack, the stages reached are the needed ones. -/
theorem mem_iff (h : graph.Exploring reached []) (id : StageId) :
    id ∈ reached ↔ graph.Needed id := by
  refine ⟨h.reached_needed id, fun hn => ?_⟩
  -- with nothing pending, the set is closed under going to a sender
  induction hn with
  | refl => exact h.root.resolve_right List.not_mem_nil
  | tail _ hs ih => exact (h.senders _ ih _ hs).resolve_right List.not_mem_nil

end Exploring

/-! ### The rules -/

/-- **The exploration, one stage of the stack at a time.** With the stages `reached` and
the stack `pending` it ends after so many passes, with the stages reached by then or
with a fault. -/
inductive Explores (graph : StageGraph) : Std.ExtTreeSet StageId → List StageId → Nat →
    Except PlanError (Std.ExtTreeSet StageId) → Prop where
  /-- Nothing is left on the stack. -/
  | done {reached : Std.ExtTreeSet StageId} : Explores graph reached [] 0 (.ok reached)
  /-- The stage on top has been reached before. -/
  | again {reached : Std.ExtTreeSet StageId} {id : StageId} {pending : List StageId} {passes : Nat}
      {outcome : Except PlanError (Std.ExtTreeSet StageId)} (old : id ∈ reached)
      (rest : Explores graph reached pending passes outcome) :
      Explores graph reached (id :: pending) (passes + 1) outcome
  /-- The stage on top is new, but it is not there. -/
  | missing {reached : Std.ExtTreeSet StageId} {id : StageId} {pending : List StageId}
      {fault : PlanError} (new : id ∉ reached) (refused : graph.stage id = .error fault) :
      Explores graph reached (id :: pending) 1 (.error fault)
  /-- The stage on top is new. The stages it receives from go on the stack, the last one on
  top. -/
  | reach {reached : Std.ExtTreeSet StageId} {id : StageId} {pending : List StageId}
      {planned : PlannedStage} {passes : Nat}
      {outcome : Except PlanError (Std.ExtTreeSet StageId)} (new : id ∉ reached)
      (found : graph.stage id = .ok planned)
      (rest : Explores graph (reached.insert id) (planned.stage.senders.reverse ++ pending) passes
        outcome) : Explores graph reached (id :: pending) (passes + 1) outcome

section

variable {reached : Std.ExtTreeSet StageId} {pending : List StageId} {passes : Nat}
  {outcome : Except PlanError (Std.ExtTreeSet StageId)}

/-- **What an exploration ends with**: the needed stages, if all of them are there, or the
fault that one of them is not. -/
theorem Explores.ends (run : graph.Explores reached pending passes outcome)
    (h : graph.Exploring reached pending) (hthere : ∀ id ∈ reached, id ∈ graph.stages) :
    (∃ final, outcome = .ok final ∧ (∀ id, id ∈ final ↔ graph.Needed id) ∧
        ∀ id ∈ final, id ∈ graph.stages) ∨
      ∃ id, graph.Needed id ∧ id ∉ graph.stages ∧
        outcome = structuralError (.unknownStage id) := by
  induction run with
  | done => exact .inl ⟨_, rfl, h.mem_iff, hthere⟩
  | again old _ ih => exact ih (h.skip old) hthere
  | missing _ refused =>
    obtain ⟨hmissing, rfl⟩ := stage_eq_error.mp refused
    exact .inr ⟨_, h.pending_needed _ List.mem_cons_self, hmissing, rfl⟩
  | reach _ found _ ih =>
    have hfound := stage_eq_ok.mp found
    refine ih (h.step hfound) fun other ho => ?_
    rcases Std.ExtTreeSet.mem_insert.mp ho with heq | hr
    · exact Std.LawfulEqOrd.eq_of_compare heq ▸ mem_iff_exists_entry.mpr ⟨_, hfound⟩
    · exact hthere other hr

/-! ### The stages left -/

/-- The stages that have not been reached. -/
def unreached (graph : StageGraph) (reached : Std.ExtTreeSet StageId) : List StageId :=
  graph.stages.keys.filter fun id => !reached.contains id

theorem contains_eq_false_iff {id : StageId} : reached.contains id = false ↔ id ∉ reached := by
  rw [← Std.ExtTreeSet.contains_iff_mem, Bool.not_eq_true]

theorem mem_unreached {id : StageId} :
    id ∈ graph.unreached reached ↔ id ∈ graph.stages ∧ id ∉ reached := by
  rw [unreached, List.mem_filter, Std.ExtTreeMap.mem_keys, Bool.not_eq_true',
    contains_eq_false_iff]

theorem nodup_unreached : (graph.unreached reached).Nodup :=
  Std.ExtTreeMap.nodup_keys.filter _

/-- Reaching a stage takes it from those not reached, and no other. -/
theorem unreached_perm {id : StageId} (hid : id ∈ graph.stages) (hnew : id ∉ reached) :
    (graph.unreached reached).Perm (id :: graph.unreached (reached.insert id)) := by
  have hnot : id ∉ graph.unreached (reached.insert id) := fun h =>
    (mem_unreached.mp h).2 Std.ExtTreeSet.mem_insert_self
  refine (List.perm_ext_iff_of_nodup nodup_unreached
    (List.nodup_cons.mpr ⟨hnot, nodup_unreached⟩)).mpr fun other => ?_
  rw [List.mem_cons, mem_unreached, mem_unreached, Std.ExtTreeSet.mem_insert,
    Std.LawfulEqCmp.compare_eq_iff_eq, not_or]
  by_cases heq : id = other
  · exact iff_of_true (heq ▸ ⟨hid, hnew⟩) (.inl heq.symm)
  · exact ⟨fun h => .inr ⟨h.1, heq, h.2⟩, fun h => (h.resolve_left (Ne.symm heq)).imp_right (·.2)⟩

/-- **The exploration follows the rules**, as long as its bound is no less than the number
of stages left. -/
theorem Explores.explore_eq (run : graph.Explores reached pending passes outcome) {bound : Nat}
    (hbound : (graph.unreached reached).length ≤ bound) :
    graph.explore bound reached pending = outcome := by
  induction run generalizing bound with
  | done => rw [explore, List.dropWhile_nil]
  | again old _ ih =>
    rw [← ih hbound, explore, List.dropWhile_cons_of_pos (Std.ExtTreeSet.contains_iff_mem.mpr old),
      ← explore]
  | missing new refused =>
    rw [explore, List.dropWhile_cons_of_neg (mt Std.ExtTreeSet.contains_iff_mem.mp new)]
    simp only [refused]
  | reach new found _ ih =>
    rw [explore, List.dropWhile_cons_of_neg (mt Std.ExtTreeSet.contains_iff_mem.mp new)]
    simp only [found]
    -- the stage on top is itself one of those left, so the bound is not used up
    have hid := mem_iff_exists_entry.mpr ⟨_, stage_eq_ok.mp found⟩
    rw [(unreached_perm hid new).length_eq, List.length_cons] at hbound
    obtain ⟨bound, rfl⟩ : ∃ less, bound = less + 1 := ⟨bound - 1, by omega⟩
    exact ih (by omega)

/-! ### The receives left -/

/-- How many receives there are in the stages that have not been reached. -/
def receivesLeft (graph : StageGraph) (reached : Std.ExtTreeSet StageId) : Nat :=
  ((graph.unreached reached).map fun id =>
    graph.stages[id]?.elim 0 (·.stage.senders.length)).sum

/-- How many receives there are in all stages. -/
def receiveCount (graph : StageGraph) : Nat :=
  (graph.stageList.map (·.stage.senders.length)).sum

theorem receivesLeft_empty : graph.receivesLeft ∅ = graph.receiveCount := by
  have hall : graph.unreached ∅ = graph.stages.toList.map (·.1) := by
    rw [unreached, Std.ExtTreeMap.map_fst_toList_eq_keys]
    exact List.filter_eq_self.mpr fun id _ => by
      rw [contains_eq_false_iff.mpr Std.ExtTreeSet.not_mem_empty, Bool.not_false]
  rw [receivesLeft, hall, receiveCount, stageList, List.map_map, List.map_map]
  refine congrArg List.sum (List.map_congr_left fun entry hentry => ?_)
  have hplanned := Std.ExtTreeMap.mem_toList_iff_getElem?_eq_some.mp hentry
  simp only [Function.comp_apply, hplanned, Option.elim_some]

/-- The receives of a stage are no longer left once it has been reached. -/
theorem receivesLeft_insert {id : StageId} {planned : PlannedStage}
    (hid : graph.stages[id]? = some planned) (hnew : id ∉ reached) :
    graph.receivesLeft reached =
      planned.stage.senders.length + graph.receivesLeft (reached.insert id) := by
  have hperm := unreached_perm (mem_iff_exists_entry.mpr ⟨planned, hid⟩) hnew
  rw [receivesLeft, (hperm.map _).sum_eq, List.map_cons, List.sum_cons, hid]
  rfl

/-- **The exploration comes to an end**, within as many passes as there are ids on the
stack and receives left. -/
theorem exists_explores (graph : StageGraph) (budget : Nat) :
    ∀ (reached : Std.ExtTreeSet StageId) (pending : List StageId),
      pending.length + graph.receivesLeft reached ≤ budget →
      ∃ passes ≤ budget, ∃ outcome, graph.Explores reached pending passes outcome := by
  induction budget with
  | zero =>
    intro reached pending hbudget
    obtain rfl : pending = [] := List.length_eq_zero_iff.mp (by omega)
    exact ⟨0, Nat.le_refl 0, _, .done⟩
  | succ budget ih =>
    intro reached pending hbudget
    cases pending with
    | nil => exact ⟨0, Nat.zero_le _, _, .done⟩
    | cons id pending =>
      rw [List.length_cons] at hbudget
      by_cases hold : id ∈ reached
      · obtain ⟨passes, hpasses, outcome, hrest⟩ := ih reached pending (by omega)
        exact ⟨passes + 1, by omega, outcome, .again hold hrest⟩
      cases hfound : graph.stage id with
      | error fault => exact ⟨1, by omega, _, .missing hold hfound⟩
      | ok planned =>
        -- what goes on the stack is what is no longer left, and the stage itself is gone
        have hleft := receivesLeft_insert (stage_eq_ok.mp hfound) hold
        obtain ⟨passes, hpasses, outcome, hrest⟩ := ih (reached.insert id)
          (planned.stage.senders.reverse ++ pending)
          (by rw [List.length_append, List.length_reverse]; omega)
        exact ⟨passes + 1, by omega, outcome, .reach hold hfound hrest⟩

end

/-! ### The stages reached from the root -/

/-- There is one end that the exploration from the root can come to. -/
theorem reachable_eq_of_explores {passes : Nat}
    {outcome : Except PlanError (Std.ExtTreeSet StageId)}
    (run : graph.Explores ∅ [graph.root] passes outcome) : graph.reachable = outcome := by
  refine run.explore_eq ?_
  rw [← Std.ExtTreeMap.length_keys]
  exact List.length_filter_le _ _

/-- The exploration from the root follows the rules to an end, within as many passes as
there are receives, and one more for the root. -/
theorem exists_explores_reachable (graph : StageGraph) :
    ∃ passes ≤ graph.receiveCount + 1, graph.Explores ∅ [graph.root] passes graph.reachable := by
  obtain ⟨passes, hpasses, outcome, run⟩ := graph.exists_explores (graph.receiveCount + 1) ∅
    [graph.root] (by rw [receivesLeft_empty, List.length_singleton]; omega)
  exact ⟨passes, hpasses, (reachable_eq_of_explores run).symm ▸ run⟩

/-- The stages that can be reached from the root are the needed ones, if all of these are
there; otherwise one that is not is named. -/
theorem reachable_cases (graph : StageGraph) :
    (∃ reached, graph.reachable = .ok reached ∧ (∀ id, id ∈ reached ↔ graph.Needed id) ∧
        ∀ id ∈ reached, id ∈ graph.stages) ∨
      ∃ id, graph.Needed id ∧ id ∉ graph.stages ∧
        graph.reachable = structuralError (.unknownStage id) := by
  obtain ⟨passes, -, run⟩ := graph.exists_explores_reachable
  exact run.ends (.start graph) fun _ h => absurd h Std.ExtTreeSet.not_mem_empty

/-- **The stages that can be reached from the root** are the needed ones, where
all of these are there. -/
theorem reachable_eq_ok (there : ∀ id, graph.Needed id → id ∈ graph.stages) :
    ∃ reached, graph.reachable = .ok reached ∧ ∀ id, id ∈ reached ↔ graph.Needed id := by
  rcases graph.reachable_cases with ⟨reached, hreached, hmem, -⟩ | ⟨id, hneeded, hmissing, -⟩
  · exact ⟨reached, hreached, hmem⟩
  · exact absurd (there id hneeded) hmissing

/-- The check names the first stage that has not been reached, if there is one. -/
theorem checkReachability_eq {reached : Std.ExtTreeSet StageId}
    (h : graph.reachable = .ok reached) :
    graph.checkReachability = (graph.unreached reached).head?.elim (.ok ())
      fun id => structuralError (.unreachableStage id graph.root) := by
  rw [checkReachability, h, unreached, List.head?_filter]
  cases hf : graph.stages.keys.find? fun id => !reached.contains id <;> simp [bind, Except.bind, hf]

/-- The check accepts exactly if every stage has been reached. -/
theorem checkReachability_eq_ok_iff {reached : Std.ExtTreeSet StageId}
    (h : graph.reachable = .ok reached) :
    graph.checkReachability = .ok () ↔ ∀ id ∈ graph.stages, id ∈ reached := by
  rw [checkReachability_eq h]
  cases hhead : (graph.unreached reached).head? with
  | none =>
    refine iff_of_true rfl fun id hid => not_not.mp fun hnew => ?_
    have hleft := mem_unreached.mpr ⟨hid, hnew⟩
    rw [List.head?_eq_none_iff.mp hhead] at hleft
    exact List.not_mem_nil hleft
  | some id =>
    obtain ⟨hid, hnew⟩ := mem_unreached.mp (List.mem_of_head? hhead)
    exact iff_of_false nofun fun hall => hnew (hall id hid)

/-- A graph in which every needed stage is there passes the check exactly if
every stage is needed. -/
theorem checkReachability_eq_ok (there : ∀ id, graph.Needed id → id ∈ graph.stages) :
    graph.checkReachability = .ok () ↔ ∀ id ∈ graph.stages, graph.Needed id := by
  obtain ⟨reached, hreached, hmem⟩ := reachable_eq_ok there
  rw [checkReachability_eq_ok_iff hreached]
  exact forall₂_congr fun id _ => hmem id

end StageGraph

end StagedQuery
