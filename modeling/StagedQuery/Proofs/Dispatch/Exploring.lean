import StagedQuery.Proofs.Explain.Cycles
import StagedQuery.Proofs.Ids

/-!
# What the check of reachability finds

The last check of a graph explores it from the root and then looks for a stage that has
not been reached. Nothing is asked of the graph for this to come to an end: stages may
receive from one another in a circle, name a sender many times, or name one that is not
there (`StagedQuery.StageGraph.explores_needed`). If a sender is missing, then the
exploration says so; it gives an answer exactly if nothing that the root depends on is
missing (`StagedQuery.StageGraph.reachable_ok_iff_gapless`).

The answer is the set of stages that the root depends on. A graph is refused if it has a
stage outside this set, and of several such stages the one with the smallest id is named.
-/

namespace StagedQuery

namespace StageGraph

variable {graph : StageGraph} {reached : Std.ExtTreeSet StageId}

/-- The first of the stages that have not been reached is the one with the smallest id. -/
theorem head?_unreached_eq_some {id : StageId} :
    (graph.unreached reached).head? = some id ↔ id ∈ graph.stages ∧ id ∉ reached ∧
      ∀ other ∈ graph.stages, other ∉ reached → id.number ≤ other.number := by
  have hordered : (graph.unreached reached).Pairwise fun a b => compare a b = .lt :=
    Std.ExtTreeMap.ordered_keys.filter _
  have hfirst (first : StageId) (h : (graph.unreached reached).head? = some first) :
      ∀ other ∈ graph.stages, other ∉ reached → first.number ≤ other.number := by
    obtain ⟨rest, hrest⟩ := List.head?_eq_some_iff.mp h
    rw [hrest, List.pairwise_cons] at hordered
    intro other hother hnew
    have hleft := mem_unreached.mpr ⟨hother, hnew⟩
    rw [hrest] at hleft
    rcases List.mem_cons.mp hleft with rfl | hbehind
    · exact UInt32.le_refl _
    · exact Id.isLE_compare.mp (Ordering.isLE_of_eq_lt (hordered.1 other hbehind))
  constructor
  · intro h
    obtain ⟨hid, hnew⟩ := mem_unreached.mp (List.mem_of_head? h)
    exact ⟨hid, hnew, hfirst id h⟩
  · rintro ⟨hid, hnew, hleast⟩
    obtain ⟨first, hhead⟩ := Option.ne_none_iff_exists'.mp fun hnone =>
      List.ne_nil_of_mem (mem_unreached.mpr ⟨hid, hnew⟩) (List.head?_eq_none_iff.mp hnone)
    obtain ⟨hmem, hnot⟩ := mem_unreached.mp (List.mem_of_head? hhead)
    have heq : first.number = id.number :=
      UInt32.le_antisymm (hfirst first hhead id hid hnew) (hleast first hmem hnot)
    rw [hhead, ← first.ofNat_toNat, heq, id.ofNat_toNat]

/-- **The check names the first stage that has not been reached.** -/
theorem checkReachability_eq_error_iff (h : graph.reachable = .ok reached) {fault : PlanError} :
    graph.checkReachability = .error fault ↔ ∃ id ∈ graph.stages, id ∉ reached ∧
      (∀ other ∈ graph.stages, other ∉ reached → id.number ≤ other.number) ∧
      fault = .structural (.unreachableStage id graph.root) := by
  rw [checkReachability_eq h]
  constructor
  · intro hfault
    cases hhead : (graph.unreached reached).head? with
    | none => rw [hhead] at hfault; exact nomatch hfault
    | some id =>
      rw [hhead] at hfault
      obtain ⟨hid, hnew, hleast⟩ := head?_unreached_eq_some.mp hhead
      exact ⟨id, hid, hnew, hleast, (Except.error.inj hfault).symm⟩
  · rintro ⟨id, hid, hnew, hleast, rfl⟩
    rw [head?_unreached_eq_some.mpr ⟨hid, hnew, hleast⟩]
    rfl

/-- **When the exploration gives an answer**: exactly if nothing is missing. Otherwise it
says of a stage that the root depends on that it is not there. -/
theorem reachable_ok_iff_gapless (graph : StageGraph) :
    ((∃ reached, graph.reachable = .ok reached) ↔ graph.Gapless) ∧
      ∀ fault, graph.reachable = .error fault →
        ∃ id, graph.Needed id ∧ id ∉ graph.stages ∧ fault = .structural (.unknownStage id) := by
  rw [gapless_iff]
  rcases graph.reachable_cases with ⟨reached, hreached, hmem, hthere⟩ | ⟨id, hneeded, hmissing, he⟩
  · refine ⟨iff_of_true ⟨reached, hreached⟩ fun id hid => hthere id ((hmem id).mpr hid), ?_⟩
    rw [hreached]
    exact fun _ h => nomatch h
  · rw [he]
    exact ⟨iff_of_false (fun ⟨_, h⟩ => nomatch h) fun h => hmissing (h id hneeded),
      fun fault h => ⟨id, hneeded, hmissing, (Except.error.inj h).symm⟩⟩

/-- **The exploration comes to an end and finds what the root depends on.** It follows the
rules to an end, within as many passes as there are receives and one more, and there is no
other end that the rules lead to. Where nothing is missing, the stages reached are those that
the root depends on; the check accepts exactly if these are all stages, and otherwise names
the one with the smallest id of those that are not among them. -/
theorem explores_needed (graph : StageGraph) :
    (∃ passes ≤ graph.receiveCount + 1,
        graph.Explores ∅ [graph.root] passes graph.reachable) ∧
      (∀ passes outcome, graph.Explores ∅ [graph.root] passes outcome →
        graph.reachable = outcome) ∧
      (graph.Gapless → ∃ reached, graph.reachable = .ok reached ∧
        (∀ id, id ∈ reached ↔ graph.Needed id) ∧
        (graph.checkReachability = .ok () ↔ ∀ id ∈ graph.stages, id ∈ reached) ∧
        ∀ fault, graph.checkReachability = .error fault ↔ ∃ id ∈ graph.stages, id ∉ reached ∧
          (∀ other ∈ graph.stages, other ∉ reached → id.number ≤ other.number) ∧
          fault = .structural (.unreachableStage id graph.root)) := by
  refine ⟨graph.exists_explores_reachable, fun _ _ run => reachable_eq_of_explores run,
    fun hgapless => ?_⟩
  obtain ⟨reached, hreached, hmem⟩ := reachable_eq_ok (gapless_iff.mp hgapless)
  exact ⟨reached, hreached, hmem, checkReachability_eq_ok_iff hreached,
    fun _ => checkReachability_eq_error_iff hreached⟩

/-- The circle, and beside it two stages that receive from one another, one of them twice, and
from which no stage of the circle receives. -/
def stranded : StageGraph :=
  let server := Server.onHost "server" 8421 8422
  let receive (node stage sender : Nat) : PlanTree :=
    ⟨Id.ofNat node, Id.ofNat stage, .receive ⟨Id.ofNat sender, .singleton⟩, []⟩
  let both (node stage left right : Nat) : PlanTree :=
    ⟨Id.ofNat node, Id.ofNat stage, .join .inner [],
      [receive (node + 1) stage left, receive (node + 2) stage right]⟩
  { circle with
    stages := [both 5 4 3 1, both 8 3 4 4].foldl (fun stages root =>
      stages.insert root.stage (lonePlanned root.stage server root)) circle.stages }

/-- The circle is gone round once, and the first of the two stages beside it is named. -/
theorem explores_needed_stranded : stranded.Gapless ∧
    ∃ reached, stranded.reachable = .ok reached ∧
      reached.toList = [Id.ofNat 0, Id.ofNat 1, Id.ofNat 2] ∧
      (∀ id, id ∈ reached ↔ stranded.Needed id) ∧
      stranded.checkReachability =
        .error (.structural (.unreachableStage (Id.ofNat 3) rootStageId)) := by
  have hsenders : ∀ entry ∈ stranded.stages.toList, ∀ sender ∈ entry.2.stage.senders,
      sender ∈ stranded.stages := by decide
  have hgapless : stranded.Gapless := by
    refine ⟨by decide, fun receiver sender _ ⟨planned, hplanned, hnode⟩ => ?_⟩
    exact hsenders (receiver, planned) (Std.ExtTreeMap.mem_toList_iff_getElem?_eq_some.mpr hplanned)
      sender ((receivesFrom_iff hplanned).mp ⟨planned, hplanned, hnode⟩)
  have hlist : (stranded.reachable.toOption.map (·.toList)) =
      some [Id.ofNat 0, Id.ofNat 1, Id.ofNat 2] := by rfl
  have hleast : ∀ other ∈ stranded.stages.keys,
      other ∉ [Id.ofNat 0, Id.ofNat 1, Id.ofNat 2] → (3 : UInt32) ≤ other.number := by decide
  obtain ⟨reached, hreached, hmem, -, hnamed⟩ := (explores_needed stranded).2.2 hgapless
  rw [hreached] at hlist
  have hlist : reached.toList = [Id.ofNat 0, Id.ofNat 1, Id.ofNat 2] := Option.some.inj hlist
  have hlisted (id : StageId) : id ∈ reached ↔ id ∈ [Id.ofNat 0, Id.ofNat 1, Id.ofNat 2] := by
    rw [← hlist, Std.ExtTreeSet.mem_toList]
  refine ⟨hgapless, reached, hreached, hlist, hmem, (hnamed _).mpr ⟨Id.ofNat 3, by decide,
    mt (hlisted _).mp (by decide), fun other hother hnew => ?_, rfl⟩⟩
  exact hleast other (Std.ExtTreeMap.mem_keys.mpr hother) (mt (hlisted other).mpr hnew)

end StageGraph

end StagedQuery
