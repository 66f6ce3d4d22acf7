import StagedQuery.Plan.Build
import StagedQuery.Proofs.Stage.Fragments

/-!
# Queries that cannot be cut

A query is refused exactly if one of its nodes is at fault, wherever it lies, and it is told
of the first such node in pre-order (`StagedQuery.toStages_refuses_first`). A node is at fault in
two ways (`StagedQuery.PlanTree.Refused`), and the number of its inputs is looked at first:
a send without inputs is told of its inputs, not of the border that it belongs to.

The walk that cuts a tree goes down into each exchange before it goes on to the right of it.
That this comes to pre-order over the whole tree is `StagedQuery.PlanTree.cut_eq`; what is left
to say is when the check of one node fails, and with what.
-/

namespace StagedQuery

namespace PlanTree

variable {node root : PlanTree} {fault : PlanError}

/-! ### One node -/

/-- **A node that cannot be cut**, and what is said of it. -/
inductive Refused (node : PlanTree) : PlanError → Prop
  /-- It has a number of inputs that its operator does not take, and it is named by the ids
  that it came with. -/
  | miscounted (count : node.operator.arity.admits node.inputs.length = false) :
      Refused node (.structural (.wrongInputCount node.operator.name node.id node.stage
        node.inputs.length))
  /-- It has the inputs that its operator takes, and is an end of a border that has been cut
  already. -/
  | alreadyCut (count : node.operator.arity.admits node.inputs.length = true)
      (cut : node.operator.isBorderEnd = true) : Refused node (.planning .alreadyCut)

theorem checkInputCount_eq_error : node.checkInputCount = .error fault ↔
    node.operator.arity.admits node.inputs.length = false ∧
      fault = .structural (.wrongInputCount node.operator.name node.id node.stage
        node.inputs.length) := by
  rw [checkInputCount]
  split_ifs with h
  · constructor
    · intro herror
      cases herror
    · rintro ⟨hcount, -⟩
      rw [h] at hcount
      cases hcount
  · rw [Bool.not_eq_true] at h
    exact ⟨fun heq => ⟨h, (Except.error.inj heq).symm⟩, fun heq => congrArg _ heq.2.symm⟩

/-- The check of a node fails exactly with what is said of it. -/
theorem checkCut_eq_error_iff : node.checkCut = .error fault ↔ node.Refused fault := by
  constructor
  · intro h
    rcases checkCut_eq_error h with hcount | rfl
    · obtain ⟨hadmits, rfl⟩ := checkInputCount_eq_error.mp hcount
      exact .miscounted hadmits
    · -- the check of the inputs never complains of a border, so it has been passed
      have hcount : node.operator.arity.admits node.inputs.length = true := by
        by_contra hcount
        rw [Bool.not_eq_true] at hcount
        rw [checkCut, checkInputCount_eq_error.mpr ⟨hcount, rfl⟩] at h
        cases h
      refine .alreadyCut hcount ?_
      by_contra hcut
      rw [checkCut_eq_ok.mpr ⟨hcount, Bool.eq_false_iff.mpr hcut⟩] at h
      cases h
  · intro h
    cases h with
    | miscounted hcount =>
      rw [checkCut, checkInputCount_eq_error.mpr ⟨hcount, rfl⟩]
    | alreadyCut hcount hcut =>
      rw [checkCut, checkInputCount_eq_ok.mpr hcount]
      exact if_pos hcut

/-- A node is refused exactly if it cannot be cut. -/
theorem exists_refused_iff : (∃ fault, node.Refused fault) ↔
    node.operator.arity.admits node.inputs.length = false ∨
      node.operator.isBorderEnd = true := by
  constructor
  · rintro ⟨_, hcount | ⟨-, hcut⟩⟩
    · exact .inl hcount
    · exact .inr hcut
  · intro h
    cases hcount : node.operator.arity.admits node.inputs.length with
    | false => exact ⟨_, .miscounted hcount⟩
    | true =>
      rw [hcount] at h
      exact ⟨_, .alreadyCut hcount (h.resolve_left Bool.noConfusion)⟩

/-- An exchange that passes the check of its inputs has one input, so a border is never cut
above nothing. -/
theorem exists_input_of_isExchange (hexchange : node.operator.isExchange = true)
    (hcount : node.checkInputCount = .ok ()) : ∃ input, node.inputs = [input] := by
  have hone : node.operator.arity = .one := by
    cases hop : node.operator with
    | exchange distribution keys => rfl
    | _ =>
      rw [hop] at hexchange
      cases hexchange
  have hlength := checkInputCount_eq_ok.mp hcount
  rw [hone, Arity.admits, decide_eq_true_eq] at hlength
  exact List.length_eq_one_iff.mp hlength

end PlanTree

/-! ### A query -/

theorem toStages_eq_error_iff {root : PlanTree} {fault : PlanError} :
    toStages root = .error fault ↔ ∃ before node after, root.nodes = before ++ node :: after ∧
      (∀ earlier ∈ before, earlier.Cuttable) ∧ node.Refused fault := by
  rw [toStages_eq_recorded, map_eq_error]
  refine forM_eq_error.trans ?_
  simp only [PlanTree.checkCut_eq_ok, PlanTree.checkCut_eq_error_iff]

/-- **Cutting a query refuses the first fault.** A query cannot be cut exactly if one of its
nodes, below an exchange or not, has a number of inputs that its operator does not take or is
a send or a receive. What is said is said of the first such node in pre-order: that the number
of its inputs is wrong, with the ids that it came with, and only where the number is right that
the query has been cut already. Nothing else is ever said, since an exchange that passes the
check of its inputs has one. -/
theorem toStages_refuses_first (root : PlanTree) :
    ((∃ fault, toStages root = .error fault) ↔
      ∃ node ∈ root.nodes, node.operator.arity.admits node.inputs.length = false ∨
        node.operator.isBorderEnd = true) ∧
    (∀ fault, toStages root = .error fault ↔ ∃ before node after,
      root.nodes = before ++ node :: after ∧ (∀ earlier ∈ before, earlier.Cuttable) ∧
      node.Refused fault) ∧
    ∀ node ∈ root.nodes, node.operator.isExchange = true → node.checkInputCount = .ok () →
      ∃ input, node.inputs = [input] := by
  refine ⟨⟨?_, ?_⟩, fun fault => toStages_eq_error_iff,
    fun node _ => PlanTree.exists_input_of_isExchange⟩
  · rintro ⟨fault, h⟩
    obtain ⟨before, node, after, hnodes, -, hfault⟩ := toStages_eq_error_iff.mp h
    exact ⟨node, hnodes ▸ List.mem_append_right _ List.mem_cons_self,
      PlanTree.exists_refused_iff.mp ⟨fault, hfault⟩⟩
  · -- were the query cut, each of its nodes would have passed
    rintro ⟨node, hnode, hfault⟩
    obtain ⟨fault, hfault⟩ := PlanTree.exists_refused_iff.mpr hfault
    cases hcut : toStages root with
    | error other => exact ⟨other, rfl⟩
    | ok stages =>
      rw [toStages_eq_recorded, map_eq_ok] at hcut
      obtain ⟨⟨⟩, hpassed, -⟩ := hcut
      have hpass := forM_eq_ok.mp hpassed node hnode
      rw [PlanTree.checkCut_eq_error_iff.mpr hfault] at hpass
      exact nomatch hpass

/-- A filter without inputs, below an exchange, comes before a receive to the right of the
exchange. -/
example : toStages (.join .inner []
      (.exchange .hash [] ⟨Id.ofNat 7, Id.ofNat 3, .filter "c", []⟩)
      ⟨Id.ofNat 0, Id.ofNat 0, .receive ⟨Id.ofNat 1, .hash⟩, []⟩) =
    .error (.structural (.wrongInputCount "Filter" (Id.ofNat 7) (Id.ofNat 3) 0)) := by
  rfl

end StagedQuery
