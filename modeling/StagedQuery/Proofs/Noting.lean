import Mathlib.Data.List.Nodup
import Std.Data.ExtTreeSet
import StagedQuery.Proofs.Outcome

/-!
# Noting things one by one

A set that is filled from a list holds what the list holds (`StagedQuery.mem_noteAll`).

A walk that notes every id it meets in a set, and refuses an id that the set holds
already, gets through exactly if no id is met twice and none was noted before
(`StagedQuery.Fresh`). Where each item of a list is checked and its ids are noted,
the conditions on the items and on the ids come apart
(`StagedQuery.foldlM_noting`): the items may be checked one by one, and the ids
all at once.
-/

namespace StagedQuery

section

variable {α : Type} [Ord α] [Std.TransOrd α]

/-- The set with some ids added, one after the other. -/
def noteAll (seen : Std.ExtTreeSet α) (ids : List α) : Std.ExtTreeSet α :=
  ids.foldl (fun seen id => seen.insert id) seen

@[simp] theorem noteAll_nil (seen : Std.ExtTreeSet α) : noteAll seen [] = seen := rfl

@[simp] theorem noteAll_cons (seen : Std.ExtTreeSet α) (id : α)
    (ids : List α) : noteAll seen (id :: ids) = noteAll (seen.insert id) ids := rfl

theorem noteAll_append (seen : Std.ExtTreeSet α) (ids ids' : List α) :
    noteAll seen (ids ++ ids') = noteAll (noteAll seen ids) ids' :=
  List.foldl_append

/-- **No id occurs twice, and none has been seen.** -/
def Fresh (seen : Std.ExtTreeSet α) (ids : List α) : Prop :=
  ids.Nodup ∧ ∀ id ∈ ids, id ∉ seen

theorem fresh_nil (seen : Std.ExtTreeSet α) : Fresh seen [] :=
  ⟨.nil, fun _ h => nomatch h⟩

theorem fresh_singleton {seen : Std.ExtTreeSet α} {id : α} :
    Fresh seen [id] ↔ id ∉ seen :=
  ⟨fun h => h.2 id List.mem_cons_self,
    fun h => ⟨List.nodup_singleton id, fun _ h' => List.mem_singleton.mp h' ▸ h⟩⟩

/-- Ids are fresh at the start exactly if none occurs twice. -/
theorem fresh_empty {ids : List α} : Fresh ∅ ids ↔ ids.Nodup :=
  and_iff_left fun _ _ => Std.ExtTreeSet.not_mem_empty

variable [Std.LawfulEqOrd α]

theorem mem_noteAll {seen : Std.ExtTreeSet α} {ids : List α} {id : α} :
    id ∈ noteAll seen ids ↔ id ∈ seen ∨ id ∈ ids := by
  induction ids generalizing seen with
  | nil => exact (or_iff_left List.not_mem_nil).symm
  | cons other rest ih =>
    rw [noteAll_cons, ih, Std.ExtTreeSet.mem_insert, List.mem_cons,
      Std.LawfulEqCmp.compare_eq_iff_eq, or_assoc, or_left_comm, eq_comm (a := other)]

theorem mem_noteAll_empty {ids : List α} {id : α} : id ∈ noteAll ∅ ids ↔ id ∈ ids :=
  mem_noteAll.trans (or_iff_right Std.ExtTreeSet.not_mem_empty)

/-- Neither the order nor repetitions play a part. -/
theorem noteAll_congr (seen : Std.ExtTreeSet α) {ids ids' : List α}
    (h : ∀ id, id ∈ ids ↔ id ∈ ids') : noteAll seen ids = noteAll seen ids' :=
  Std.ExtTreeSet.ext_mem fun id => by rw [mem_noteAll, mem_noteAll, h]

/-- Two lists give the same set exactly if they hold the same ids. -/
theorem noteAll_empty_inj {ids ids' : List α} :
    noteAll ∅ ids = noteAll ∅ ids' ↔ ∀ id, id ∈ ids ↔ id ∈ ids' := by
  refine ⟨fun h id => ?_, noteAll_congr ∅⟩
  rw [← mem_noteAll_empty, h, mem_noteAll_empty]

/-- What is fresh stays so after some of it has been noted, and the rest is fresh
then. -/
theorem fresh_append {seen : Std.ExtTreeSet α} {ids ids' : List α} :
    Fresh seen (ids ++ ids') ↔ Fresh seen ids ∧ Fresh (noteAll seen ids) ids' := by
  simp only [Fresh, List.nodup_append', List.forall_mem_append, mem_noteAll, not_or]
  constructor
  · rintro ⟨⟨hn, hn', hd⟩, hs, hs'⟩
    exact ⟨⟨hn, hs⟩, hn', fun id h => ⟨hs' id h, fun hid => hd hid h⟩⟩
  · rintro ⟨⟨hn, hs⟩, hn', hs'⟩
    exact ⟨⟨hn, hn', fun id h h' => (hs' id h').2 h⟩, hs, fun id h => (hs' id h).1⟩

/-- **A walk that checks items and notes their ids.** If a step accepts an item
exactly if the item is right and its ids are fresh, then the walk accepts a list
exactly if all items are right and all their ids together are fresh. -/
theorem foldlM_noting {ε ι : Type}
    {step : Std.ExtTreeSet α → ι → Except ε (Std.ExtTreeSet α)} {Right : ι → Prop}
    {ids : ι → List α} {items : List ι}
    (hstep : ∀ a ∈ items, ∀ seen seen', step seen a = Except.ok seen' ↔
      Right a ∧ Fresh seen (ids a) ∧ seen' = noteAll seen (ids a))
    (seen seen' : Std.ExtTreeSet α) :
    items.foldlM step seen = Except.ok seen' ↔
      (∀ a ∈ items, Right a) ∧ Fresh seen (items.flatMap ids) ∧
        seen' = noteAll seen (items.flatMap ids) := by
  induction items generalizing seen with
  | nil =>
    rw [List.foldlM_nil, pure_eq_ok]
    exact ⟨fun h => ⟨fun _ h' => (nomatch h'), fresh_nil seen, h.symm⟩, fun h => h.2.2.symm⟩
  | cons a rest ih =>
    have ih := ih fun b hb => hstep b (List.mem_cons_of_mem a hb)
    rw [foldlM_cons_eq_ok, List.forall_mem_cons, List.flatMap_cons, fresh_append, noteAll_append]
    constructor
    · rintro ⟨next, hnext, hrest⟩
      -- the rest is walked with the ids of the first item noted
      obtain ⟨ha, hfresh, rfl⟩ := (hstep a List.mem_cons_self _ _).mp hnext
      obtain ⟨hall, hfresh', rfl⟩ := (ih _).mp hrest
      exact ⟨⟨ha, hall⟩, ⟨hfresh, hfresh'⟩, rfl⟩
    · rintro ⟨⟨ha, hall⟩, ⟨hfresh, hfresh'⟩, hend⟩
      exact ⟨_, (hstep a List.mem_cons_self _ _).mpr ⟨ha, hfresh, rfl⟩,
        (ih _).mpr ⟨hall, hfresh', hend⟩⟩

end

end StagedQuery
