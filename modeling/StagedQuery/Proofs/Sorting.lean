import Mathlib.Data.List.Forall2
import Std.Data.ExtTreeMap
import StagedQuery.Sorting

/-!
# Sorted lists

`StagedQuery.isSortedBy` looks at neighbours only; since the order of keys is
transitive, a list passes it exactly if any item comes at or after any item in
front of it (`StagedQuery.isSortedBy_iff`). What `StagedQuery.sortBy` makes is
sorted in this sense, and is not changed by sorting it again. Where an item goes
depends on keys only, so two lists with the same keys are sorted alike
(`StagedQuery.forall₂_sortBy`).
-/

namespace StagedQuery

section

variable {α κ : Type} [Ord κ] [Std.TransOrd κ] {key : α → κ}

/-- **A list is in order exactly if no item comes before an item in front of
it.** -/
theorem isSortedBy_iff {items : List α} :
    isSortedBy key items = true ↔
      items.Pairwise fun a b => (compare (key a) (key b)).isLE = true := by
  induction items with
  | nil => exact iff_of_true rfl .nil
  | cons a rest ih =>
    cases rest with
    | nil => exact iff_of_true rfl (List.pairwise_singleton _ _)
    | cons b rest =>
      rw [isSortedBy, Bool.and_eq_true, ih, List.pairwise_cons (a := a)]
      refine ⟨fun ⟨hab, h⟩ => ⟨fun c hc => ?_, h⟩, fun ⟨hab, h⟩ => ⟨hab b List.mem_cons_self, h⟩⟩
      rcases List.mem_cons.mp hc with rfl | hc
      · exact hab
      · exact Std.TransCmp.isLE_trans hab ((List.pairwise_cons.mp h).1 c hc)

/-- Inserting an item in its place keeps a list in order. -/
theorem pairwise_insertBy {item : α} {items : List α}
    (h : items.Pairwise fun a b => (compare (key a) (key b)).isLE = true) :
    (insertBy key item items).Pairwise fun a b => (compare (key a) (key b)).isLE = true := by
  induction items with
  | nil => exact List.pairwise_singleton _ _
  | cons next rest ih =>
    obtain ⟨hnext, hrest⟩ := List.pairwise_cons.mp h
    rw [insertBy]
    split
    case isTrue hle =>
      refine List.pairwise_cons.mpr ⟨fun c hc => ?_, h⟩
      rcases List.mem_cons.mp hc with rfl | hc
      · exact hle
      · exact Std.TransCmp.isLE_trans hle (hnext c hc)
    case isFalse hgt =>
      -- the item goes in further back, and `next` is below it
      refine List.pairwise_cons.mpr ⟨fun c hc => ?_, ih hrest⟩
      rcases List.mem_cons.mp ((insertBy_perm key item rest).mem_iff.mp hc) with rfl | hc
      · rw [Bool.not_eq_true, Ordering.isLE_eq_false] at hgt
        exact (Std.OrientedCmp.gt_iff_lt.mp hgt) ▸ rfl
      · exact hnext c hc

/-- **What sorting makes is in order.** -/
theorem pairwise_sortBy (items : List α) :
    (sortBy key items).Pairwise fun a b => (compare (key a) (key b)).isLE = true := by
  induction items with
  | nil => exact .nil
  | cons item rest ih => exact pairwise_insertBy ih

end

/-! ### Two lists side by side -/

section

variable {α β κ : Type} [Ord κ] {R : α → β → Prop} {key : α → κ} {key' : β → κ}

/-- Items with equal keys are inserted at the same place. -/
theorem forall₂_insertBy (hkey : ∀ a b, R a b → key a = key' b) {a : α} {b : β} (hab : R a b)
    {xs : List α} {ys : List β} (h : List.Forall₂ R xs ys) :
    List.Forall₂ R (insertBy key a xs) (insertBy key' b ys) := by
  induction h with
  | nil => exact .cons hab .nil
  | cons hnext hrest ih =>
    rw [insertBy, insertBy, hkey _ _ hab, hkey _ _ hnext]
    split_ifs
    · exact .cons hab (.cons hnext hrest)
    · exact .cons hnext ih

/-- Items with equal keys are sorted alike. -/
theorem forall₂_sortBy (hkey : ∀ a b, R a b → key a = key' b) {xs : List α} {ys : List β}
    (h : List.Forall₂ R xs ys) : List.Forall₂ R (sortBy key xs) (sortBy key' ys) := by
  induction h with
  | nil => exact .nil
  | cons hab _ ih => exact forall₂_insertBy hkey hab ih

end

end StagedQuery
