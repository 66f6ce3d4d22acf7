import Mathlib.Algebra.GroupWithZero.Nat
import Mathlib.Data.Fintype.EquivFin
import Mathlib.Data.List.Nodup
import StagedQuery.Id
import StagedQuery.Proofs.Keyed

/-!
# Ids and the numbers they are made from

Ids are handed out by counting, and a count that stays below `2 ^ 32` gives different
ids in ascending order; one that begins higher up still gives different ids, `2 ^ 32` of them
in a row. This is the only use that is made of how large an id is, but for this: there are
`2 ^ 32` ids of a kind and no more, so different ids are no more than that.
-/

namespace StagedQuery

namespace Id

variable {what : Named}

theorem isLE_compare {a b : Id what} : (compare a b).isLE = true ↔ a.number ≤ b.number := by
  rw [compare_eq]
  exact Std.isLE_compare

theorem compare_ofNat {m n : Nat} (hmn : m < n) (hn : n < 2 ^ 32) :
    compare (ofNat m : Id what) (ofNat n) = .lt := by
  have hm : m < UInt32.size := Nat.lt_trans hmn hn
  rw [compare_eq, ofNat, ofNat, Std.compare_eq_lt, UInt32.lt_iff_toNat_lt,
    UInt32.toNat_ofNat_of_lt' hm, UInt32.toNat_ofNat_of_lt' hn]
  exact hmn

theorem toNat_ofNat {n : Nat} (h : n < 2 ^ 32) : (ofNat n : Id what).number.toNat = n :=
  UInt32.toNat_ofNat_of_lt' h

theorem ofNat_inj {m n : Nat} (hm : m < 2 ^ 32) (hn : n < 2 ^ 32) :
    (ofNat m : Id what) = ofNat n ↔ m = n := by
  refine ⟨fun h => ?_, congrArg ofNat⟩
  have hnat := congrArg (fun i : Id what => i.number.toNat) h
  rwa [toNat_ofNat hm, toNat_ofNat hn] at hnat

/-- Ids with consecutive numbers ascend. -/
theorem pairwise_map_ofNat {first count : Nat} (h : first + count ≤ 2 ^ 32) :
    ((List.range' first count).map (ofNat : Nat → Id what)).Pairwise
      fun a b => compare a b = .lt := by
  refine List.pairwise_map.mpr (List.Pairwise.imp_of_mem ?_ List.pairwise_lt_range')
  intro m n _ hn hmn
  have := (List.mem_range'_1.mp hn).2
  exact compare_ofNat hmn (by omega)

/-- Ids with consecutive numbers are different, as long as they are no more than there are
numbers, wherever they begin. -/
theorem nodup_map_ofNat {first count : Nat} (h : count ≤ 2 ^ 32) :
    ((List.range' first count).map (ofNat : Nat → Id what)).Nodup := by
  refine List.Nodup.map_on (fun m hm n hn heq => ?_) List.nodup_range'
  have hm := List.mem_range'_1.mp hm
  have hn := List.mem_range'_1.mp hn
  have hmod : m % 2 ^ 32 = n % 2 ^ 32 := congrArg (fun i : Id what => i.number.toNat) heq
  omega

/-- The numbers of ids that were handed out one after the other. -/
theorem map_toNat_map_ofNat {first count : Nat} (h : first + count ≤ 2 ^ 32) :
    ((List.range' first count).map (ofNat : Nat → Id what)).map (·.number.toNat) =
      List.range' first count := by
  rw [List.map_map]
  refine (List.map_congr_left fun n hn => ?_).trans (List.map_id _)
  have := (List.mem_range'_1.mp hn).2
  exact toNat_ofNat (by omega)

/-! ### There are finitely many ids -/

theorem ofNat_toNat (i : Id what) : ofNat i.number.toNat = i := by
  rw [ofNat, UInt32.ofNat_toNat]

theorem toNat_injective : Function.Injective fun i : Id what => i.number.toFin := by
  intro a b hab
  rw [← ofNat_toNat a, ← ofNat_toNat b]
  exact congrArg ofNat (Fin.val_eq_of_eq hab)

instance : Finite (Id what) := Finite.of_injective _ toNat_injective

/-- Different ids are no more than there are numbers for. -/
theorem length_le_of_nodup {ids : List (Id what)} (h : ids.Nodup) : ids.length ≤ 2 ^ 32 := by
  have hcard := (h.map toNat_injective).length_le_card
  rwa [List.length_map, Fintype.card_fin] at hcard

end Id

end StagedQuery
