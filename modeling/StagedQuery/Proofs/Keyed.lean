import Mathlib.Data.List.Nodup
import Std.Data.ExtTreeMap

/-!
# Maps that are filled from lists

The planner fills its maps entry by entry, one for each stage, worker or server. Where
the keys of the entries are distinct, the order in which they are inserted plays no part:
the map holds the entries of the list and nothing else
(`StagedQuery.getElem?_insertMany_eq_some`), and read out again they stand in the order of
their keys (`StagedQuery.toList_insertMany_empty`).
-/

namespace StagedQuery

section

variable {κ β : Type} [Ord κ] [Std.TransOrd κ]

theorem ne_of_compare_lt {a b : κ} (h : compare a b = .lt) : a ≠ b := fun hab => by
  rw [hab] at h
  exact Std.OrientedCmp.not_lt_of_lt h h

theorem mem_iff_exists_entry {map : Std.ExtTreeMap κ β} {k : κ} :
    k ∈ map ↔ ∃ v, map[k]? = some v := by
  rw [Std.ExtTreeMap.mem_iff_isSome_getElem?, Option.isSome_iff_exists]

variable [Std.LawfulEqOrd κ]

/-- Reading a key after an entry has been inserted. -/
theorem getElem?_insert_eq_some {map : Std.ExtTreeMap κ β} {k k' : κ} {v v' : β} :
    (map.insert k v)[k']? = some v' ↔ k = k' ∧ v = v' ∨ k ≠ k' ∧ map[k']? = some v' := by
  rw [Std.ExtTreeMap.getElem?_insert]
  split_ifs with h
  · obtain rfl := Std.LawfulEqOrd.eq_of_compare h
    simp
  · rw [Std.LawfulEqCmp.compare_eq_iff_eq] at h
    simp [h]

/-- Reading a key after another has been taken out. -/
theorem getElem?_erase_eq_some {map : Std.ExtTreeMap κ β} {k k' : κ} {v : β} :
    (map.erase k)[k']? = some v ↔ k ≠ k' ∧ map[k']? = some v := by
  rw [Std.ExtTreeMap.getElem?_erase]
  split_ifs with h
  · rw [Std.LawfulEqCmp.compare_eq_iff_eq] at h
    simp [h]
  · rw [Std.LawfulEqCmp.compare_eq_iff_eq] at h
    simp [h]

/-- Taking some keys out, one after the other. -/
theorem mem_foldl_erase {keys : List κ} {map : Std.ExtTreeMap κ β} {k : κ} :
    k ∈ keys.foldl (fun map key => map.erase key) map ↔ k ∈ map ∧ k ∉ keys := by
  induction keys generalizing map with
  | nil => simp
  | cons key rest ih =>
    rw [List.foldl_cons, ih, Std.ExtTreeMap.mem_erase, ne_eq, Std.LawfulEqCmp.compare_eq_iff_eq,
      List.mem_cons, not_or, eq_comm (a := k)]
    exact ⟨fun ⟨⟨hne, hmap⟩, hrest⟩ => ⟨hmap, hne, hrest⟩,
      fun ⟨hmap, hne, hrest⟩ => ⟨⟨hne, hmap⟩, hrest⟩⟩

/-- **What a map holds that is filled from a list** with distinct keys: the entries of
the list, and those of before whose keys are not in the list. -/
theorem getElem?_insertMany_eq_some {entries : List (κ × β)} {map : Std.ExtTreeMap κ β} {k : κ}
    {v : β} (distinct : (entries.map (·.1)).Nodup) :
    (map.insertMany entries)[k]? = some v ↔
      (k, v) ∈ entries ∨ k ∉ entries.map (·.1) ∧ map[k]? = some v := by
  induction entries generalizing map with
  | nil => simp
  | cons entry rest ih =>
    obtain ⟨k', v'⟩ := entry
    obtain ⟨hnew, hrest⟩ := List.nodup_cons.mp distinct
    rw [Std.ExtTreeMap.insertMany_cons, ih hrest, getElem?_insert_eq_some, List.mem_cons,
      List.map_cons, List.mem_cons, Prod.mk.injEq]
    -- the first entry is not overwritten later, since its key does not come again
    constructor
    · rintro (hin | ⟨hout, ⟨rfl, rfl⟩ | ⟨hne, hmap⟩⟩)
      · exact .inl (.inr hin)
      · exact .inl (.inl ⟨rfl, rfl⟩)
      · exact .inr ⟨fun h => h.elim (fun h => hne h.symm) hout, hmap⟩
    · rintro ((⟨rfl, rfl⟩ | hin) | ⟨hout, hmap⟩)
      · exact .inr ⟨hnew, .inl ⟨rfl, rfl⟩⟩
      · exact .inl hin
      · exact .inr ⟨fun h => hout (.inr h), .inr ⟨fun h => hout (.inl h.symm), hmap⟩⟩

theorem mem_insertMany_empty {entries : List (κ × β)} {k : κ} {v : β}
    (distinct : (entries.map (·.1)).Nodup) :
    ((∅ : Std.ExtTreeMap κ β).insertMany entries)[k]? = some v ↔ (k, v) ∈ entries := by
  rw [getElem?_insertMany_eq_some distinct, Std.ExtTreeMap.getElem?_empty]
  exact or_iff_left fun h => nomatch h.2

/-- **Read out again**, the entries stand in the order of their keys. -/
theorem toList_insertMany_empty {entries sorted : List (κ × β)} (perm : entries.Perm sorted)
    (ascending : sorted.Pairwise fun a b => compare a.1 b.1 = .lt) :
    ((∅ : Std.ExtTreeMap κ β).insertMany entries).toList = sorted := by
  have hsorted : (sorted.map (·.1)).Nodup := List.pairwise_map.mpr (ascending.imp ne_of_compare_lt)
  have hentries : (entries.map (·.1)).Nodup := (perm.map _).nodup_iff.mpr hsorted
  have hlist := Std.ExtTreeMap.ordered_keys_toList
    (t := (∅ : Std.ExtTreeMap κ β).insertMany entries)
  -- both lists ascend by key, so they are equal once they have the same members
  refine List.Perm.eq_of_pairwise (fun a b _ _ hab hba => ?_) hlist ascending ?_
  · exact absurd hba (Std.OrientedCmp.not_lt_of_lt hab)
  · rw [List.perm_ext_iff_of_nodup (hlist.imp fun h hab => ne_of_compare_lt h (congrArg _ hab))
      (List.Nodup.of_map _ hsorted)]
    rintro ⟨k, v⟩
    rw [Std.ExtTreeMap.mem_toList_iff_getElem?_eq_some, mem_insertMany_empty hentries,
      perm.mem_iff]

end

end StagedQuery
