import Mathlib.Data.List.Basic
import StagedQuery.Assignment

/-!
# What an assignment says

An assignment that was read from a file may list a server more than once, and the
same worker on several servers. This file says what the questions of
`StagedQuery.Assignment` answer then: the workers are those of all entries in the
order of the entries (`StagedQuery.Assignment.workers_eq`), and the host of a worker
is the server of the first entry that lists it
(`StagedQuery.Assignment.host?_eq_some`).
-/

namespace StagedQuery

namespace Assignment

variable {assignment : Assignment}

theorem workers_eq (assignment : Assignment) :
    assignment.workers = assignment.servers.flatMap (·.workers) := by
  rw [workers, destinations, destinationsOf, List.map_flatMap]
  refine List.flatMap_congr fun hosting _ => ?_
  rw [List.map_map]
  exact List.map_id _

theorem size_eq (assignment : Assignment) : assignment.size = assignment.workers.length :=
  List.length_map _ |>.symm

/-- An assignment is empty exactly if it lists no worker. -/
theorem isEmpty_eq_true : assignment.isEmpty = true ↔ assignment.workers = [] := by
  rw [isEmpty, List.all_eq_true, workers_eq, List.flatMap_eq_nil_iff]
  exact forall₂_congr fun _ _ => List.isEmpty_iff

/-- The server of the first entry that lists a worker. -/
def FirstHost (assignment : Assignment) (worker : WorkerId) (server : Server) : Prop :=
  ∃ before hosting after, assignment.servers = before ++ hosting :: after ∧
    (∀ other ∈ before, worker ∉ other.workers) ∧ worker ∈ hosting.workers ∧
    hosting.server = server

theorem host?_eq_some {worker : WorkerId} {server : Server} :
    assignment.host? worker = some server ↔ assignment.FirstHost worker server := by
  simp only [host?, Option.map_eq_some_iff, List.find?_eq_some_iff_append,
    Bool.not_eq_true', List.contains_eq_mem, decide_eq_false_iff_not,
    decide_eq_true_eq]
  constructor
  · rintro ⟨hosting, ⟨hmem, before, after, hlist, hbefore⟩, hserver⟩
    exact ⟨before, hosting, after, hlist, hbefore, hmem, hserver⟩
  · rintro ⟨before, hosting, after, hlist, hbefore, hmem, hserver⟩
    exact ⟨hosting, ⟨hmem, before, after, hlist, hbefore⟩, hserver⟩

end Assignment

end StagedQuery
