import StagedQuery.Proofs.Explain.NodeByNode

/-!
# How an explanation reads

A line of an outline reads `[stage]@host:port|[worker] operator`, with the query port of the
server, and then tells what there is to tell of the node: the segments of a scan, the targets of a
send, or nothing (`StagedQuery.OutlineLine.Reads`). These lines are what the text of the outline is
made of (`StagedQuery.Outline.text_eq`).

**The text shows whether a line is expanded.** If it is not, what is told in it ends in a mark. What
is told in any other line does not: the segments of a scan end in a square bracket, and the targets
of a send end in a brace (`StagedQuery.LineDetail.Reads.marked_iff`).
-/

namespace StagedQuery

/-! ### What is told of a node -/

/-- Where rows are sent, word for word: between braces, the stage and the mailbox of each
target. -/
def sentText (targets : List (StageId × Mailbox)) : String :=
  "->\x7b" ++ ",".intercalate (targets.map fun (stage, mailbox) =>
    "[" ++ toString stage.number.toNat ++ "]@" ++ mailbox.hostname ++ ":" ++
      toString mailbox.port.toNat ++ "|[" ++ toString mailbox.worker.number.toNat ++ "]") ++ "\x7d"

/-- **What is told of a node** beyond its operator, word for word. -/
inductive LineDetail.Reads : LineDetail → String → Prop
  /-- Nothing is told. -/
  | plain : Reads .plain ""
  /-- The segments of a scan stand between square brackets. -/
  | segments (names : List String) :
    Reads (.segments names) (" [" ++ ", ".intercalate names ++ "]")
  /-- The targets of a send stand behind an arrow. -/
  | sends (targets : List (StageId × Mailbox)) : Reads (.sends targets) (sentText targets)
  /-- They are followed by a mark if the inputs of the send are not shown. -/
  | omitted (targets : List (StageId × Mailbox)) :
    Reads (.omitted targets) (sentText targets ++ " (Subtree Omitted)")

theorem targetsText_eq (targets : List (StageId × Mailbox)) :
    targetsText targets = sentText targets := by
  refine congrArg (fun texts => "->\x7b" ++ ",".intercalate texts ++ "\x7d") ?_
  refine List.map_congr_left fun target _ => ?_
  simp only [Mailbox.text, Id.text, String.append_assoc]

namespace LineDetail

theorem reads (detail : LineDetail) : detail.Reads detail.text := by
  cases detail with
  | plain => exact .plain
  | segments names =>
    have htext : (segments names).text = " [" ++ ", ".intercalate names ++ "]" := by
      rw [text, Text.bracketed, Text.listed, ← String.append_assoc, ← String.append_assoc]
      rfl
    rw [htext]
    exact .segments names
  | sends targets =>
    rw [text, targetsText_eq]
    exact .sends targets
  | omitted targets =>
    rw [text, targetsText_eq]
    exact .omitted targets

theorem getLast?_toList_append (front : String) {back : String} {c : Char}
    (h : back.toList.getLast? = some c) : (front ++ back).toList.getLast? = some c := by
  rw [String.toList_append, List.getLast?_append, h, Option.some_or]

/-- A text that does not end in a parenthesis does not end in the mark. -/
theorem not_marked {told : String} (h : told.toList.getLast? ≠ some ')') :
    ¬∃ front, told = front ++ " (Subtree Omitted)" := by
  rintro ⟨front, rfl⟩
  exact h (getLast?_toList_append front (by decide))

/-- **The mark tells a subtree that is left out** from all else that is told. -/
theorem Reads.marked_iff {detail : LineDetail} {told : String} (h : detail.Reads told) :
    (∃ front, told = front ++ " (Subtree Omitted)") ↔ ∃ targets, detail = .omitted targets := by
  cases h with
  | plain => exact iff_of_false (not_marked (by decide)) nofun
  | segments names =>
    refine iff_of_false (not_marked ?_) nofun
    rw [getLast?_toList_append _ (c := ']') (by decide)]
    decide
  | sends targets =>
    refine iff_of_false (not_marked ?_) nofun
    rw [sentText, getLast?_toList_append _ (c := '\x7d') (by decide)]
    decide
  | omitted targets => exact iff_of_true ⟨_, rfl⟩ ⟨targets, rfl⟩

end LineDetail

/-! ### Lines -/

namespace OutlineLine

/-- **How a line reads**: where its node is run and by which worker, the operator, and what is told
beyond it. -/
structure Reads (line : OutlineLine) (told : String) : Prop where
  /-- In front of the operator stand the stage, the host name and the query port of the server, and
  the worker. -/
  text : line.text = "[" ++ toString line.stage.number.toNat ++ "]@" ++ line.server.hostname ++
    ":" ++ toString line.server.queryPort.toNat ++ "|[" ++ toString line.worker.number.toNat ++
    "] " ++ line.operator ++ told
  /-- What stands behind it is told of the node. -/
  detail : line.detail.Reads told
  /-- That ends in the mark of a subtree which is left out exactly if the line is not expanded. -/
  marked : line.expanded = false ↔ ∃ front, told = front ++ " (Subtree Omitted)"

theorem reads (line : OutlineLine) : line.Reads line.detail.text := by
  refine ⟨?_, line.detail.reads, ?_⟩
  · have hgap : "] " = "]" ++ " " := rfl
    rw [text, place, Server.text, hgap]
    simp only [Id.text, String.append_assoc]
  · rw [line.detail.reads.marked_iff, expanded]
    cases line.detail with
    | omitted targets => exact iff_of_true rfl ⟨targets, rfl⟩
    | _ => exact iff_of_false nofun nofun

end OutlineLine

end StagedQuery
