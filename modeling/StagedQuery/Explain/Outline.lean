import StagedQuery.Mailbox
import StagedQuery.Text.Quoted

/-!
# Outlines and how they are drawn

An explained plan is an outline: a tree of lines, each of which says what one
worker does at one node (`StagedQuery.OutlineLine`). What the lines are and how
the tree is drawn are kept apart; this file holds the lines, their text and the
drawing.

A line at depth `d` is drawn behind `d` segments of four characters. The last
one joins the line to its parent – a fork `├── ` if a sibling follows, a corner
`└── ` if none does – and each segment in front of it carries on the line of an
ancestor, `│   ` if a sibling of that ancestor follows and blank if none does
(`StagedQuery.Outline.draw`).
-/

namespace StagedQuery

/-! ### Lines -/

/-- What a line says beyond the text of its operator. -/
inductive LineDetail where
  /-- Nothing. -/
  | plain
  /-- The segments that a scan reads. -/
  | segments (names : List String)
  /-- The mailboxes that a send delivers to, each with its stage. -/
  | sends (targets : List (StageId × Mailbox))
  /-- The same for a send whose inputs are not shown. -/
  | omitted (targets : List (StageId × Mailbox))
  deriving DecidableEq

/-- What one worker does at one node of a plan. -/
structure OutlineLine where
  /-- The node. -/
  node : NodeId
  /-- The stage that the node belongs to. -/
  stage : StageId
  /-- The server that runs it. -/
  server : Server
  /-- The worker that runs it. -/
  worker : WorkerId
  /-- The text of the node's operator. -/
  operator : String
  /-- What is said beyond it. -/
  detail : LineDetail
  deriving DecidableEq

/-- The targets of a send between braces. -/
def targetsText (targets : List (StageId × Mailbox)) : String :=
  let target := fun (stage, mailbox) => "[" ++ Id.text stage ++ "]@" ++ Mailbox.text mailbox
  "->\x7b" ++ ",".intercalate (targets.map target) ++ "\x7d"

/-- The text of a detail. -/
def LineDetail.text : LineDetail → String
  | .plain => ""
  | .segments names => " " ++ Text.bracketed names
  | .sends targets => targetsText targets
  | .omitted targets => targetsText targets ++ " (Subtree Omitted)"

/-- Where a line runs: its stage, the server with its query port, and the
worker. -/
def OutlineLine.place (line : OutlineLine) : String :=
  "[" ++ line.stage.text ++ "]@" ++ line.server.text ++ "|[" ++ line.worker.text ++ "]"

/-- The text of a line. -/
def OutlineLine.text (line : OutlineLine) : String :=
  line.place ++ " " ++ line.operator ++ line.detail.text

/-! ### Trees of lines -/

/-- A line with the lines below it. -/
structure Outline where
  /-- The line. -/
  line : OutlineLine
  /-- What is below it, in order. -/
  children : List Outline

namespace Outline

/-- The line of an ancestor that has a sibling to come. -/
def bar : String := "│   "

/-- The space below an ancestor that has no sibling to come. -/
def gap : String := "    "

/-- What joins a line to its parent if a sibling follows. -/
def fork : String := "├── "

/-- What joins a line to its parent if no sibling follows. -/
def corner : String := "└── "

mutual

/-- The lines of an outline from top to bottom, each behind what is drawn in
front of it: `first` for the outline's own line, and at least `margin` for those
below it. -/
def drawFrom (first margin : String) : Outline → List (String × OutlineLine)
  | ⟨line, children⟩ => (first, line) :: drawChildren margin children

/-- The lines of the outlines below one line. -/
def drawChildren (margin : String) : List Outline → List (String × OutlineLine)
  | [] => []
  | child :: rest =>
    (if rest.isEmpty then drawFrom (margin ++ corner) (margin ++ gap) child
      else drawFrom (margin ++ fork) (margin ++ bar) child) ++ drawChildren margin rest

end

/-- **The lines of an outline** from top to bottom, each with what is drawn in
front of it. -/
def draw (outline : Outline) : List (String × OutlineLine) := outline.drawFrom "" ""

/-- The outline as text, every line ended by a line break. -/
def text (outline : Outline) : String :=
  String.join (outline.draw.map fun (lead, line) => lead ++ line.text ++ "\n")

end Outline

end StagedQuery
