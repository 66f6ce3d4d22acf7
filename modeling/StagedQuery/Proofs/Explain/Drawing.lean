import StagedQuery.Explain.Outline

/-!
# Where the parts of an outline are drawn

Every line of an outline has a part of the outline to itself: the line and what is below it
(`StagedQuery.Outline.parts`). Drawn from top to bottom, the lines are those of the parts in
this order (`StagedQuery.Outline.map_snd_draw`).

**A part is drawn in one piece.** The lines of a part stand one below the other, and what is
in front of each of them begins with the same segments, those of the ancestors of the part
(`StagedQuery.Outline.exists_drawnAs`). Without these segments the lines are those of the part
drawn on its own. How far to the right a line stands tells where the part ends: the lines
below its first one stand further to the right, and the line that follows it, if there is one,
does not.
-/

namespace StagedQuery

namespace Outline

/-! ### Parts -/

/-- Induction over outlines and lists of outlines together. -/
theorem pairInduction {P : Outline → Prop} {Q : List Outline → Prop}
    (node : ∀ line children, Q children → P ⟨line, children⟩)
    (nil : Q []) (cons : ∀ child rest, P child → Q rest → Q (child :: rest)) :
    (∀ outline, P outline) ∧ ∀ children, Q children :=
  ⟨@Outline.rec P Q node nil cons, @Outline.rec_1 P Q node nil cons⟩

mutual

/-- The parts of an outline from top to bottom: each line with what is below it. -/
def parts : Outline → List Outline
  | ⟨line, children⟩ => ⟨line, children⟩ :: partsList children

/-- The parts of several outlines. -/
def partsList : List Outline → List Outline
  | [] => []
  | child :: rest => parts child ++ partsList rest

end

theorem partsList_eq (children : List Outline) : partsList children = children.flatMap parts := by
  induction children with
  | nil => rfl
  | cons child rest ih => rw [partsList, ih, List.flatMap_cons]

theorem parts_mk (line : OutlineLine) (children : List Outline) :
    parts ⟨line, children⟩ = ⟨line, children⟩ :: children.flatMap parts := by
  rw [parts, partsList_eq]

/-! ### What is drawn in front of a line -/

/-- What joins a line to its parent. -/
def joint (last : Bool) : String := if last then corner else fork

/-- What is drawn of a line in front of those below it. -/
def trail (last : Bool) : String := if last then gap else bar

theorem length_joint (last : Bool) : (joint last).length = 4 := by
  cases last <;> decide

theorem length_trail (last : Bool) : (trail last).length = 4 := by
  cases last <;> decide

theorem drawFrom_mk (first margin : String) (line : OutlineLine) (children : List Outline) :
    drawFrom first margin ⟨line, children⟩ = (first, line) :: drawChildren margin children := by
  rw [drawFrom]

theorem drawChildren_cons (margin : String) (child : Outline) (rest : List Outline) :
    drawChildren margin (child :: rest) =
      drawFrom (margin ++ joint rest.isEmpty) (margin ++ trail rest.isEmpty) child ++
        drawChildren margin rest := by
  rw [drawChildren]
  cases rest.isEmpty <;> rfl

/-- The lines are drawn in the order of their parts. -/
theorem map_snd_drawFrom :
    (∀ (outline : Outline) (first margin : String),
      (outline.drawFrom first margin).map (·.2) = outline.parts.map (·.line)) ∧
    ∀ (children : List Outline) (margin : String),
      (drawChildren margin children).map (·.2) = (children.flatMap parts).map (·.line) := by
  refine pairInduction (fun line children ih first margin => ?_) (fun margin => ?_)
    fun child rest hchild hrest margin => ?_
  · rw [drawFrom_mk, parts_mk, List.map_cons, List.map_cons, ih]
  · rw [drawChildren]
    rfl
  · rw [drawChildren_cons, List.map_append, hchild, hrest, List.flatMap_cons, List.map_append]

theorem map_snd_draw (outline : Outline) :
    outline.draw.map (·.2) = outline.parts.map (·.line) :=
  map_snd_drawFrom.1 outline "" ""

/-- What is drawn in front of the first line stays in front of all lines. -/
theorem drawFrom_append :
    (∀ (outline : Outline) (front first margin : String),
      outline.drawFrom (front ++ first) (front ++ margin) =
        (outline.drawFrom first margin).map fun (lead, line) => (front ++ lead, line)) ∧
    ∀ (children : List Outline) (front margin : String),
      drawChildren (front ++ margin) children =
        (drawChildren margin children).map fun (lead, line) => (front ++ lead, line) := by
  refine pairInduction (fun line children ih front first margin => ?_) (fun front margin => ?_)
    fun child rest hchild hrest front margin => ?_
  · rw [drawFrom_mk, drawFrom_mk, List.map_cons, ih]
  · rw [drawChildren, drawChildren, List.map_nil]
  · rw [drawChildren_cons, drawChildren_cons, String.append_assoc, String.append_assoc, hchild,
      hrest, List.map_append]

/-- The lines of some outlines begin one segment further to the right. -/
theorem le_length_of_mem_drawFrom :
    (∀ (outline : Outline) (first margin : String), first.length = margin.length →
      ∀ entry ∈ outline.drawFrom first margin, margin.length ≤ entry.1.length) ∧
    ∀ (children : List Outline) (margin : String),
      ∀ entry ∈ drawChildren margin children, margin.length + 4 ≤ entry.1.length := by
  refine pairInduction (fun line children ih first margin hlength => ?_) (fun margin => ?_)
    fun child rest hchild hrest margin => ?_
  · rw [drawFrom_mk, List.forall_mem_cons]
    refine ⟨Nat.le_of_eq hlength.symm, fun entry hentry => ?_⟩
    have := ih margin entry hentry
    omega
  · rw [drawChildren]
    exact nofun
  · rw [drawChildren_cons, List.forall_mem_append]
    refine ⟨fun entry hentry => ?_, hrest margin⟩
    have := hchild (margin ++ joint rest.isEmpty) (margin ++ trail rest.isEmpty)
      (by rw [String.length_append, String.length_append, length_joint, length_trail]) entry hentry
    rwa [String.length_append, length_trail] at this

/-- The first line of some outlines begins exactly there. -/
theorem length_of_mem_head_drawChildren (children : List Outline) (margin : String) :
    ∀ entry ∈ (drawChildren margin children).head?, entry.1.length = margin.length + 4 := by
  cases children with
  | nil =>
    rw [drawChildren]
    exact nofun
  | cons child rest =>
    obtain ⟨line, children⟩ := child
    rw [drawChildren_cons, drawFrom_mk]
    rintro entry ⟨⟩
    rw [String.length_append, length_joint]

/-! ### Where a part is drawn -/

/-- The lines of a part stand one below the other among some lines, behind `indent`
characters each, and the line that follows them begins no further to the right. -/
def DrawnIn (part : Outline) (lines : List (String × OutlineLine)) (indent : Nat) : Prop :=
  ∃ before lead front after, lines = before ++ part.drawFrom lead front ++ after ∧
    lead.length = indent ∧ front.length = indent ∧ ∀ entry ∈ after.head?, entry.1.length ≤ indent

section

variable {part : Outline} {lines : List (String × OutlineLine)} {indent : Nat}

theorem DrawnIn.append_left (h : part.DrawnIn lines indent)
    (others : List (String × OutlineLine)) : part.DrawnIn (others ++ lines) indent := by
  obtain ⟨before, lead, front, after, rfl, hlengths⟩ := h
  refine ⟨others ++ before, lead, front, after, ?_, hlengths⟩
  rw [List.append_assoc, List.append_assoc, List.append_assoc]

theorem DrawnIn.append_right (h : part.DrawnIn lines indent)
    {others : List (String × OutlineLine)}
    (hothers : ∀ entry ∈ others.head?, entry.1.length ≤ indent) :
    part.DrawnIn (lines ++ others) indent := by
  obtain ⟨before, lead, front, after, rfl, hlead, hfront, hafter⟩ := h
  refine ⟨before, lead, front, after ++ others, List.append_assoc .., hlead, hfront, ?_⟩
  cases after with
  | nil => exact hothers
  | cons next after => exact hafter

/-- **A part is drawn in one piece**, as many segments further to the right as it is deep. -/
theorem exists_drawnIn :
    (∀ (whole : Outline), part ∈ whole.parts → ∀ first margin : String,
      first.length = margin.length → ∃ depth,
        part.DrawnIn (whole.drawFrom first margin) (margin.length + 4 * depth)) ∧
    ∀ (children : List Outline), part ∈ children.flatMap parts → ∀ margin : String,
      ∃ depth, part.DrawnIn (drawChildren margin children) (margin.length + 4 * (depth + 1)) := by
  refine pairInduction (fun line children ih hpart first margin hlength => ?_) nofun
    fun child rest hchild hrest hpart margin => ?_
  · rw [parts_mk, List.mem_cons] at hpart
    rcases hpart with rfl | hbelow
    · exact ⟨0, [], first, margin, [], (List.append_nil _).symm, hlength, rfl, nofun⟩
    · obtain ⟨depth, hdrawn⟩ := ih hbelow margin
      rw [drawFrom_mk]
      exact ⟨depth + 1, hdrawn.append_left [(first, line)]⟩
  · rw [List.flatMap_cons, List.mem_append] at hpart
    rw [drawChildren_cons]
    rcases hpart with hpart | hpart
    · have hjoint : (margin ++ joint rest.isEmpty).length = margin.length + 4 := by
        rw [String.length_append, length_joint]
      have htrail : (margin ++ trail rest.isEmpty).length = margin.length + 4 := by
        rw [String.length_append, length_trail]
      obtain ⟨depth, hdrawn⟩ := hchild hpart _ _ (hjoint.trans htrail.symm)
      rw [htrail, Nat.add_assoc, Nat.add_comm 4, ← Nat.mul_succ] at hdrawn
      -- what follows the part is still below the child, or it is the next child
      refine ⟨depth, hdrawn.append_right fun entry hentry => ?_⟩
      have := length_of_mem_head_drawChildren rest margin entry hentry
      omega
    · obtain ⟨depth, hdrawn⟩ := hrest hpart margin
      exact ⟨depth, hdrawn.append_left _⟩

end

/-! ### What is drawn as text -/

/-- A line as it is drawn. -/
def shown (drawn : String × OutlineLine) : String := drawn.1 ++ drawn.2.text

/-- **The text of an outline is made of its lines** from top to bottom, each ended by a line
break. -/
theorem text_eq (outline : Outline) :
    outline.text = String.join (outline.draw.map fun entry => shown entry ++ "\n") :=
  rfl

/-- A text without its first `count` characters. -/
def dropChars (count : Nat) (text : String) : String := String.ofList (text.toList.drop count)

theorem dropChars_append (front text : String) : dropChars front.length (front ++ text) = text := by
  rw [dropChars, String.toList_append, List.drop_left' String.length_toList, String.ofList_toList]

/-- **The lines of `part` are a block of those of `whole`**, which stands `depth` segments
further to the right; `first` is the first line of the block and `below` are the others. -/
structure DrawnAs (part whole : Outline) (depth : Nat) (before : List (String × OutlineLine))
    (first : String × OutlineLine) (below after : List (String × OutlineLine)) : Prop where
  /-- The block is in one piece. -/
  piece : whole.draw = before ++ first :: below ++ after
  /-- It begins with the line of the part. -/
  line : first.2 = part.line
  /-- That line stands behind as many segments as the part is deep. -/
  indented : first.1.length = 4 * depth
  /-- The lines below it stand further to the right. -/
  deeper : ∀ entry ∈ below, 4 * depth < entry.1.length
  /-- The line that follows the block does not. -/
  ends : ∀ entry ∈ after.head?, entry.1.length ≤ 4 * depth
  /-- Without the segments, the block is the part drawn on its own. -/
  rebased : part.draw.map shown =
    (first :: below).map fun entry => dropChars (4 * depth) (shown entry)

/-- The text of a part is made of the lines of its block, without the segments. -/
theorem DrawnAs.text_eq {part whole : Outline} {depth : Nat}
    {first : String × OutlineLine} {before below after : List (String × OutlineLine)}
    (h : part.DrawnAs whole depth before first below after) :
    part.text = String.join
      ((first :: below).map fun entry => dropChars (4 * depth) (shown entry) ++ "\n") := by
  have hlines := congrArg (List.map (· ++ "\n")) h.rebased
  rw [List.map_map, List.map_map] at hlines
  exact congrArg String.join hlines

/-- **Every part is drawn as a block of the whole.** -/
theorem exists_drawnAs {part whole : Outline} (h : part ∈ whole.parts) :
    ∃ depth before first below after, part.DrawnAs whole depth before first below after := by
  obtain ⟨depth, before, lead, front, after, hdrawn, hlead, hfront, hafter⟩ :=
    exists_drawnIn.1 whole h "" "" rfl
  rw [String.length_empty, Nat.zero_add] at hlead hfront hafter
  obtain ⟨line, children⟩ := part
  rw [drawFrom_mk] at hdrawn
  refine ⟨depth, before, (lead, line), drawChildren front children, after, hdrawn, rfl, hlead,
    fun entry hentry => ?_, hafter, ?_⟩
  · have := le_length_of_mem_drawFrom.2 children front entry hentry
    omega
  · have hbelow : drawChildren front children =
        (drawChildren "" children).map fun (lead, line) => (front ++ lead, line) := by
      rw [← drawFrom_append.2, String.append_empty]
    rw [draw, drawFrom_mk, List.map_cons, List.map_cons, hbelow, List.map_map]
    refine List.cons_eq_cons.mpr ⟨?_, List.map_congr_left fun entry _ => ?_⟩
    · rw [shown, shown, ← hlead, dropChars_append, String.empty_append]
    · dsimp only [Function.comp, shown]
      rw [← hfront, String.append_assoc, dropChars_append]

end Outline

end StagedQuery
