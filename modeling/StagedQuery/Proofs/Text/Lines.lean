import StagedQuery.Proofs.Json.Literal
import StagedQuery.Text.Quoted

/-!
# Lines

A text made of lines, each ended by a line break (`StagedQuery.Text.ofLines`), and the lines of a
text (`StagedQuery.Text.lines`). Splitting gives back the lines a text was made of, provided that
none of them holds a line break itself (`StagedQuery.Text.lines_ofLines`).

What is shown of strings, lists and pairs between quotes holds no line break, whatever the strings
are (`StagedQuery.Text.oneLine_quoted`): a line break is escaped, and the escapes of all other
characters are made of letters, digits, backslashes and braces.
-/

namespace StagedQuery

namespace Text

/-- The text with each of the lines ended by a line break. -/
def ofLines (lines : List String) : String := String.join (lines.map (· ++ "\n"))

/-- The lines of a text, which are the parts that a line break ends. -/
def lines (text : String) : List String :=
  ((text.toList.splitOn '\n').dropLast).map String.ofList

/-- A text without line breaks. -/
def OneLine (text : String) : Prop := '\n' ∉ text.toList

instance (text : String) : Decidable (OneLine text) :=
  inferInstanceAs (Decidable ('\n' ∉ text.toList))

/-! ### Making lines and splitting -/

@[simp] theorem ofLines_nil : ofLines [] = "" := String.join_nil

theorem ofLines_append (lines more : List String) :
    ofLines (lines ++ more) = ofLines lines ++ ofLines more := by
  rw [ofLines, List.map_append, String.join_append, ofLines, ofLines]

theorem ofLines_flatMap {α : Type} (items : List α) (lines : α → List String) :
    ofLines (items.flatMap lines) = String.join (items.map fun item => ofLines (lines item)) := by
  induction items with
  | nil => rfl
  | cons item rest ih =>
    rw [List.flatMap_cons, ofLines_append, ih, List.map_cons, String.join_cons]

/-- The first line of a text is what stands in front of the first line break. -/
theorem lines_ofLines_cons {line : String} (h : OneLine line) (rest : List String) :
    lines (ofLines (line :: rest)) = line :: lines (ofLines rest) := by
  have htext : (ofLines (line :: rest)).toList = line.toList ++ '\n' :: (ofLines rest).toList := by
    rw [ofLines, List.map_cons, String.join_cons, String.toList_append, String.toList_append,
      List.append_assoc]
    rfl
  rw [lines, htext, List.splitOn_append_cons_self_of_not_mem h,
    List.dropLast_cons_of_ne_nil (List.splitOn_ne_nil _ _), List.map_cons, String.ofList_toList,
    lines]

/-- **Splitting a text gives back the lines it was made of**, if none of them holds a line
break. -/
theorem lines_ofLines {given : List String} (h : ∀ line ∈ given, OneLine line) :
    lines (ofLines given) = given := by
  induction given with
  | nil => rfl
  | cons line rest ih =>
    obtain ⟨hline, hrest⟩ := List.forall_mem_cons.mp h
    rw [lines_ofLines_cons hline, ih hrest]

/-! ### Texts without line breaks -/

@[simp] theorem oneLine_append {a b : String} : OneLine (a ++ b) ↔ OneLine a ∧ OneLine b := by
  rw [OneLine, String.toList_append, List.mem_append, not_or, OneLine, OneLine]

@[simp] theorem oneLine_toString (n : Nat) : OneLine (toString n) := by
  rw [OneLine, Json.toList_toString]
  intro hmem
  exact absurd (Json.isDigit_of_mem_toDigits _ hmem) (by decide)

theorem oneLine_intercalate {separator : String} (hseparator : OneLine separator)
    {parts : List String} (h : ∀ part ∈ parts, OneLine part) :
    OneLine (separator.intercalate parts) := by
  induction parts with
  | nil => exact List.not_mem_nil
  | cons part rest ih =>
    obtain ⟨hpart, hrest⟩ := List.forall_mem_cons.mp h
    cases rest with
    | nil => rwa [String.intercalate_singleton]
    | cons next rest =>
      rw [String.intercalate_cons_cons, oneLine_append, oneLine_append]
      exact ⟨⟨hpart, hseparator⟩, ih hrest⟩

theorem exists_digit_of_mem_toDigits {base n : Nat} (hbase : 1 < base) {c : Char}
    (h : c ∈ Nat.toDigits base n) : ∃ d < base, c = Nat.digitChar d := by
  induction n using Nat.strongRecOn with
  | ind n ih =>
    rcases Nat.lt_or_ge n base with hlt | hge
    · rw [Nat.toDigits_of_lt_base hlt, List.mem_singleton] at h
      exact ⟨n, hlt, h⟩
    · rw [Nat.toDigits_of_base_le hbase hge, List.mem_append, List.mem_singleton] at h
      rcases h with h | h
      · exact ih (n / base) (Nat.div_lt_self (by omega) hbase) h
      · exact ⟨n % base, Nat.mod_lt _ (by omega), h⟩

/-- No character is shown between quotes by a line break. -/
theorem not_mem_quotedChar (c : Char) : '\n' ∉ quotedChar c := by
  have hnumber : '\n' ∉ ['\\', 'u', '\x7b'] ++ Nat.toDigits 16 c.toNat ++ ['\x7d'] := by
    simp only [List.mem_append, not_or]
    refine ⟨⟨by decide, fun hmem => ?_⟩, by decide⟩
    obtain ⟨d, hd, heq⟩ := exists_digit_of_mem_toDigits (by decide) hmem
    exact (by decide : ∀ d < 16, '\n' ≠ Nat.digitChar d) d hd heq
  rw [quotedChar]
  split_ifs with quote backslash lineBreak
  any_goals decide
  · exact hnumber
  · exact fun hmem => lineBreak (List.mem_singleton.mp hmem).symm

/-- **A quoted string holds no line break**, whatever the string. -/
@[simp] theorem oneLine_quoted (s : String) : OneLine (quoted s) := by
  rw [OneLine, quoted, String.toList_ofList, List.mem_append, List.mem_cons, List.mem_flatMap]
  rintro ((h | ⟨c, -, h⟩) | h)
  · exact absurd h (by decide)
  · exact not_mem_quotedChar c h
  · exact absurd h (by decide)

theorem oneLine_bracketed {parts : List String} (h : ∀ part ∈ parts, OneLine part) :
    OneLine (bracketed parts) := by
  rw [bracketed, oneLine_append, oneLine_append, listed]
  exact ⟨⟨by decide, oneLine_intercalate (by decide) h⟩, by decide⟩

@[simp] theorem oneLine_quotedList (strings : List String) : OneLine (quotedList strings) :=
  oneLine_bracketed (List.forall_mem_map.mpr fun s _ => oneLine_quoted s)

@[simp] theorem oneLine_quotedPair (pair : String × String) : OneLine (quotedPair pair) := by
  simp only [quotedPair, oneLine_append, oneLine_quoted]
  decide

end Text

end StagedQuery
