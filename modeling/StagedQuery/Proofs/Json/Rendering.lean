import Mathlib.Tactic.ByContra
import StagedQuery.Json.Printer
import StagedQuery.Proofs.Json.Literal

/-!
# Values that are printed are parsed again

`StagedQuery.Json.Written` picks out the JSON values that writing makes: their numbers are natural
numbers in decimal digits, and their strings and names are written by
`StagedQuery.Json.escape`. Such a value is recognized by its first character
(`StagedQuery.Json.Written.exists_opening`), and after it the parser stops where the value ends, as
long as what follows does not go on with a number (`StagedQuery.Json.Written.parses`). So printing
a value and parsing the text gives it back (`StagedQuery.Json.parse_render`).

The parser takes a bounded number of steps. A value takes fewer steps than twice the characters of
its text, and items or members that stand in a row no more than that, since between two steps that
go further down there is always a bracket, a comma or a colon to read.
-/

namespace StagedQuery

namespace Json

/-- The characters between the quotes of a string are as writing makes them. -/
def WrittenBody (body : String) : Prop := ∃ text, body = String.ofList (escape text)

/-- **The values that writing makes.** -/
inductive Written : Json → Prop
  /-- The value `null`. -/
  | null : Written .null
  /-- A truth value. -/
  | bool (value : Bool) : Written (.bool value)
  /-- A natural number. -/
  | nat (n : Nat) : Written (ofNat n)
  /-- A string. -/
  | string (text : String) : Written (ofString text)
  /-- An array of such values. -/
  | array {items : List Json} (each : ∀ item ∈ items, Written item) : Written (.array items)
  /-- An object of such values. -/
  | object {members : List (String × Json)} (names : ∀ member ∈ members, WrittenBody member.1)
    (each : ∀ member ∈ members, Written member.2) : Written (.object members)

/-! ### Where a value begins -/

/-- The characters that the text of a value may begin with. -/
def opens (c : Char) : Bool := c.isDigit || ['"', '[', '\x7b', 'n', 't', 'f'].contains c

theorem isBlankChar_of_opens {c : Char} (h : opens c = true) : isBlankChar c = false := by
  by_contra hblank
  simp only [isBlankChar, Bool.not_eq_false, Bool.or_eq_true, decide_eq_true_eq] at hblank
  rcases hblank with ((rfl | rfl) | rfl) | rfl
  all_goals exact absurd h (by decide)

theorem skipBlanks_cons {c : Char} (h : isBlankChar c = false) (s : List Char) :
    skipBlanks (c :: s) = c :: s :=
  List.dropWhile_cons_of_neg (by simp [h])

theorem toList_quoteBody (body : String) :
    (quoteBody body).toList = '"' :: (body.toList ++ ['"']) := by
  rw [quoteBody, String.toList_append, String.toList_append]
  rfl

/-- **The text of a value begins with a character that tells what it is.** -/
theorem Written.exists_opening {json : Json} (h : Written json) :
    ∃ c rest, json.render.toList = c :: rest ∧ opens c = true := by
  cases h with
  | null => exact ⟨_, _, rfl, rfl⟩
  | bool value => cases value <;> exact ⟨_, _, rfl, rfl⟩
  | nat n =>
    rw [ofNat, render, toList_toString]
    cases hdigits : Nat.toDigits 10 n with
    | nil => exact absurd hdigits Nat.toDigits_ne_nil
    | cons d rest =>
      have hdigit := isDigit_of_mem_toDigits d (hdigits ▸ List.mem_cons_self)
      exact ⟨d, rest, rfl, by rw [opens, hdigit, Bool.true_or]⟩
  | string text =>
    rw [ofString, render, toList_quoteBody]
    exact ⟨_, _, rfl, rfl⟩
  | array each =>
    rw [render, String.toList_append, String.toList_append]
    exact ⟨_, _, rfl, rfl⟩
  | object names each =>
    rw [render, String.toList_append, String.toList_append]
    exact ⟨_, _, rfl, rfl⟩

/-! ### The characters of a text -/

theorem toList_render_array (items : List Json) :
    (render (.array items)).toList = '[' :: ((renderItems items).toList ++ [']']) := by
  rw [render, String.toList_append, String.toList_append]
  rfl

theorem toList_render_object (members : List (String × Json)) :
    (render (.object members)).toList = '\x7b' :: ((renderMembers members).toList ++ ['\x7d']) := by
  rw [render, String.toList_append, String.toList_append]
  rfl

theorem toList_renderItems_cons (item next : Json) (rest : List Json) :
    (renderItems (item :: next :: rest)).toList =
      item.render.toList ++ ',' :: (renderItems (next :: rest)).toList := by
  rw [renderItems, String.toList_append, String.toList_append, List.append_assoc]
  rfl

/-- The characters of one member of an object. -/
def memberChars (member : String × Json) : List Char :=
  '"' :: (member.1.toList ++ '"' :: ':' :: member.2.render.toList)

theorem toList_renderMembers_singleton (member : String × Json) :
    (renderMembers [member]).toList = memberChars member := by
  rw [renderMembers, String.toList_append, String.toList_append, toList_quoteBody, memberChars]
  simp

theorem toList_renderMembers_cons (member next : String × Json) (rest : List (String × Json)) :
    (renderMembers (member :: next :: rest)).toList =
      memberChars member ++ ',' :: (renderMembers (next :: rest)).toList := by
  rw [renderMembers, String.toList_append, String.toList_append, String.toList_append,
    String.toList_append, toList_quoteBody, memberChars]
  simp

/-! ### One step of the parser -/

variable {steps : Nat}

theorem parseValue_quote (s : List Char) : parseValue (steps + 1) ('"' :: s) =
    (scanString s).map fun (body, after) => (.string (String.ofList body), after) := rfl

/-- What begins with a digit is a number. -/
theorem parseValue_digit {d : Char} (h : d.isDigit = true) (s : List Char) :
    parseValue (steps + 1) (d :: s) =
      (scanNumber (d :: s)).map fun (lexeme, after) => (.number (String.ofList lexeme), after) := by
  have hblank := isBlankChar_of_opens (c := d) (by rw [opens, h, Bool.true_or])
  rw [parseValue.eq_2, skipBlanks_cons hblank]
  split
  case h_7 => rfl
  all_goals
    rename_i heq
    obtain ⟨rfl, -⟩ := List.cons.inj heq
    exact absurd h (by decide)

/-- What begins with a bracket and goes on with a value is an array. -/
theorem parseValue_bracket {c : Char} (h : opens c = true) (s : List Char) :
    parseValue (steps + 1) ('[' :: c :: s) =
      (parseItems steps (c :: s)).map fun (items, after) => (.array items, after) := by
  have hbracket : skipBlanks ('[' :: c :: s) = '[' :: c :: s := skipBlanks_cons rfl _
  simp only [parseValue.eq_2, hbracket, skipBlanks_cons (isBlankChar_of_opens h)]
  split
  case h_1 heq =>
    obtain ⟨rfl, -⟩ := List.cons.inj heq
    exact absurd h (by decide)
  case h_2 => rfl

/-- What begins with a brace and goes on with a name is an object. -/
theorem parseValue_brace (s : List Char) : parseValue (steps + 1) ('\x7b' :: '"' :: s) =
    (parseMembers steps ('"' :: s)).map fun (members, after) => (.object members, after) := rfl

/-- An item with a comma behind it is followed by more. -/
theorem parseItems_comma {s after : List Char} {item : Json}
    (h : parseValue steps s = some (item, ',' :: after)) : parseItems (steps + 1) s =
      (parseItems steps after).map fun (items, rest) => (item :: items, rest) := by
  rw [parseItems.eq_2, h]
  rfl

/-- An item with a bracket behind it is the last. -/
theorem parseItems_bracket {s after : List Char} {item : Json}
    (h : parseValue steps s = some (item, ']' :: after)) :
    parseItems (steps + 1) s = some ([item], after) := by
  rw [parseItems.eq_2, h]
  rfl

section

variable {s value after : List Char} {body : List Char} {json : Json}
  (hname : scanString s = some (body, ':' :: value))

include hname

/-- A member with a comma behind it is followed by more. -/
theorem parseMembers_comma (hvalue : parseValue steps value = some (json, ',' :: after)) :
    parseMembers (steps + 1) ('"' :: s) = (parseMembers steps after).map fun (members, rest) =>
      ((String.ofList body, json) :: members, rest) := by
  have hquote : skipBlanks ('"' :: s) = '"' :: s := skipBlanks_cons rfl _
  have hcolon : skipBlanks (':' :: value) = ':' :: value := skipBlanks_cons rfl _
  have hcomma : skipBlanks (',' :: after) = ',' :: after := skipBlanks_cons rfl _
  simp only [parseMembers.eq_2, hquote, hname, hcolon, hvalue, hcomma]

/-- A member with a brace behind it is the last. -/
theorem parseMembers_brace (hvalue : parseValue steps value = some (json, '\x7d' :: after)) :
    parseMembers (steps + 1) ('"' :: s) = some ([(String.ofList body, json)], after) := by
  have hquote : skipBlanks ('"' :: s) = '"' :: s := skipBlanks_cons rfl _
  have hcolon : skipBlanks (':' :: value) = ':' :: value := skipBlanks_cons rfl _
  have hbrace : skipBlanks ('\x7d' :: after) = '\x7d' :: after := skipBlanks_cons rfl _
  simp only [parseMembers.eq_2, hquote, hname, hcolon, hvalue, hbrace]

end

/-! ### Parsing what has been printed -/

/-- **Parsing finds the value and its end**, in twice as many steps as its text has characters. -/
def Parses (json : Json) : Prop :=
  ∀ (steps : Nat) (rest : List Char), EndsNumber rest →
    2 * json.render.toList.length ≤ steps + 1 →
      parseValue steps (json.render.toList ++ rest) = some (json, rest)

theorem endsNumber_nil : EndsNumber [] := nofun

theorem endsNumber_cons {c : Char} (h : c.isDigit = false ∧ c ≠ '.' ∧ c ≠ 'e' ∧ c ≠ 'E')
    (rest : List Char) : EndsNumber (c :: rest) := by
  intro d hd
  cases hd
  exact h

/-- What can be parsed is not empty, since there is no step for nothing. -/
theorem Parses.length_pos {json : Json} (h : Parses json) : 0 < json.render.toList.length := by
  by_contra hzero
  exact nomatch h 0 [] endsNumber_nil (by omega)

/-- The items of an array, which end at its bracket. -/
theorem parseItems_render {items : List Json} (hne : items ≠ [])
    (each : ∀ item ∈ items, Parses item) (steps : Nat) (rest : List Char)
    (hsteps : 2 * (renderItems items).toList.length ≤ steps) :
    parseItems steps ((renderItems items).toList ++ ']' :: rest) = some (items, rest) := by
  induction items generalizing steps with
  | nil => exact absurd rfl hne
  | cons item items ih =>
    obtain ⟨hitem, hitems⟩ := List.forall_mem_cons.mp each
    have hpos := hitem.length_pos
    cases items with
    | nil =>
      rw [renderItems] at hsteps ⊢
      obtain ⟨steps, rfl⟩ := Nat.exists_eq_succ_of_ne_zero (n := steps) (by omega)
      exact parseItems_bracket (hitem steps _ (endsNumber_cons (by decide) rest) (by omega))
    | cons next items =>
      rw [toList_renderItems_cons] at hsteps ⊢
      rw [List.length_append, List.length_cons] at hsteps
      obtain ⟨steps, rfl⟩ := Nat.exists_eq_succ_of_ne_zero (n := steps) (by omega)
      have hrest := ih (List.cons_ne_nil _ _) hitems steps (by omega)
      rw [List.append_assoc, List.cons_append,
        parseItems_comma (hitem steps _ (endsNumber_cons (by decide) _) (by omega)), hrest,
        Option.map_some]

/-- A member up to its value: a quote, the name, and a colon. -/
theorem exists_scanString_memberChars {member : String × Json} (name : WrittenBody member.1)
    (rest : List Char) : ∃ s body, memberChars member ++ rest = '"' :: s ∧
      String.ofList body = member.1 ∧
      scanString s = some (body, ':' :: (member.2.render.toList ++ rest)) := by
  obtain ⟨name, json⟩ := member
  obtain ⟨text, rfl⟩ := name
  have hname := scanString_escape text (':' :: (json.render.toList ++ rest))
  refine ⟨_, _, ?_, rfl, hname⟩
  rw [memberChars, List.cons_append, List.append_assoc, List.cons_append, List.cons_append,
    String.toList_ofList]

/-- The members of an object, which end at its brace. -/
theorem parseMembers_render {members : List (String × Json)} (hne : members ≠ [])
    (names : ∀ member ∈ members, WrittenBody member.1)
    (each : ∀ member ∈ members, Parses member.2) (steps : Nat) (rest : List Char)
    (hsteps : 2 * (renderMembers members).toList.length ≤ steps) :
    parseMembers steps ((renderMembers members).toList ++ '\x7d' :: rest) =
      some (members, rest) := by
  induction members generalizing steps with
  | nil => exact absurd rfl hne
  | cons member members ih =>
    obtain ⟨hname, hnames⟩ := List.forall_mem_cons.mp names
    obtain ⟨hmember, hmembers⟩ := List.forall_mem_cons.mp each
    have hlength : member.2.render.toList.length < (memberChars member).length := by
      rw [memberChars]
      simp only [List.length_cons, List.length_append]
      omega
    cases members with
    | nil =>
      rw [toList_renderMembers_singleton] at hsteps ⊢
      obtain ⟨steps, rfl⟩ := Nat.exists_eq_succ_of_ne_zero (n := steps) (by omega)
      obtain ⟨s, body, heq, hbody, hscan⟩ := exists_scanString_memberChars hname ('\x7d' :: rest)
      have hvalue := hmember steps ('\x7d' :: rest) (endsNumber_cons (by decide) _) (by omega)
      rw [heq, parseMembers_brace hscan hvalue, hbody]
    | cons next members =>
      rw [toList_renderMembers_cons] at hsteps ⊢
      rw [List.length_append, List.length_cons] at hsteps
      obtain ⟨steps, rfl⟩ := Nat.exists_eq_succ_of_ne_zero (n := steps) (by omega)
      have hrest := ih (List.cons_ne_nil _ _) hnames hmembers steps (by omega)
      have hcomma := endsNumber_cons (c := ',') (by decide)
        ((renderMembers (next :: members)).toList ++ '\x7d' :: rest)
      obtain ⟨s, body, heq, hbody, hscan⟩ := exists_scanString_memberChars hname
        (',' :: ((renderMembers (next :: members)).toList ++ '\x7d' :: rest))
      have hvalue := hmember steps _ hcomma (by omega)
      rw [List.append_assoc, List.cons_append, heq, parseMembers_comma hscan hvalue, hbody, hrest,
        Option.map_some]

/-- The text of items begins as their first item does. -/
theorem exists_opening_renderItems {item : Json} (h : Written item) (rest : List Json) :
    ∃ c s, (renderItems (item :: rest)).toList = c :: s ∧ opens c = true := by
  obtain ⟨c, s, heq, hopens⟩ := h.exists_opening
  cases rest with
  | nil => exact ⟨c, s, heq, hopens⟩
  | cons next rest =>
    rw [toList_renderItems_cons, heq]
    exact ⟨c, _, rfl, hopens⟩

/-- The text of members begins with the quote of the first name. -/
theorem exists_quote_renderMembers (member : String × Json) (rest : List (String × Json)) :
    ∃ s, (renderMembers (member :: rest)).toList = '"' :: s := by
  cases rest with
  | nil => exact ⟨_, toList_renderMembers_singleton member⟩
  | cons next rest => exact ⟨_, toList_renderMembers_cons member next rest⟩

/-- A value takes a step, since it is not empty. -/
theorem Written.parses_of_succ {json : Json} (h : Written json)
    (hstep : ∀ (steps : Nat) (rest : List Char), EndsNumber rest →
      2 * json.render.toList.length ≤ steps + 2 →
        parseValue (steps + 1) (json.render.toList ++ rest) = some (json, rest)) :
    Parses json := by
  intro steps rest hrest hsteps
  obtain ⟨c, s, heq, -⟩ := h.exists_opening
  have hlength := congrArg List.length heq
  rw [List.length_cons] at hlength
  obtain ⟨steps, rfl⟩ := Nat.exists_eq_succ_of_ne_zero (n := steps) (by omega)
  exact hstep steps rest hrest hsteps

/-- **What writing makes can be parsed.** -/
theorem Written.parses {json : Json} (h : Written json) : Parses json := by
  induction h with
  | null => exact Written.null.parses_of_succ fun steps rest _ _ => rfl
  | bool value =>
    refine (Written.bool value).parses_of_succ fun steps rest _ _ => ?_
    cases value <;> rfl
  | nat n =>
    refine (Written.nat n).parses_of_succ fun steps rest hrest _ => ?_
    have hscan := scanNumber_toDigits n hrest
    rw [ofNat, render, toList_toString, Nat.toString_eq_ofList_toDigits]
    cases hdigits : Nat.toDigits 10 n with
    | nil => exact absurd hdigits Nat.toDigits_ne_nil
    | cons d digits =>
      have hdigit := isDigit_of_mem_toDigits d (hdigits ▸ List.mem_cons_self)
      rw [hdigits, List.cons_append] at hscan
      rw [List.cons_append, parseValue_digit hdigit, hscan, Option.map_some]
  | string text =>
    refine (Written.string text).parses_of_succ fun steps rest _ _ => ?_
    rw [ofString, render, toList_quoteBody, String.toList_ofList, List.cons_append,
      List.append_assoc, List.singleton_append, parseValue_quote, scanString_escape,
      Option.map_some]
  | @array items each ih =>
    refine (Written.array each).parses_of_succ fun steps rest _ hsteps => ?_
    rw [toList_render_array] at hsteps ⊢
    cases items with
    | nil => rfl
    | cons item items =>
      simp only [List.length_cons, List.length_append] at hsteps
      obtain ⟨c, s, heq, hopens⟩ := exists_opening_renderItems (each item List.mem_cons_self) items
      have hparse := parseItems_render (List.cons_ne_nil _ _) ih steps rest (by omega)
      rw [List.cons_append, List.append_assoc, List.singleton_append]
      rw [heq, List.cons_append] at hparse ⊢
      rw [parseValue_bracket hopens, hparse, Option.map_some]
  | @object members names each ih =>
    refine (Written.object names each).parses_of_succ fun steps rest _ hsteps => ?_
    rw [toList_render_object] at hsteps ⊢
    cases members with
    | nil => rfl
    | cons member members =>
      simp only [List.length_cons, List.length_append] at hsteps
      obtain ⟨s, heq⟩ := exists_quote_renderMembers member members
      have hparse := parseMembers_render (List.cons_ne_nil _ _) names ih steps rest (by omega)
      rw [List.cons_append, List.append_assoc, List.singleton_append]
      rw [heq, List.cons_append] at hparse ⊢
      rw [parseValue_brace, hparse, Option.map_some]

/-- **A value that is printed is parsed again.** -/
theorem parsePart_render {json : Json} (h : Written json) :
    parsePart json.render.toList = some (json, []) := by
  have hparses := h.parses (2 * json.render.toList.length + 1) [] endsNumber_nil (by omega)
  rwa [List.append_nil] at hparses

theorem parse_render {json : Json} (h : Written json) : parse json.render = some json := by
  rw [parse, parsePart_render h]
  rfl

end Json

end StagedQuery
