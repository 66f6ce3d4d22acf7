import StagedQuery.Json.Basic

/-!
# Reading JSON text

A parser of the JSON grammar and of nothing more: no comments, no trailing
commas, no control characters inside strings. It checks how escapes and numbers
are written and leaves their meaning to the reader of typed data.

`StagedQuery.Json.parsePart` reads the value that a text opens with and hands
back the rest; `StagedQuery.Json.isBlankText` says whether a rest is empty but
for blanks. Values nest as deeply as the text does: each step of the parser is
given one step less to make, and the steps it starts with – twice the length of
the text and one – never run out, since every second step consumes a character.
-/

namespace StagedQuery

namespace Json

/-! ### Blanks -/

/-- The characters that may stand between tokens. -/
def isBlankChar (c : Char) : Bool := c = ' ' || c = '\n' || c = '\t' || c = '\r'

/-- The text from its first character that is no blank. -/
def skipBlanks (s : List Char) : List Char := s.dropWhile isBlankChar

/-- Whether the text holds nothing but blanks. -/
def isBlankText (s : List Char) : Bool := s.all isBlankChar

/-! ### Strings -/

/-- Whether the character is a hexadecimal digit. -/
def isHexDigit (c : Char) : Bool :=
  c.isDigit || ('a' ≤ c && c ≤ 'f') || ('A' ≤ c && c ≤ 'F')

/-- Whether a backslash and the character make an escape. -/
def isShortEscape (c : Char) : Bool := "\"\\/bfnrt".toList.contains c

/-- Reads the body of a string up to its closing quote: the body, and the text
after the quote. -/
def scanString : List Char → Option (List Char × List Char)
  | [] => none
  | '"' :: rest => some ([], rest)
  | '\\' :: 'u' :: a :: b :: c :: d :: rest =>
    if isHexDigit a && isHexDigit b && isHexDigit c && isHexDigit d then
      (scanString rest).map fun (body, after) => ('\\' :: 'u' :: a :: b :: c :: d :: body, after)
    else none
  | '\\' :: c :: rest =>
    if isShortEscape c then
      (scanString rest).map fun (body, after) => ('\\' :: c :: body, after)
    else none
  | c :: rest =>
    if c = '\\' || c.toNat < 0x20 then none
    else (scanString rest).map fun (body, after) => (c :: body, after)

/-! ### Numbers -/

/-- Reads one digit or more. -/
def scanDigits (s : List Char) : Option (List Char × List Char) :=
  match s.takeWhile Char.isDigit with
  | [] => none
  | digits => some (digits, s.dropWhile Char.isDigit)

/-- Reads the whole part of a number: a zero alone, or digits that begin with
another. -/
def scanWhole : List Char → Option (List Char × List Char)
  | '0' :: rest => some (['0'], rest)
  | s => scanDigits s

/-- Reads a decimal point and the digits after it, if there is a point. -/
def scanFraction : List Char → Option (List Char × List Char)
  | '.' :: rest => (scanDigits rest).map fun (digits, after) => ('.' :: digits, after)
  | s => some ([], s)

/-- Reads an exponent, if there is one. -/
def scanExponent : List Char → Option (List Char × List Char)
  | e :: sign :: rest =>
    if e = 'e' || e = 'E' then
      if sign = '+' || sign = '-' then
        (scanDigits rest).map fun (digits, after) => (e :: sign :: digits, after)
      else (scanDigits (sign :: rest)).map fun (digits, after) => (e :: digits, after)
    else some ([], e :: sign :: rest)
  | [e] => if e = 'e' || e = 'E' then none else some ([], [e])
  | [] => some ([], [])

/-- Reads a number without its sign. -/
def scanUnsigned (s : List Char) : Option (List Char × List Char) := do
  let (whole, s) ← scanWhole s
  let (fraction, s) ← scanFraction s
  let (exponent, s) ← scanExponent s
  return (whole ++ fraction ++ exponent, s)

/-- Reads a number: its characters, and the text after it. -/
def scanNumber : List Char → Option (List Char × List Char)
  | '-' :: rest => (scanUnsigned rest).map fun (digits, after) => ('-' :: digits, after)
  | s => scanUnsigned s

/-! ### Values -/

mutual

/-- Reads the value that the text opens with, in at most `steps` steps. -/
def parseValue (steps : Nat) (s : List Char) : Option (Json × List Char) :=
  match steps with
  | 0 => none
  | steps + 1 =>
    match skipBlanks s with
    | '"' :: rest =>
      (scanString rest).map fun (body, after) => (.string (String.ofList body), after)
    | '[' :: rest =>
      match skipBlanks rest with
      | ']' :: after => some (.array [], after)
      | _ => (parseItems steps rest).map fun (items, after) => (.array items, after)
    | '\x7b' :: rest =>
      match skipBlanks rest with
      | '\x7d' :: after => some (.object [], after)
      | _ => (parseMembers steps rest).map fun (members, after) => (.object members, after)
    | 'n' :: 'u' :: 'l' :: 'l' :: after => some (.null, after)
    | 't' :: 'r' :: 'u' :: 'e' :: after => some (.bool true, after)
    | 'f' :: 'a' :: 'l' :: 's' :: 'e' :: after => some (.bool false, after)
    | s => (scanNumber s).map fun (lexeme, after) => (.number (String.ofList lexeme), after)

/-- Reads the items of an array, of which there is at least one, and the bracket
that closes it. -/
def parseItems (steps : Nat) (s : List Char) : Option (List Json × List Char) :=
  match steps with
  | 0 => none
  | steps + 1 =>
    match parseValue steps s with
    | none => none
    | some (item, rest) =>
      match skipBlanks rest with
      | ',' :: rest => (parseItems steps rest).map fun (items, after) => (item :: items, after)
      | ']' :: after => some ([item], after)
      | _ => none

/-- Reads the members of an object, of which there is at least one, and the
brace that closes it. -/
def parseMembers (steps : Nat) (s : List Char) : Option (List (String × Json) × List Char) :=
  match steps with
  | 0 => none
  | steps + 1 =>
    match skipBlanks s with
    | '"' :: rest =>
      match scanString rest with
      | none => none
      | some (name, rest) =>
        match skipBlanks rest with
        | ':' :: rest =>
          match parseValue steps rest with
          | none => none
          | some (value, rest) =>
            let member := (String.ofList name, value)
            match skipBlanks rest with
            | ',' :: rest =>
              (parseMembers steps rest).map fun (members, after) => (member :: members, after)
            | '\x7d' :: after => some ([member], after)
            | _ => none
        | _ => none
    | _ => none

end

/-- **Reads the value that a text opens with**: the value, and the text after
it. -/
def parsePart (s : List Char) : Option (Json × List Char) := parseValue (2 * s.length + 1) s

/-- Reads a text that holds one value and nothing else but blanks. -/
def parse (s : String) : Option Json :=
  match parsePart s.toList with
  | some (value, rest) => if isBlankText rest then some value else none
  | none => none

end Json

end StagedQuery
