import StagedQuery.Id
import StagedQuery.Json.Basic
import StagedQuery.Json.Literal

/-!
# Reading typed data from JSON

The ways in which a JSON value stands for a value of some type. A reader
(`StagedQuery.Json.Reader`) is told how many levels of brackets it may still
enter, and refuses a value that nests deeper; the bound is also what lets the
readers of trees recurse.

A record (`StagedQuery.Json.record?`) is an object with a member for each field,
or an array of the fields in their order. Members with other names are passed
over unread, however deep they are. A choice between variants
(`StagedQuery.Json.variant?`) is a string, or an object with one member.
-/

namespace StagedQuery

namespace Json

/-- Reads a value that may enter so many more levels of brackets. -/
abbrev Reader (α : Type) := Nat → Json → Option α

/-! ### Plain values -/

/-- The text that a string means. -/
def text? : Json → Option String
  | .string body => (unescape body.toList).map String.ofList
  | _ => none

/-- The truth value. -/
def bool? : Json → Option Bool
  | .bool value => some value
  | _ => none

/-- The value of decimal digits. -/
def digitsValue (digits : List Char) : Nat :=
  digits.foldl (fun value c => value * 10 + (c.toNat - '0'.toNat)) 0

/-- The natural number below `bound` that plain digits write. -/
def boundedDigits? (bound : Nat) (digits : List Char) : Option Nat :=
  if digits ≠ [] ∧ digits.all Char.isDigit ∧ digitsValue digits < bound then
    some (digitsValue digits)
  else none

/-- The natural number below `bound`: digits alone, with no sign, point or
exponent. -/
def nat? (bound : Nat) : Json → Option Nat
  | .number lexeme => boundedDigits? bound lexeme.toList
  | _ => none

/-- A 16-bit number. -/
def uint16? (json : Json) : Option UInt16 := (nat? UInt16.size json).map UInt16.ofNat

/-- A 32-bit number. -/
def uint32? (json : Json) : Option UInt32 := (nat? UInt32.size json).map UInt32.ofNat

/-- A 64-bit number. -/
def uint64? (json : Json) : Option UInt64 := (nat? UInt64.size json).map UInt64.ofNat

/-- An id. -/
def id? {what : Named} (json : Json) : Option (Id what) := (uint32? json).map Id.mk

/-- A value, or `null` for none. -/
def optional? {α : Type} (value : Json → Option α) : Json → Option (Option α)
  | .null => some none
  | json => (value json).map some

/-! ### Lists and maps -/

/-- The items of an array. -/
def list? {α : Type} (item : Reader α) : Reader (List α)
  | room + 1, .array items => items.mapM (item room)
  | _, _ => none

/-- The strings of an array. -/
def texts? : Reader (List String) := list? fun _ => text?

/-- The two strings of an array of two. -/
def textPair? : Reader (String × String)
  | _ + 1, .array [first, second] => do return (← text? first, ← text? second)
  | _, _ => none

/-- The id that a name in plain digits writes; there is no leading zero. -/
def idName? {what : Named} (body : String) : Option (Id what) :=
  match body.toList with
  | '0' :: _ :: _ => none
  | digits => (boundedDigits? UInt32.size digits).map Id.ofNat

/-- The members of an object as a map; of several with one name the last
counts. -/
def map? {κ α : Type} [Ord κ] [Std.TransOrd κ] (name : String → Option κ) (value : Reader α) :
    Reader (Std.ExtTreeMap κ α)
  | room + 1, .object members => do
    let entries ← members.mapM fun (body, json) => do return (← name body, ← value room json)
    return entries.foldl (fun map (key, entry) => map.insert key entry) ∅
  | _, _ => none

/-- The members of an object, under the texts that their names mean. -/
def textMap? {α : Type} (value : Reader α) : Reader (Std.ExtTreeMap String α) :=
  map? (fun body => text? (.string body)) value

/-- The members of an object, under ids. -/
def idMap? {what : Named} {α : Type} (value : Reader α) : Reader (IdMap what α) :=
  map? idName? value

/-- The strings of an array as a set. -/
def textSet? : Reader (Std.ExtTreeSet String) := fun room json =>
  (texts? room json).map fun texts => texts.foldl (fun set text => set.insert text) ∅

/-! ### Records and variants -/

/-- The values that a record gives for the fields `names`, in this order. As an
object it gives each field at most once, and a field without a member has no
value. As an array it gives the first fields, at least `required` of them. -/
def record? (names : List String) (required : Nat) : Json → Option (List (Option Json))
  | .object members => do
    let members ← members.mapM fun (body, value) => do return (← text? (.string body), value)
    if names.all fun name => members.countP (fun member => member.1 == name) ≤ 1 then
      return names.map fun name => (members.find? fun member => member.1 == name).map (·.2)
    else none
  | .array items =>
    if required ≤ items.length ∧ items.length ≤ names.length then
      some (items.map some ++ List.replicate (names.length - items.length) none)
    else none
  | _ => none

/-- Reads a record whose fields `names` are then read by `fields`, one level
deeper. -/
def withRecord? {α : Type} (names : List String) (required : Nat)
    (fields : Nat → List (Option Json) → Option α) : Reader α
  | room + 1, json => (record? names required json).bind (fields room)
  | 0, _ => none

/-- The value of a field that may be left out. -/
def optionalField? {α : Type} (value : Json → Option α) : Option Json → Option (Option α)
  | none => some none
  | some json => optional? value json

/-- The value of a field that stands for `standard` where it is left out. -/
def fieldOr? {α : Type} (standard : α) (value : Json → Option α) : Option Json → Option α
  | none => some standard
  | some json => value json

/-- The name of a variant and what it carries: a string carries nothing, an
object carries the value of its only member. -/
def variant? : Json → Option (String × Option Json)
  | .string body => (text? (.string body)).map fun name => (name, none)
  | .object [(body, content)] => (text? (.string body)).map fun name => (name, some content)
  | _ => none

/-- A variant that carries nothing, by its name; written as an object it carries
`null` and takes one level. -/
def constant? {α : Type} (value : String → Option α) : Reader α := fun room json =>
  match variant? json with
  | some (name, none) => value name
  | some (name, some .null) => if room = 0 then none else value name
  | _ => none

end Json

end StagedQuery
