import StagedQuery.Id
import StagedQuery.Json.Basic
import StagedQuery.Json.Literal

/-!
# Writing typed data as JSON

The JSON values that stand for texts, numbers, lists, maps and records: the
other side of `StagedQuery.Json.Reader`. Each kind of data has one written form,
with maps and sets in the order of their keys.
-/

namespace StagedQuery

namespace Json

/-! ### Plain values -/

/-- The string that means the text. -/
def ofString (text : String) : Json := .string (String.ofList (escape text.toList))

/-- The number, in decimal digits. -/
def ofNat (n : Nat) : Json := .number (toString n)

/-- An id is written as its number. -/
def ofId {what : Named} (id : Id what) : Json := .ofNat id.number.toNat

/-- A value, or `null` for none. -/
def ofOption {α : Type} (value : α → Json) : Option α → Json
  | none => .null
  | some a => value a

/-! ### Lists, maps and records -/

/-- The items as an array. -/
def ofList {α : Type} (item : α → Json) (items : List α) : Json := .array (items.map item)

/-- The strings as an array. -/
def ofTexts (texts : List String) : Json := ofList ofString texts

/-- The two strings as an array. -/
def ofTextPair (pair : String × String) : Json := .array [ofString pair.1, ofString pair.2]

/-- The fields of a record as an object; the names need no escapes. -/
def ofFields (fields : List (String × Json)) : Json := .object fields

/-- A map from texts. -/
def ofTextMap {α : Type} (value : α → Json) (map : Std.ExtTreeMap String α) : Json :=
  .object (map.toList.map fun (key, a) => (String.ofList (escape key.toList), value a))

/-- A map from ids. -/
def ofIdMap {what : Named} {α : Type} (value : α → Json) (map : IdMap what α) : Json :=
  .object (map.toList.map fun (key, a) => (key.text, value a))

/-- A set of strings. -/
def ofTextSet (set : Std.ExtTreeSet String) : Json := ofTexts set.toList

end Json

end StagedQuery
