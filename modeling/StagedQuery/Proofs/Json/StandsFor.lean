import Mathlib.Data.List.Nodup
import StagedQuery.Format.Dispatch
import StagedQuery.Proofs.Json.Rendering
import StagedQuery.Proofs.Keyed
import StagedQuery.Proofs.Noting

/-!
# Values that stand for data

A JSON value stands for a thing, as far as a reader is concerned
(`StagedQuery.Json.StandsFor`), if it is such as writing makes and the reader takes it for that
thing wherever there is room for its levels of brackets (`StagedQuery.Json.levels`), and for
nothing where there is not. The second half matters as much as the first: it says which texts are
too deep to be read, and it is what lets a reader that tries its parts one by one be described by
the levels of the whole.

What is written for lists, maps, sets and records stands for them if what is written for their
parts does, so that for each type of data there is one such fact, put together from those of its
fields. Printing the value and reading the text is then one step
(`StagedQuery.Json.StandsFor.readText?_render`).
-/

namespace StagedQuery

namespace Json

/-! ### Levels of brackets -/

mutual

/-- **How many levels of brackets** the text of a value nests. -/
def levels : Json → Nat
  | .array items => levelsOfItems items + 1
  | .object members => levelsOfMembers members + 1
  | .null | .bool _ | .number _ | .string _ => 0

/-- How many levels the items of an array nest at most. -/
def levelsOfItems : List Json → Nat
  | [] => 0
  | item :: rest => max (levels item) (levelsOfItems rest)

/-- How many levels the members of an object nest at most. -/
def levelsOfMembers : List (String × Json) → Nat
  | [] => 0
  | (_, value) :: rest => max (levels value) (levelsOfMembers rest)

end

theorem levels_array (items : List Json) :
    (Json.array items).levels = levelsOfItems items + 1 := rfl

theorem levels_object (members : List (String × Json)) :
    (Json.object members).levels = levelsOfMembers members + 1 := rfl

theorem levelsOfItems_le {items : List Json} {room : Nat} :
    levelsOfItems items ≤ room ↔ ∀ item ∈ items, item.levels ≤ room := by
  induction items with
  | nil => simp [levelsOfItems]
  | cons item rest ih => rw [levelsOfItems, Nat.max_le, ih, List.forall_mem_cons]

theorem levelsOfMembers_le {members : List (String × Json)} {room : Nat} :
    levelsOfMembers members ≤ room ↔ ∀ member ∈ members, member.2.levels ≤ room := by
  induction members with
  | nil => simp [levelsOfMembers]
  | cons member rest ih => rw [levelsOfMembers, Nat.max_le, ih, List.forall_mem_cons]

theorem levels_array_le {items : List Json} {room : Nat} :
    (Json.array items).levels ≤ room + 1 ↔ ∀ item ∈ items, item.levels ≤ room := by
  rw [levels_array, Nat.add_le_add_iff_right, levelsOfItems_le]

theorem levels_object_le {members : List (String × Json)} {room : Nat} :
    (Json.object members).levels ≤ room + 1 ↔ ∀ member ∈ members, member.2.levels ≤ room := by
  rw [levels_object, Nat.add_le_add_iff_right, levelsOfMembers_le]

/-- An array takes a level. -/
theorem not_levels_array_le (items : List Json) : ¬(Json.array items).levels ≤ 0 := by
  rw [levels_array]
  omega

/-- An object takes a level. -/
theorem not_levels_object_le (members : List (String × Json)) :
    ¬(Json.object members).levels ≤ 0 := by
  rw [levels_object]
  omega

@[simp] theorem levels_null : Json.null.levels = 0 := rfl

@[simp] theorem levels_bool (value : Bool) : (Json.bool value).levels = 0 := rfl

@[simp] theorem levels_ofString (text : String) : (ofString text).levels = 0 := rfl

@[simp] theorem levels_ofNat (n : Nat) : (ofNat n).levels = 0 := rfl

@[simp] theorem levels_ofId {what : Named} (id : Id what) : (ofId id).levels = 0 := levels_ofNat _

/-! ### Standing for -/

variable {α : Type}

/-- **The value stands for `a`**: it is such as writing makes, and it is read as `a` where there
is room for its levels, and not at all where there is not. -/
structure StandsFor (read : Reader α) (json : Json) (a : α) : Prop where
  /-- The value is such as writing makes. -/
  written : Written json
  /-- It is read as `a` exactly if there is room. -/
  read_iff : ∀ room b, read room json = some b ↔ json.levels ≤ room ∧ a = b

/-- Reads typed data from a text that holds nothing else. -/
def readText? (read : Reader α) (text : String) : Option α := (parse text).bind (read textRoom)

/-- What a reader with so much room makes of a value that stands for something. -/
theorem StandsFor.read_eq {read : Reader α} {json : Json} {a : α} (h : StandsFor read json a)
    (room : Nat) : read room json = if json.levels ≤ room then some a else none := by
  split_ifs with hroom
  · exact (h.read_iff _ _).mpr ⟨hroom, rfl⟩
  · exact Option.eq_none_iff_forall_ne_some.mpr fun b hb => hroom ((h.read_iff _ _).mp hb).1

/-- **What is printed is read again**, if it does not nest too deeply; otherwise it is refused. -/
theorem StandsFor.readText?_render {read : Reader α} {json : Json} {a : α}
    (h : StandsFor read json a) :
    readText? read json.render = if json.levels ≤ textRoom then some a else none := by
  rw [readText?, parse_render h.written, Option.bind_some, h.read_eq]

/-- A value without brackets, whose reader does not look at the room. -/
theorem StandsFor.plain {value : Json → Option α} {json : Json} {a : α} (written : Written json)
    (levels : json.levels = 0) (h : value json = some a) : StandsFor (fun _ => value) json a := by
  refine ⟨written, fun room b => ?_⟩
  rw [h, levels, Option.some.injEq, and_iff_right (Nat.zero_le room)]

theorem standsFor_ofString (text : String) : StandsFor (fun _ => text?) (ofString text) text :=
  .plain (.string text) (levels_ofString text) (text?_ofString text)

theorem written_ofId {what : Named} (id : Id what) : Written (ofId id) := .nat _

theorem standsFor_ofId {what : Named} (id : Id what) : StandsFor (fun _ => id?) (ofId id) id :=
  .plain (written_ofId id) (levels_ofId id) (id?_ofId id)

/-! ### Lists -/

/-- Reading items one by one that are each read as what they were written for. -/
theorem mapM_eq_some_iff {β γ : Type} {f : β → Option γ} {g : γ → β} {p : γ → Prop}
    {items results : List γ} (h : ∀ a ∈ items, ∀ b, f (g a) = some b ↔ p a ∧ a = b) :
    (items.map g).mapM f = some results ↔ (∀ a ∈ items, p a) ∧ items = results := by
  induction items generalizing results with
  | nil => simp
  | cons a rest ih =>
    obtain ⟨ha, hrest⟩ := List.forall_mem_cons.mp h
    simp only [List.map_cons, List.mapM_cons, Option.bind_eq_bind, Option.bind_eq_some_iff, ha,
      ih hrest, Option.pure_def, Option.some.injEq, List.forall_mem_cons]
    constructor
    · rintro ⟨_, ⟨hfits, rfl⟩, _, ⟨hfits', rfl⟩, rfl⟩
      exact ⟨⟨hfits, hfits'⟩, rfl⟩
    · rintro ⟨⟨hfits, hfits'⟩, rfl⟩
      exact ⟨a, ⟨hfits, rfl⟩, rest, ⟨hfits', rfl⟩, rfl⟩

/-- **The items of a list** stand for it. -/
theorem StandsFor.list {item : Reader α} {write : α → Json} {items : List α}
    (h : ∀ a, StandsFor item (write a) a) : StandsFor (list? item) (ofList write items) items := by
  refine ⟨.array fun json hjson => ?_, fun room b => ?_⟩
  · obtain ⟨a, -, rfl⟩ := List.mem_map.mp hjson
    exact (h a).written
  · cases room with
    | zero => exact iff_of_false nofun fun hle => not_levels_array_le _ hle.1
    | succ room =>
      rw [ofList, levels_array_le, List.forall_mem_map]
      exact mapM_eq_some_iff fun a _ => (h a).read_iff room

theorem standsFor_ofTexts (texts : List String) : StandsFor texts? (ofTexts texts) texts :=
  .list standsFor_ofString

theorem standsFor_ofIds {what : Named} (ids : List (Id what)) :
    StandsFor (list? fun _ => id?) (ofList ofId ids) ids :=
  .list standsFor_ofId

theorem standsFor_ofTextPair (pair : String × String) :
    StandsFor textPair? (ofTextPair pair) pair := by
  refine ⟨.array ?_, fun room b => ?_⟩
  · exact List.forall_mem_cons.mpr ⟨.string _, List.forall_mem_singleton.mpr (.string _)⟩
  · cases room with
    | zero => exact iff_of_false nofun fun hle => not_levels_array_le _ hle.1
    | succ room =>
      rw [ofTextPair, levels_array_le]
      simp only [textPair?, text?_ofString, Option.bind_eq_bind, Option.bind_some, Option.pure_def,
        Option.some.injEq, List.forall_mem_cons, levels_ofString, Nat.zero_le, true_and,
        List.not_mem_nil, false_implies, implies_true]

/-! ### Maps and sets -/

section

variable {κ : Type} [Ord κ] [Std.TransOrd κ] [Std.LawfulEqOrd κ]

/-- Entering the entries of a map one after the other gives the map again. -/
theorem foldl_insert_toList (map : Std.ExtTreeMap κ α) :
    map.toList.foldl (fun map entry => map.insert entry.1 entry.2) ∅ = map := by
  have hdistinct : (map.toList.map (·.1)).Nodup := by
    rw [Std.ExtTreeMap.map_fst_toList_eq_keys]
    exact Std.ExtTreeMap.nodup_keys
  refine Std.ExtTreeMap.ext_getElem? fun key => Option.ext fun a => ?_
  rw [← Std.ExtTreeMap.insertMany_list_eq_foldl, mem_insertMany_empty hdistinct,
    Std.ExtTreeMap.mem_toList_iff_getElem?_eq_some]

/-- **The members of an object** stand for a map, if their names stand for the keys. -/
theorem StandsFor.map {name : String → Option κ} {write : κ → String} {value : Reader α}
    {writeValue : α → Json} {map : Std.ExtTreeMap κ α}
    (body : ∀ key, WrittenBody (write key)) (hname : ∀ key, name (write key) = some key)
    (h : ∀ a, StandsFor value (writeValue a) a) :
    StandsFor (map? name value)
      (.object (map.toList.map fun (key, a) => (write key, writeValue a))) map := by
  refine ⟨.object (fun member hmember => ?_) fun member hmember => ?_, fun room b => ?_⟩
  · obtain ⟨entry, -, rfl⟩ := List.mem_map.mp hmember
    exact body entry.1
  · obtain ⟨entry, -, rfl⟩ := List.mem_map.mp hmember
    exact (h entry.2).written
  · cases room with
    | zero => exact iff_of_false nofun fun hle => not_levels_object_le _ hle.1
    | succ room =>
      have hentry (entry : κ × α) (found : κ × α) : (do
          return (← name (write entry.1), ← value room (writeValue entry.2))) = some found ↔
            (writeValue entry.2).levels ≤ room ∧ entry = found := by
        simp only [hname, (h entry.2).read_iff, Option.bind_eq_bind, Option.bind_some,
          Option.bind_eq_some_iff, Option.pure_def, Option.some.injEq]
        constructor
        · rintro ⟨_, ⟨hlevels, rfl⟩, rfl⟩
          exact ⟨hlevels, rfl⟩
        · rintro ⟨hlevels, rfl⟩
          exact ⟨_, ⟨hlevels, rfl⟩, rfl⟩
      rw [levels_object_le, List.forall_mem_map]
      refine Option.bind_eq_some_iff.trans ?_
      constructor
      · rintro ⟨entries, hentries, heq⟩
        obtain ⟨hlevels, rfl⟩ := (mapM_eq_some_iff fun entry _ => hentry entry).mp hentries
        exact ⟨hlevels, (foldl_insert_toList map).symm.trans (Option.some.inj heq)⟩
      · rintro ⟨hlevels, rfl⟩
        exact ⟨_, (mapM_eq_some_iff fun entry _ => hentry entry).mpr ⟨hlevels, rfl⟩,
          congrArg some (foldl_insert_toList map)⟩

end

/-- The entries of a map from texts stand for it. -/
theorem StandsFor.textMap {value : Reader α} {write : α → Json} {map : Std.ExtTreeMap String α}
    (h : ∀ a, StandsFor value (write a) a) :
    StandsFor (textMap? value) (ofTextMap write map) map :=
  StandsFor.map (fun key : String => ⟨key.toList, rfl⟩) text?_ofString h

/-- Digits are written as they are. -/
theorem escape_of_isDigit {digits : List Char} (h : ∀ c ∈ digits, c.isDigit = true) :
    escape digits = digits := by
  induction digits with
  | nil => rfl
  | cons c rest ih =>
    obtain ⟨hc, hrest⟩ := List.forall_mem_cons.mp h
    rw [escape, List.flatMap_cons, ← escape, ih hrest]
    rcases escapeChar_cases c with ⟨e, -, hmeant, -, heq⟩ | ⟨hlt, -⟩ | ⟨-, -, -, heq⟩
    · unfold shortEscape? at hmeant
      split at hmeant
      all_goals
        cases hmeant
        try exact absurd hc (by decide)
    · have hge : 48 ≤ c.toNat := (Char.isDigit_iff_toNat.mp hc).1
      omega
    · rw [heq, List.singleton_append]

/-- The entries of a map from ids stand for it. -/
theorem StandsFor.idMap {what : Named} {value : Reader α} {write : α → Json} {map : IdMap what α}
    (h : ∀ a, StandsFor value (write a) a) :
    StandsFor (idMap? value) (ofIdMap write map) map := by
  refine .map (fun id => ⟨id.text.toList, ?_⟩) idName?_text h
  have hplain : escape id.text.toList = id.text.toList := by
    rw [Id.text, toList_toString]
    exact escape_of_isDigit isDigit_of_mem_toDigits
  rw [hplain, String.ofList_toList]

/-- The items of a set stand for it. -/
theorem standsFor_ofTextSet (set : Std.ExtTreeSet String) :
    StandsFor textSet? (ofTextSet set) set := by
  have hset : noteAll ∅ set.toList = set :=
    Std.ExtTreeSet.ext_mem fun text => mem_noteAll_empty.trans Std.ExtTreeSet.mem_toList
  obtain ⟨hwritten, hread⟩ := standsFor_ofTexts set.toList
  refine ⟨hwritten, fun room b => ?_⟩
  simp only [textSet?, Option.map_eq_some_iff, ofTextSet, hread]
  constructor
  · rintro ⟨_, ⟨hlevels, rfl⟩, rfl⟩
    exact ⟨hlevels, hset.symm⟩
  · rintro ⟨hlevels, rfl⟩
    exact ⟨_, ⟨hlevels, rfl⟩, hset⟩

/-! ### Records -/

/-- **The names of the fields of a record**: they differ, and are written as they are. -/
def FieldNames (names : List String) : Prop :=
  names.Nodup ∧ ∀ name ∈ names, escape name.toList = name.toList

instance (names : List String) : Decidable (FieldNames names) :=
  inferInstanceAs (Decidable (_ ∧ _))

theorem writtenBody_of_plain {name : String} (h : escape name.toList = name.toList) :
    WrittenBody name := ⟨name.toList, by rw [h, String.ofList_toList]⟩

theorem text?_of_plain {name : String} (h : escape name.toList = name.toList) :
    text? (.string name) = some name := by
  have hread := text?_ofString name
  rwa [ofString, h, String.ofList_toList] at hread

/-- Reading items one by one that are each read as they are. -/
theorem mapM_eq_self {f : α → Option α} {items : List α} (h : ∀ a ∈ items, f a = some a) :
    items.mapM f = some items := by
  induction items with
  | nil => rfl
  | cons a rest ih =>
    obtain ⟨ha, hrest⟩ := List.forall_mem_cons.mp h
    rw [List.mapM_cons, ha, ih hrest]
    rfl

/-- A record that gives every field has the values of all. -/
theorem record?_ofFields {fields : List (String × Json)} (hnames : FieldNames (fields.map (·.1)))
    (required : Nat) : record? (fields.map (·.1)) required (ofFields fields) =
      some (fields.map fun field => some field.2) := by
  obtain ⟨hdistinct, hplain⟩ := hnames
  have hmembers : (fields.mapM fun (member : String × Json) => do
      return (← text? (.string member.1), member.2)) = some fields :=
    mapM_eq_self fun field hfield => by
      rw [text?_of_plain (hplain _ (List.mem_map_of_mem hfield))]
      rfl
  have honce (name : String) : fields.countP (fun field => field.1 == name) ≤ 1 := by
    have hcount := List.nodup_iff_count_le_one.mp hdistinct name
    rwa [List.count, List.countP_map] at hcount
  have hfind (field : String × Json) (hfield : field ∈ fields) :
      fields.find? (fun other => other.1 == field.1) = some field := by
    obtain ⟨found, hfound⟩ : ∃ found, fields.find? (fun other => other.1 == field.1) = some found :=
      Option.isSome_iff_exists.mp (List.find?_isSome.mpr ⟨field, hfield, beq_self_eq_true _⟩)
    have hsame := List.find?_some (p := fun other : String × Json => other.1 == field.1) hfound
    rw [hfound, List.inj_on_of_nodup_map hdistinct (List.mem_of_find?_eq_some hfound) hfield
      (eq_of_beq hsame)]
  rw [ofFields, record?]
  refine Option.bind_eq_some_iff.mpr ⟨fields, hmembers, ?_⟩
  rw [if_pos (List.all_eq_true.mpr fun name _ => decide_eq_true (honce name))]
  refine congrArg some ?_
  rw [List.map_map]
  refine List.map_congr_left fun field hfield => ?_
  rw [Function.comp_apply, hfind field hfield, Option.map_some]

/-- **The fields of a record** stand for what they are read as. -/
theorem StandsFor.record {names : List String} {required : Nat}
    {read : Nat → List (Option Json) → Option α} {fields : List (String × Json)} {a : α}
    (hnames : FieldNames names) (heq : fields.map (·.1) = names)
    (written : ∀ field ∈ fields, Written field.2)
    (read_iff : ∀ room b, read room (fields.map fun field => some field.2) = some b ↔
      (∀ field ∈ fields, field.2.levels ≤ room) ∧ a = b) :
    StandsFor (withRecord? names required read) (ofFields fields) a := by
  subst heq
  refine ⟨.object (fun field hfield => ?_) written, fun room b => ?_⟩
  · exact writtenBody_of_plain (hnames.2 _ (List.mem_map_of_mem hfield))
  · cases room with
    | zero => exact iff_of_false nofun fun hle => not_levels_object_le _ hle.1
    | succ room =>
      rw [withRecord?, record?_ofFields hnames, Option.bind_some, read_iff, ofFields,
        levels_object_le]

/-! ### Options and variants -/

/-- A number that may be left out. -/
@[simp] theorem optional?_ofOption (o : Option UInt64) :
    optional? uint64? (ofOption (fun n => ofNat n.toNat) o) = some o := by
  cases o with
  | none => rfl
  | some n => exact congrArg (Option.map some) (uint64?_ofNat n)

@[simp] theorem levels_ofOption (o : Option UInt64) :
    (ofOption (fun n => ofNat n.toNat) o).levels = 0 := by
  cases o with
  | none => exact levels_null
  | some n => exact levels_ofNat n.toNat

theorem written_ofOption (o : Option UInt64) : Written (ofOption (fun n => ofNat n.toNat) o) := by
  cases o with
  | none => exact .null
  | some n => exact .nat n.toNat

/-- The name of a variant that carries nothing stands for it. -/
theorem StandsFor.constant {value : String → Option α} {name : String} {a : α}
    (h : value name = some a) : StandsFor (constant? value) (ofString name) a := by
  refine ⟨.string name, fun room b => ?_⟩
  have hvariant : variant? (ofString name) = some (name, none) := by
    rw [ofString, variant?, ← ofString, text?_ofString, Option.map_some]
  rw [constant?, hvariant, levels_ofString]
  dsimp only
  rw [h, Option.some.injEq, and_iff_right (Nat.zero_le room)]

/-- A variant that carries something is an object with one member. -/
theorem variant?_ofFields {name : String} (h : escape name.toList = name.toList) (content : Json) :
    variant? (ofFields [(name, content)]) = some (name, some content) :=
  congrArg (Option.map fun name => (name, some content)) (text?_of_plain h)

end Json

end StagedQuery
