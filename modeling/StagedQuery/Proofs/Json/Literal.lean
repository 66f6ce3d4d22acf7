import Mathlib.Tactic.SplitIfs
import StagedQuery.Json.Parser
import StagedQuery.Json.Reading
import StagedQuery.Json.Writing

/-!
# Strings and numbers as they are written

What writing makes of a text is read back as that text (`StagedQuery.Json.unescape_escape`), and
what it makes of a number as that number (`StagedQuery.Json.boundedDigits_toDigits`). Before that,
the parser has to find where the literal ends: the body of a string at the first quote that is not
part of an escape (`StagedQuery.Json.scanString_escape`), a number at the first character that does
not go on with it (`StagedQuery.Json.scanNumber_toDigits`).

A text is written character by character, and how a character is written does not depend on its
neighbours. So each of the facts about strings comes down to one about the characters that
`StagedQuery.Json.escapeChar` makes of one, whatever stands behind them.
-/

namespace StagedQuery

namespace Json

/-! ### One character of a string -/

theorem hexValue_hexDigit : ∀ n < 16, hexValue? (hexDigit n) = some n := by decide

theorem isHexDigit_hexDigit : ∀ n < 16, isHexDigit (hexDigit n) = true := by decide

/-- **How a character is written**: as an escape of one character, as an escape by its number, or
as it is. -/
theorem escapeChar_cases (c : Char) :
    (∃ e, isShortEscape e = true ∧ shortEscape? e = some c ∧ e ≠ 'u' ∧ escapeChar c = ['\\', e]) ∨
    (c.toNat < 0x20 ∧ escapeChar c =
      ['\\', 'u', '0', '0', hexDigit (c.toNat / 16), hexDigit (c.toNat % 16)]) ∨
    (c ≠ '"' ∧ c ≠ '\\' ∧ ¬c.toNat < 0x20 ∧ escapeChar c = [c]) := by
  obtain ⟨written, hwritten⟩ : ∃ written, escapeChar c = written := ⟨_, rfl⟩
  rw [hwritten]
  rw [escapeChar] at hwritten
  split_ifs at hwritten with hquote hback h8 h12 h10 h13 h9 hcontrol
  · exact .inl ⟨'"', by decide, by rw [hquote]; rfl, by decide, hwritten.symm⟩
  · exact .inl ⟨'\\', by decide, by rw [hback]; rfl, by decide, hwritten.symm⟩
  · exact .inl ⟨'b', by decide, by rw [h8]; rfl, by decide, hwritten.symm⟩
  · exact .inl ⟨'f', by decide, by rw [h12]; rfl, by decide, hwritten.symm⟩
  · exact .inl ⟨'n', by decide, by rw [h10]; rfl, by decide, hwritten.symm⟩
  · exact .inl ⟨'r', by decide, by rw [h13]; rfl, by decide, hwritten.symm⟩
  · exact .inl ⟨'t', by decide, by rw [h9]; rfl, by decide, hwritten.symm⟩
  · exact .inr (.inl ⟨hcontrol, hwritten.symm⟩)
  · exact .inr (.inr ⟨hquote, hback, hcontrol, hwritten.symm⟩)

/-- The number of a control character, as writing spells it. -/
theorem hexValues_hexDigit {n : Nat} (h : n < 0x20) :
    hexValues? '0' '0' (hexDigit (n / 16)) (hexDigit (n % 16)) = some n := by
  have hhigh := hexValue_hexDigit (n / 16) (by omega)
  have hlow := hexValue_hexDigit (n % 16) (by omega)
  have hzero : hexValue? '0' = some 0 := rfl
  rw [hexValues?, hzero, hhigh, hlow]
  simp only [Option.bind_eq_bind, Option.bind_some, Option.pure_def, Option.some.injEq]
  omega

/-- **A character that is written is read back**, whatever follows. -/
theorem unescape_escapeChar (c : Char) (rest : List Char) :
    unescape (escapeChar c ++ rest) = (unescape rest).map (c :: ·) := by
  rcases escapeChar_cases c with ⟨e, -, hmeant, hne, heq⟩ | ⟨hlt, heq⟩ | ⟨-, hback, -, heq⟩
  · rw [heq, List.cons_append, List.singleton_append,
      unescape.eq_3 e rest (fun _ _ _ _ _ hu _ => hne hu), hmeant]
  · have hlow : isLowSurrogate c.toNat = false := by
      simp only [isLowSurrogate, Bool.and_eq_false_imp, decide_eq_true_eq, decide_eq_false_iff_not]
      omega
    have hhigh : isHighSurrogate c.toNat = false := by
      simp only [isHighSurrogate, Bool.and_eq_false_imp, decide_eq_true_eq, decide_eq_false_iff_not]
      omega
    simp only [heq, List.cons_append, List.nil_append, unescape.eq_2, hexValues_hexDigit hlt, hlow,
      hhigh, Bool.false_eq_true, if_false, Char.ofNat_toNat]
  · rw [heq, List.singleton_append, unescape.eq_5 c rest (fun _ _ _ _ _ h _ => hback h)
      (fun _ _ h _ => hback h) (fun h _ => hback h)]

/-- **A character that is written is passed over**, whatever follows. -/
theorem scanString_escapeChar (c : Char) (rest : List Char) :
    scanString (escapeChar c ++ rest) =
      (scanString rest).map fun (body, after) => (escapeChar c ++ body, after) := by
  rcases escapeChar_cases c with ⟨e, hshort, -, hne, heq⟩ | ⟨hlt, heq⟩ | ⟨hquote, hback, hge, heq⟩
  · rw [heq, List.cons_append, List.singleton_append,
      scanString.eq_4 e rest (fun _ _ _ _ _ hu _ => hne hu), if_pos hshort]
    rfl
  · have hhigh := isHexDigit_hexDigit (c.toNat / 16) (by omega)
    have hlow := isHexDigit_hexDigit (c.toNat % 16) (by omega)
    have hzero : isHexDigit '0' = true := rfl
    simp only [heq, List.cons_append, List.nil_append, scanString.eq_3, hzero, hhigh, hlow,
      Bool.and_self, if_true]
  · rw [heq, List.singleton_append, scanString.eq_5 c rest hquote
      (fun _ _ _ _ _ h _ => hback h) (fun _ _ h _ => hback h), if_neg (by simp [hback, hge])]
    rfl

/-! ### Strings -/

/-- **A text that is written is read back.** -/
theorem unescape_escape (text : List Char) : unescape (escape text) = some text := by
  induction text with
  | nil => rfl
  | cons c rest ih =>
    rw [escape, List.flatMap_cons, unescape_escapeChar, ← escape, ih, Option.map_some]

/-- **The body of a string ends at its quote.** -/
theorem scanString_escape (text rest : List Char) :
    scanString (escape text ++ '"' :: rest) = some (escape text, rest) := by
  induction text with
  | nil => exact scanString.eq_2 rest
  | cons c text ih =>
    rw [escape, List.flatMap_cons, List.append_assoc, scanString_escapeChar, ← escape, ih,
      Option.map_some]

/-- A string means the text that it was made from. -/
@[simp] theorem text?_ofString (text : String) : text? (ofString text) = some text := by
  rw [ofString, text?, String.toList_ofList, unescape_escape, Option.map_some, String.ofList_toList]

/-! ### Numbers -/

/-- The digits of a number, of which the first is not a zero unless it is alone. -/
theorem toDigits_cases (n : Nat) : Nat.toDigits 10 n = ['0'] ∨
    ∃ d rest, Nat.toDigits 10 n = d :: rest ∧ d ≠ '0' := by
  induction n using Nat.strongRecOn with
  | ind n ih =>
    rcases Nat.lt_or_ge n 10 with hlt | hge
    · rw [Nat.toDigits_of_lt_base hlt]
      by_cases hzero : n.digitChar = '0'
      · exact .inl (by rw [hzero])
      · exact .inr ⟨_, [], rfl, hzero⟩
    · rw [Nat.toDigits_of_base_le (by omega) hge]
      rcases ih (n / 10) (by omega) with hzero | ⟨d, rest, heq, hne⟩
      · -- only zero itself is written with a zero in front
        have hvalue := congrArg (Nat.ofDigitChars 10 · 0) hzero
        rw [Nat.ofDigitChars_ten_toDigits] at hvalue
        change n / 10 = 0 at hvalue
        omega
      · exact .inr ⟨d, rest ++ [(n % 10).digitChar], by rw [heq, List.cons_append], hne⟩

theorem isDigit_of_mem_toDigits {n : Nat} : ∀ c ∈ Nat.toDigits 10 n, c.isDigit = true :=
  fun _ => Nat.isDigit_of_mem_toDigits (by decide) (by decide)

/-- The number does not go on with this text. -/
def EndsNumber (rest : List Char) : Prop :=
  ∀ c ∈ rest.head?, c.isDigit = false ∧ c ≠ '.' ∧ c ≠ 'e' ∧ c ≠ 'E'

/-- Digits end where the number does. -/
theorem scanDigits_append {digits rest : List Char} (hne : digits ≠ [])
    (hdigits : ∀ c ∈ digits, c.isDigit = true) (hrest : EndsNumber rest) :
    scanDigits (digits ++ rest) = some (digits, rest) := by
  have hnone : rest.takeWhile Char.isDigit = [] ∧ rest.dropWhile Char.isDigit = rest := by
    cases rest with
    | nil => exact ⟨rfl, rfl⟩
    | cons c rest =>
      have hc := (hrest c rfl).1
      exact ⟨List.takeWhile_cons_of_neg (by simp [hc]), List.dropWhile_cons_of_neg (by simp [hc])⟩
  rw [scanDigits, List.takeWhile_append_of_pos hdigits, List.dropWhile_append_of_pos hdigits,
    hnone.1, hnone.2, List.append_nil]
  cases digits with
  | nil => exact absurd rfl hne
  | cons d digits => rfl

theorem scanFraction_of_endsNumber {rest : List Char} (hrest : EndsNumber rest) :
    scanFraction rest = some ([], rest) := by
  unfold scanFraction
  split
  · exact absurd rfl (hrest _ rfl).2.1
  · rfl

theorem scanExponent_of_endsNumber {rest : List Char} (hrest : EndsNumber rest) :
    scanExponent rest = some ([], rest) := by
  unfold scanExponent
  split
  · obtain ⟨-, -, hlower, hupper⟩ := hrest _ rfl
    exact if_neg (by simp [hlower, hupper])
  · obtain ⟨-, -, hlower, hupper⟩ := hrest _ rfl
    exact if_neg (by simp [hlower, hupper])
  · rfl

/-- **A number ends where nothing goes on with it.** -/
theorem scanNumber_toDigits (n : Nat) {rest : List Char} (hrest : EndsNumber rest) :
    scanNumber (Nat.toDigits 10 n ++ rest) = some (Nat.toDigits 10 n, rest) := by
  have hdigits := isDigit_of_mem_toDigits (n := n)
  have hwhole : scanWhole (Nat.toDigits 10 n ++ rest) = some (Nat.toDigits 10 n, rest) := by
    rcases toDigits_cases n with hzero | ⟨d, digits, heq, hne⟩
    · rw [hzero]
      rfl
    · have hscan := scanDigits_append Nat.toDigits_ne_nil hdigits hrest
      rw [heq, List.cons_append] at hscan ⊢
      rw [scanWhole.eq_2 _ (fun _ h => hne (List.cons.inj h).1), hscan]
  have hunsigned : scanUnsigned (Nat.toDigits 10 n ++ rest) =
      some (Nat.toDigits 10 n, rest) := by
    rw [scanUnsigned, hwhole]
    simp [scanFraction_of_endsNumber hrest, scanExponent_of_endsNumber hrest]
  cases hcons : Nat.toDigits 10 n with
  | nil => exact absurd hcons Nat.toDigits_ne_nil
  | cons d digits =>
    rw [hcons] at hunsigned hdigits
    have hsign : d ≠ '-' := by
      rintro rfl
      exact absurd (hdigits _ List.mem_cons_self) (by decide)
    rw [List.cons_append] at hunsigned ⊢
    rw [scanNumber.eq_2 _ (fun _ h => hsign (List.cons.inj h).1), hunsigned]

theorem digitsValue_toDigits (n : Nat) : digitsValue (Nat.toDigits 10 n) = n := by
  have hvalue := Nat.ofDigitChars_ten_toDigits (n := n)
  rw [Nat.ofDigitChars_eq_foldl] at hvalue
  rw [digitsValue]
  simpa only [Nat.mul_comm 10] using hvalue

/-- **A number that is written is read back**, if it is below the bound. -/
theorem boundedDigits_toDigits {n bound : Nat} (h : n < bound) :
    boundedDigits? bound (Nat.toDigits 10 n) = some n := by
  rw [boundedDigits?, digitsValue_toDigits, if_pos]
  exact ⟨Nat.toDigits_ne_nil, List.all_eq_true.mpr isDigit_of_mem_toDigits, h⟩

theorem toList_toString (n : Nat) : (toString n).toList = Nat.toDigits 10 n := by
  rw [Nat.toString_eq_ofList_toDigits, String.toList_ofList]

theorem nat?_ofNat {n bound : Nat} (h : n < bound) : nat? bound (.ofNat n) = some n := by
  rw [ofNat, nat?, toList_toString, boundedDigits_toDigits h]

@[simp] theorem uint16?_ofNat (n : UInt16) : uint16? (.ofNat n.toNat) = some n := by
  rw [uint16?, nat?_ofNat n.toNat_lt, Option.map_some, UInt16.ofNat_toNat]

@[simp] theorem uint32?_ofNat (n : UInt32) : uint32? (.ofNat n.toNat) = some n := by
  rw [uint32?, nat?_ofNat n.toNat_lt, Option.map_some, UInt32.ofNat_toNat]

@[simp] theorem uint64?_ofNat (n : UInt64) : uint64? (.ofNat n.toNat) = some n := by
  rw [uint64?, nat?_ofNat n.toNat_lt, Option.map_some, UInt64.ofNat_toNat]

@[simp] theorem id?_ofId {what : Named} (id : Id what) : id? (ofId id) = some id := by
  rw [id?, ofId, uint32?_ofNat, Option.map_some]

/-- **An id that is written as a name is read back**: there is no zero in front. -/
theorem idName?_text {what : Named} (id : Id what) : idName? id.text = some id := by
  have hread : (boundedDigits? UInt32.size (Nat.toDigits 10 id.number.toNat)).map Id.ofNat =
      some id := by
    rw [boundedDigits_toDigits id.number.toNat_lt, Option.map_some, Id.ofNat, UInt32.ofNat_toNat]
  rw [idName?, Id.text, toList_toString]
  rcases toDigits_cases id.number.toNat with hzero | ⟨d, digits, heq, hne⟩
  · rw [hzero] at hread ⊢
    exact hread
  · rw [heq] at hread ⊢
    split
    · rename_i hcons
      exact absurd (List.cons.inj hcons).1 hne
    · exact hread

end Json

end StagedQuery
