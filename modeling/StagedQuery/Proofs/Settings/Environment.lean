import Mathlib.Data.List.DropRight
import StagedQuery.Proofs.Assignment.Placement
import StagedQuery.Settings.Environment

/-!
# Which environments give settings

The variables of the environment are texts, and any text may stand in them. This file says which
texts are accepted, without the reader: a text **denotes** a number if it is a numeral for it but
for white space on either side (`StagedQuery.Text.Denotes`), and a numeral is one decimal digit or
more, with at most one plus sign in front (`StagedQuery.Text.Numeral`).

* `StagedQuery.Text.readNumeral_eq_ok`: reading below a bound succeeds with `n` exactly for the
  numerals for `n`, if `n` is below the bound. The reader gives up at the first digit that takes it
  to the bound, which loses nothing, since no further digit makes a value smaller.
* `StagedQuery.Environment.settings_accepted`: there are settings exactly if each variable that is
  set denotes a number within its limits, none of which is zero; the settings are then those
  numbers, and they make sense.
* `StagedQuery.Environment.exists_settings_eq`: all settings that make sense can be had from some
  environment.
-/

namespace StagedQuery

namespace Text

/-! ### Numerals -/

/-- The characters are decimal digits, at least one, whose value is `n`. Leading zeros are
digits like any other. -/
structure Digits (n : Nat) (digits : List Char) : Prop where
  nonempty : digits ≠ []
  isDigit : ∀ c ∈ digits, c.isDigit = true
  value : Nat.ofDigitChars 10 digits 0 = n

/-- **A numeral** for `n`: digits, with at most one plus sign in front. -/
inductive Numeral (n : Nat) : List Char → Prop
  | plain {digits : List Char} (h : Digits n digits) : Numeral n digits
  | signed {digits : List Char} (h : Digits n digits) : Numeral n ('+' :: digits)

theorem digits_toDigits (n : Nat) : Digits n (Nat.toDigits 10 n) where
  nonempty := Nat.toDigits_ne_nil
  isDigit := fun _ => Nat.isDigit_of_mem_toDigits (by decide) (by decide)
  value := Nat.ofDigitChars_toDigits (by decide) (by decide)

theorem not_digits_plus {n : Nat} {rest : List Char} : ¬Digits n ('+' :: rest) := fun h =>
  absurd (h.isDigit '+' List.mem_cons_self) (by decide)

theorem numeral_plus_iff {n : Nat} {digits : List Char} :
    Numeral n ('+' :: digits) ↔ Digits n digits := by
  constructor
  · intro h
    cases h with
    | plain h => exact absurd h not_digits_plus
    | signed h => exact h
  · exact .signed

theorem numeral_iff_of_no_plus {n : Nat} {text : List Char} (h : ∀ rest, text ≠ '+' :: rest) :
    Numeral n text ↔ Digits n text := by
  constructor
  · intro hnumeral
    cases hnumeral with
    | plain hdigits => exact hdigits
    | signed => exact absurd rfl (h _)
  · exact .plain

/-- The value does not get smaller with further digits. -/
theorem le_ofDigitChars (digits : List Char) (value : Nat) :
    value ≤ Nat.ofDigitChars 10 digits value := by
  induction digits generalizing value with
  | nil => exact Nat.ofDigitChars_nil.ge
  | cons c rest ih =>
    rw [Nat.ofDigitChars_cons]
    exact le_trans (by omega) (ih _)

theorem readDigits_eq_ok {bound value n : Nat} {digits : List Char} (hvalue : value < bound) :
    readDigits bound value digits = .ok n ↔
      (∀ c ∈ digits, c.isDigit = true) ∧ Nat.ofDigitChars 10 digits value = n ∧ n < bound := by
  induction digits generalizing value with
  | nil =>
    rw [readDigits, Except.ok.injEq, Nat.ofDigitChars_nil]
    exact ⟨fun h => ⟨List.forall_mem_nil _, h, h ▸ hvalue⟩, fun h => h.2.1⟩
  | cons c rest ih =>
    have hnext : 10 * value + (c.toNat - '0'.toNat) = value * 10 + digitValue c := by
      rw [digitValue, Nat.mul_comm]
    rw [readDigits, List.forall_mem_cons, Nat.ofDigitChars_cons, hnext]
    by_cases hdigit : c.isDigit = true
    · rw [if_pos hdigit]
      by_cases hlt : value * 10 + digitValue c < bound
      · rw [if_pos hlt, ih hlt, and_assoc, and_iff_right hdigit]
      · -- the part read so far has reached the bound, and the rest does not take it back
        rw [if_neg hlt]
        refine iff_of_false nofun ?_
        rintro ⟨-, rfl, hn⟩
        exact hlt (lt_of_le_of_lt (le_ofDigitChars rest _) hn)
    · rw [if_neg hdigit]
      exact iff_of_false nofun fun h => hdigit h.1.1

/-- Reading the digits of a numeral from the start. -/
theorem readDigits_zero_eq_ok {bound n : Nat} {digits : List Char} (hbound : 0 < bound)
    (hne : digits ≠ []) :
    readDigits bound 0 digits = .ok n ↔ Digits n digits ∧ n < bound := by
  rw [readDigits_eq_ok hbound, ← and_assoc]
  exact and_congr_left fun _ =>
    ⟨fun h => ⟨hne, h.1, h.2⟩, fun h => ⟨h.isDigit, h.value⟩⟩

/-- **What is read** are the numerals below the bound. -/
theorem readNumeral_eq_ok {bound n : Nat} {text : List Char} (hbound : 0 < bound) :
    readNumeral bound text = .ok n ↔ Numeral n text ∧ n < bound := by
  fun_cases readNumeral bound text with
  | case1 =>
    rw [numeral_iff_of_no_plus fun rest => (List.cons_ne_nil '+' rest).symm]
    exact iff_of_false nofun fun h => h.1.nonempty rfl
  | case2 =>
    rw [numeral_plus_iff]
    exact iff_of_false nofun fun h => h.1.nonempty rfl
  | case3 digits hne =>
    rw [numeral_plus_iff]
    exact readDigits_zero_eq_ok hbound hne
  | case4 _ hne _ hplus =>
    rw [numeral_iff_of_no_plus hplus]
    exact readDigits_zero_eq_ok hbound hne

/-! ### White space around a numeral -/

/-- **The text denotes `n`**: it is a numeral for `n`, with nothing but white space before and after
it. -/
def Denotes (text : String) (n : Nat) : Prop :=
  ∃ before numeral after, text.toList = before ++ numeral ++ after ∧ Numeral n numeral ∧
    (∀ c ∈ before, isBlank c = true) ∧ ∀ c ∈ after, isBlank c = true

theorem isBlank_eq_false {c : Char} (h : c = '+' ∨ c.isDigit = true) : isBlank c = false := by
  have hcode : 0x2B ≤ c.toNat ∧ c.toNat ≤ 0x39 := by
    rcases h with rfl | h
    · decide
    · obtain ⟨hlow, hhigh⟩ := Char.isDigit_iff_toNat.mp h
      exact ⟨le_trans (by decide) hlow, hhigh⟩
  have hranges : ∀ range ∈ blankRanges, range.2 < 0x2B ∨ 0x39 < range.1 := by decide
  rw [isBlank, ← Bool.not_eq_true, inRanges_eq_true_iff]
  rintro ⟨range, hrange, hlow, hhigh⟩
  rcases hranges range hrange with h | h <;> omega

theorem Numeral.isBlank {n : Nat} {text : List Char} (h : Numeral n text) :
    ∀ c ∈ text, isBlank c = false := by
  cases h with
  | plain h => exact fun c hc => isBlank_eq_false (.inr (h.isDigit c hc))
  | signed h =>
    exact List.forall_mem_cons.mpr
      ⟨isBlank_eq_false (.inl rfl), fun c hc => isBlank_eq_false (.inr (h.isDigit c hc))⟩

theorem Numeral.ne_nil {n : Nat} {text : List Char} (h : Numeral n text) : text ≠ [] := by
  cases h with
  | plain h => exact h.nonempty
  | signed h => exact List.cons_ne_nil _ _

theorem dropWhile_isBlank_append {before rest : List Char}
    (hbefore : ∀ c ∈ before, isBlank c = true) (hrest : ∀ c ∈ rest.head?, isBlank c = false) :
    (before ++ rest).dropWhile isBlank = rest := by
  rw [List.dropWhile_append_of_pos hbefore]
  cases rest with
  | nil => rfl
  | cons c rest =>
    rw [List.dropWhile_cons_of_neg]
    exact Bool.not_eq_true _ ▸ hrest c rfl

/-- White space around a text that has none is what is taken off. -/
theorem trimBlank_append {before text after : List Char} (hne : text ≠ [])
    (htext : ∀ c ∈ text, isBlank c = false) (hbefore : ∀ c ∈ before, isBlank c = true)
    (hafter : ∀ c ∈ after, isBlank c = true) : trimBlank (before ++ text ++ after) = text := by
  have hhead : ∀ c ∈ (text ++ after).head?, isBlank c = false := by
    rw [List.head?_append_of_ne_nil _ hne]
    exact fun c hc => htext c (List.mem_of_mem_head? hc)
  have hlast : ∀ c ∈ text.reverse.head?, isBlank c = false := fun c hc =>
    htext c (List.mem_reverse.mp (List.mem_of_mem_head? hc))
  rw [trimBlank, List.append_assoc, dropWhile_isBlank_append hbefore hhead, List.reverse_append,
    dropWhile_isBlank_append (fun c hc => hafter c (List.mem_reverse.mp hc)) hlast,
    List.reverse_reverse]

/-- What is taken off is white space. -/
theorem exists_trimBlank (text : List Char) :
    ∃ before after, text = before ++ trimBlank text ++ after ∧
      (∀ c ∈ before, isBlank c = true) ∧ ∀ c ∈ after, isBlank c = true := by
  refine ⟨text.takeWhile isBlank, (text.dropWhile isBlank).rtakeWhile isBlank, ?_,
    fun c hc => List.mem_takeWhile_imp hc, fun c hc => List.mem_rtakeWhile_imp hc⟩
  have htrim : trimBlank text = (text.dropWhile isBlank).rdropWhile isBlank := rfl
  rw [htrim, List.append_assoc, List.rdropWhile_append_rtakeWhile, List.takeWhile_append_dropWhile]

/-- What is left of a text without the white space around it is a numeral for what the text
denotes. -/
theorem numeral_trimBlank_iff {text : String} {n : Nat} :
    Numeral n (trimBlank text.toList) ↔ Denotes text n := by
  constructor
  · intro h
    obtain ⟨before, after, htext, hbefore, hafter⟩ := exists_trimBlank text.toList
    exact ⟨before, _, after, htext, h, hbefore, hafter⟩
  · rintro ⟨before, numeral, after, htext, h, hbefore, hafter⟩
    rwa [htext, trimBlank_append h.ne_nil h.isBlank hbefore hafter]

/-- A text denotes one number at most. -/
theorem Denotes.unique {text : String} {n m : Nat} (hn : Denotes text n) (hm : Denotes text m) :
    n = m := by
  have hread {k : Nat} (hk : Denotes text k) (hle : k ≤ n + m) :
      readNumeral (n + m + 1) (trimBlank text.toList) = .ok k :=
    (readNumeral_eq_ok (Nat.succ_pos _)).mpr ⟨numeral_trimBlank_iff.mpr hk, Nat.lt_succ_of_le hle⟩
  have hsame := (hread hn (Nat.le_add_right n m)).symm.trans (hread hm (Nat.le_add_left m n))
  exact Except.ok.inj hsame

/-- The decimal digits of a number denote it. -/
theorem denotes_toDigits (n : Nat) : Denotes (String.ofList (Nat.toDigits 10 n)) n :=
  ⟨[], Nat.toDigits 10 n, [], by rw [String.toList_ofList, List.append_nil, List.nil_append],
    .plain (digits_toDigits n), List.forall_mem_nil _, List.forall_mem_nil _⟩

end Text

namespace Environment

open Text

/-! ### One variable -/

section

variable {α : Type} {setting : String} {bound : Nat} {standard : α} {ofNat : Nat → α}
  {content : Option String} {a : α}

theorem readSetting_eq_ok {value : String} {n : Nat} (hbound : 0 < bound) :
    readSetting setting bound value = .ok n ↔ Denotes value n ∧ n < bound := by
  rw [← numeral_trimBlank_iff, ← readNumeral_eq_ok hbound, readSetting]
  cases readNumeral bound (trimBlank value.toList) with
  | ok m => rw [Except.ok.injEq, Except.ok.injEq]
  | error fault => exact iff_of_false nofun nofun

/-- What a variable says of its setting: the standard value where it is not set, and the number
it denotes otherwise. -/
inductive Says (standard : α) (ofNat : Nat → α) (bound : Nat) : Option String → α → Prop
  | unset : Says standard ofNat bound none standard
  | set {value : String} {n : Nat} (denotes : Denotes value n) (below : n < bound) :
    Says standard ofNat bound (some value) (ofNat n)

/-- The reading of one variable. -/
def readVariable (setting : String) (bound : Nat) (standard : α) (ofNat : Nat → α) :
    Option String → Except PlanError α
  | none => .ok standard
  | some value => ofNat <$> readSetting setting bound value

theorem readVariable_eq_ok (hbound : 0 < bound) :
    readVariable setting bound standard ofNat content = .ok a ↔
      Says standard ofNat bound content a := by
  cases content with
  | none =>
    rw [readVariable, Except.ok.injEq]
    constructor
    · rintro rfl
      exact .unset
    · intro h
      cases h with
      | unset => rfl
  | some value =>
    refine map_eq_ok.trans ?_
    simp only [readSetting_eq_ok hbound]
    constructor
    · rintro ⟨n, ⟨hdenotes, hlt⟩, rfl⟩
      exact .set hdenotes hlt
    · intro h
      cases h with
      | set hdenotes hlt => exact ⟨_, ⟨hdenotes, hlt⟩, rfl⟩

theorem Says.eq_of_unset (h : Says standard ofNat bound content a) (hunset : content = none) :
    a = standard := by
  subst hunset
  cases h with
  | unset => rfl

theorem Says.eq_of_set (h : Says standard ofNat bound content a) {value : String} {n : Nat}
    (hset : content = some value) (hn : Denotes value n) : n < bound ∧ a = ofNat n := by
  subst hset
  cases h with
  | set denotes below =>
    obtain rfl := denotes.unique hn
    exact ⟨below, rfl⟩

/-- A number below the bound is said by its decimal digits. -/
theorem says_toDigits {n : Nat} (hn : n < bound) :
    Says standard ofNat bound (some (String.ofList (Nat.toDigits 10 n))) (ofNat n) :=
  .set (denotes_toDigits n) hn

/-- What a variable says is not zero, exactly if the variable denotes a number that is not zero
and is below the bound, or is not set. -/
theorem exists_says_ne_iff {zero : α} (hstandard : standard ≠ zero)
    (hzero : ∀ n < bound, ofNat n = zero ↔ n = 0) :
    (∃ a, Says standard ofNat bound content a ∧ a ≠ zero) ↔
      ∀ value, content = some value → ∃ n, Denotes value n ∧ 1 ≤ n ∧ n ≤ bound - 1 := by
  constructor
  · rintro ⟨a, hsays, hne⟩ value hset
    cases hsays with
    | unset => exact nomatch hset
    | @set _ n denotes below =>
      obtain rfl := Option.some.inj hset
      have hpos : n ≠ 0 := fun h => hne ((hzero n below).mpr h)
      exact ⟨n, denotes, Nat.one_le_iff_ne_zero.mpr hpos, Nat.le_sub_one_of_lt below⟩
  · intro h
    cases content with
    | none => exact ⟨standard, .unset, hstandard⟩
    | some value =>
      obtain ⟨n, hdenotes, hpos, hle⟩ := h value rfl
      have hlt : n < bound := by omega
      have hne : ofNat n ≠ zero := fun h => Nat.one_le_iff_ne_zero.mp hpos ((hzero n hlt).mp h)
      exact ⟨ofNat n, .set hdenotes hlt, hne⟩

theorem failsOnly_readVariable (content : Option String) :
    FailsOnly (fun error => error.kind = .invalidSettings)
      (readVariable setting bound standard ofNat content) := by
  intro error h
  cases content with
  | none => exact nomatch h
  | some value =>
    have hread := map_eq_error.mp h
    rw [readSetting] at hread
    split at hread
    · exact nomatch hread
    · cases hread
      rfl

end

/-! ### Both variables -/

variable {environment : Environment} {settings : Settings}

/-- The settings are read one variable after the other and then checked. -/
theorem settings_eq (environment : Environment) :
    environment.settings =
      readVariable workersVariable UInt32.size Settings.standard.workersPerServer UInt32.ofNat
          environment.workersPerServer >>= fun workersPerServer =>
        readVariable serversVariable UInt64.size Settings.standard.serverLimit (some ∘ UInt64.ofNat)
            environment.serverLimit >>= fun serverLimit =>
          ({ workersPerServer, serverLimit } : Settings).check >>= fun _ =>
            pure { workersPerServer, serverLimit } := by
  rw [settings]
  cases environment.workersPerServer <;> cases environment.serverLimit <;> rfl

theorem settings_eq_ok :
    environment.settings = .ok settings ↔
      Says Settings.standard.workersPerServer UInt32.ofNat UInt32.size
          environment.workersPerServer settings.workersPerServer ∧
        Says Settings.standard.serverLimit (some ∘ UInt64.ofNat) UInt64.size
            environment.serverLimit settings.serverLimit ∧
          settings.check = .ok () := by
  have h32 : 0 < UInt32.size := by decide
  have h64 : 0 < UInt64.size := by decide
  simp only [settings_eq, bind_eq_ok, readVariable_eq_ok h32, readVariable_eq_ok h64, pure_eq_ok]
  constructor
  · rintro ⟨workersPerServer, hworkers, serverLimit, hservers, ⟨⟩, hcheck, rfl⟩
    exact ⟨hworkers, hservers, hcheck⟩
  · rintro ⟨hworkers, hservers, hcheck⟩
    exact ⟨_, hworkers, _, hservers, (), hcheck, rfl⟩

/-- **The environment is acceptable**: each variable that is set denotes a number that is not
zero and that its setting can hold. -/
structure Acceptable (environment : Environment) : Prop where
  workersPerServer : ∀ value, environment.workersPerServer = some value →
    ∃ n, Denotes value n ∧ 1 ≤ n ∧ n ≤ 2 ^ 32 - 1
  serverLimit : ∀ value, environment.serverLimit = some value →
    ∃ n, Denotes value n ∧ 1 ≤ n ∧ n ≤ 2 ^ 64 - 1

/-- **The settings are those of the environment**: one worker per server and no limit on the
servers where nothing is set, and the number that is denoted where something is. -/
structure Sets (environment : Environment) (settings : Settings) : Prop where
  workersUnset : environment.workersPerServer = none → settings.workersPerServer = 1
  workersSet : ∀ value n, environment.workersPerServer = some value → Denotes value n →
    settings.workersPerServer.toNat = n
  serversUnset : environment.serverLimit = none → settings.serverLimit = none
  serversSet : ∀ value n, environment.serverLimit = some value → Denotes value n →
    settings.serverLimit.map UInt64.toNat = some n

theorem acceptable_iff :
    environment.Acceptable ↔
      (∃ workersPerServer, Says Settings.standard.workersPerServer UInt32.ofNat UInt32.size
          environment.workersPerServer workersPerServer ∧ workersPerServer ≠ 0) ∧
        ∃ serverLimit, Says Settings.standard.serverLimit (some ∘ UInt64.ofNat) UInt64.size
          environment.serverLimit serverLimit ∧ serverLimit ≠ some 0 := by
  have hworkers : ∀ n < UInt32.size, UInt32.ofNat n = 0 ↔ n = 0 := fun n hn => by
    rw [← UInt32.toNat_inj, UInt32.toNat_ofNat_of_lt' hn, UInt32.toNat_zero]
  have hservers : ∀ n < UInt64.size, (some ∘ UInt64.ofNat) n = some 0 ↔ n = 0 := fun n hn => by
    rw [Function.comp_apply, Option.some.injEq, ← UInt64.toNat_inj, UInt64.toNat_ofNat_of_lt' hn,
      UInt64.toNat_zero]
  rw [exists_says_ne_iff (by decide) hworkers, exists_says_ne_iff (by decide) hservers]
  exact ⟨fun h => ⟨h.workersPerServer, h.serverLimit⟩, fun h => ⟨h.1, h.2⟩⟩

theorem sets_of_settings_eq_ok (h : environment.settings = .ok settings) :
    environment.Sets settings := by
  obtain ⟨hworkers, hservers, -⟩ := settings_eq_ok.mp h
  refine ⟨fun hunset => ?_, fun value n hset hn => ?_, fun hunset => ?_, fun value n hset hn => ?_⟩
  · exact hworkers.eq_of_unset hunset
  · obtain ⟨hlt, heq⟩ := hworkers.eq_of_set hset hn
    rw [heq, UInt32.toNat_ofNat_of_lt' hlt]
  · exact hservers.eq_of_unset hunset
  · obtain ⟨hlt, heq⟩ := hservers.eq_of_set hset hn
    rw [heq, Function.comp_apply, Option.map_some, UInt64.toNat_ofNat_of_lt' hlt]

theorem failsOnly_settings (environment : Environment) :
    FailsOnly (fun error => error.kind = .invalidSettings) environment.settings := by
  rw [settings_eq]
  refine (failsOnly_readVariable _).bind fun workersPerServer =>
    (failsOnly_readVariable _).bind fun serverLimit =>
      FailsOnly.bind ?_ fun _ => failsOnly_ok _
  rw [Settings.check]
  split
  · exact failsOnly_error rfl
  · split
    · exact failsOnly_error rfl
    · exact failsOnly_ok _

/-- **Which environments are accepted.** There are settings exactly if the environment is
acceptable; they are then those of the environment, and they make sense. Any other environment is
refused as holding invalid settings. -/
theorem settings_accepted (environment : Environment) :
    ((∃ settings, environment.settings = .ok settings) ↔ environment.Acceptable) ∧
      (∀ settings, environment.settings = .ok settings →
        environment.Sets settings ∧ settings.check = .ok ()) ∧
      ∀ error, environment.settings = .error error → error.kind = .invalidSettings := by
  refine ⟨?_, fun settings h => ⟨sets_of_settings_eq_ok h, (settings_eq_ok.mp h).2.2⟩,
    failsOnly_settings environment⟩
  simp only [settings_eq_ok, Settings.check_eq_ok, acceptable_iff]
  constructor
  · rintro ⟨settings, hworkers, hservers, hne, hne'⟩
    exact ⟨⟨_, hworkers, hne⟩, _, hservers, hne'⟩
  · rintro ⟨⟨workersPerServer, hworkers, hne⟩, serverLimit, hservers, hne'⟩
    exact ⟨{ workersPerServer, serverLimit }, hworkers, hservers, hne, hne'⟩

/-- White space, a plus sign and leading zeros are no hindrance. -/
example : ({ workersPerServer := some "\t+007 " } : Environment).settings =
    .ok { workersPerServer := 7 } := by decide +kernel

/-- **All settings that make sense can be had** from an environment, by writing out their
numbers. -/
theorem exists_settings_eq (h : settings.check = .ok ()) :
    ∃ environment : Environment, environment.settings = .ok settings := by
  have hworkers : ∃ content, Says Settings.standard.workersPerServer UInt32.ofNat UInt32.size
      content settings.workersPerServer := by
    have hofNat : UInt32.ofNat settings.workersPerServer.toNat = settings.workersPerServer :=
      UInt32.ofNat_toNat
    rw [← hofNat]
    exact ⟨_, says_toDigits settings.workersPerServer.toNat_lt⟩
  have hservers : ∃ content, Says Settings.standard.serverLimit (some ∘ UInt64.ofNat) UInt64.size
      content settings.serverLimit := by
    cases settings.serverLimit with
    | none => exact ⟨none, .unset⟩
    | some limit =>
      have hofNat : (some ∘ UInt64.ofNat) limit.toNat = some limit :=
        congrArg some UInt64.ofNat_toNat
      rw [← hofNat]
      exact ⟨_, says_toDigits limit.toNat_lt⟩
  obtain ⟨workersPerServer, hworkers⟩ := hworkers
  obtain ⟨serverLimit, hservers⟩ := hservers
  exact ⟨{ workersPerServer, serverLimit }, settings_eq_ok.mpr ⟨hworkers, hservers, h⟩⟩

end Environment

end StagedQuery
