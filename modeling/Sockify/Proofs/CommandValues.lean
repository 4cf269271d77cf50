import Mathlib.Algebra.Group.Int.Defs
import Mathlib.Data.List.TakeWhile
import Sockify.Proofs.CommandLine

/-! What becomes of the values on the command line: each field of the
configuration is read from the last value given for it. Numbers go through
`strtoul`, which takes a sign and saturates, and some through a narrowing cast. -/

namespace Sockify.Proofs.CommandValues
open Sockify CommandLine

/-- A decimal number as it is written: blanks, a sign and digits. -/
inductive Reads : Bytes → Int → Prop
  | plain (blanks digits : Bytes)
  (blank : ∀ c ∈ blanks, isSpace c = true) (some_ : digits ≠ []) (all : ∀ c ∈ digits, isDigit c = true) :
      Reads (blanks ++ digits) (decimal digits)
  | plus (blanks digits : Bytes)
      (blank : ∀ c ∈ blanks, isSpace c = true) (some_ : digits ≠ []) (all : ∀ c ∈ digits, isDigit c = true) :
      Reads (blanks ++ 43 :: digits) (decimal digits)
  | minus (blanks digits : Bytes) (blank : ∀ c ∈ blanks, isSpace c = true) (some_ : digits ≠ [])
      (all : ∀ c ∈ digits, isDigit c = true) :
      Reads (blanks ++ 45 :: digits) (-decimal digits)

/-- What `strtoul` makes of a number: out of range it saturates, whatever the
sign, and a minus negates modulo `2 ^ 64`. -/
def ulong (value : Int) : Nat := if value.natAbs > ulongMax then ulongMax else (value % 2 ^ 64).toNat

variable {text rest digits blanks : Bytes} {value : Int}

private theorem digit_opens {c : UInt8} (digit : isDigit c = true) : isSpace c = false ∧ c ≠ 43 ∧ c ≠ 45 := by
  have range : 48 ≤ c.toNat := by
    simpa [isDigit, UInt8.le_iff_toNat_le] using (by simpa [isDigit] using digit : 48 ≤ c ∧ c ≤ 57).1
  refine ⟨?_, ?_, ?_⟩
  · simp only [isSpace, Bool.or_eq_false_iff, beq_eq_false_iff_ne, Bool.and_eq_false_iff, decide_eq_false_iff_not]
    refine ⟨?_, .inr ?_⟩
    · rintro rfl
      simp at range
    · rw [UInt8.le_iff_toNat_le]
      exact fun low => absurd range (by have : c.toNat ≤ 13 := low; omega)
  · rintro rfl
    simp at range
  · rintro rfl
    simp at range

private theorem skipBlanks (blank : ∀ c ∈ blanks, isSpace c = true) {c : UInt8} (other : isSpace c = false) :
    (blanks ++ c :: rest).dropWhile isSpace = c :: rest := by
  rw [List.dropWhile_append_of_pos blank, List.dropWhile_cons_of_neg (by simp [other])]

private theorem skipSign_digit {c : UInt8} (digit : isDigit c = true) : skipSign (c :: rest) = (false, c :: rest) := by
  obtain ⟨-, noPlus, noMinus⟩ := digit_opens digit
  unfold skipSign
  split
  next same => exact absurd (List.cons.inj same).1 noMinus
  next same => exact absurd (List.cons.inj same).1 noPlus
  next => rfl

private theorem ulong_decimal (digits : Bytes) (negative : Bool) :
    (if decimal digits > ulongMax then ulongMax
      else if negative then (2 ^ 64 - decimal digits) % 2 ^ 64 else decimal digits) =
      ulong (if negative then -decimal digits else decimal digits) := by
  unfold ulong ulongMax
  generalize decimal digits = value
  cases negative with
  | false =>
    simp only [Bool.false_eq_true, if_false, Int.natAbs_natCast]
    split
    · rfl
    · omega
  | true =>
    simp only [if_true, Int.natAbs_neg, Int.natAbs_natCast]
    split
    · rfl
    · omega

/-- `strtoul` behind the blanks and the sign. -/
theorem strtoul_signed {negative : Bool}
    (signed : skipSign (text.dropWhile isSpace) = (negative, digits)) (some_ : digits ≠ [])
    (all : ∀ c ∈ digits, isDigit c = true) :
    strtoul text = (ulong (if negative then -decimal digits else decimal digits), []) := by
  have takes : digits.takeWhile isDigit = digits := List.takeWhile_eq_self_iff.mpr all
  have drops : digits.dropWhile isDigit = [] := List.dropWhile_eq_nil_iff.mpr all
  simp only [strtoul, signed, takes, drops, if_neg some_, ulong_decimal]

theorem strtoul_reads (reads : Reads text value) : strtoul text = (ulong value, []) := by
  cases reads with
  | plain blanks digits blank some_ all =>
    obtain ⟨c, rest, rfl⟩ := List.exists_cons_of_ne_nil some_
    have digit := all c List.mem_cons_self
    have signed : skipSign ((blanks ++ c :: rest).dropWhile isSpace) = (false, c :: rest) := by
      rw [skipBlanks blank (digit_opens digit).1, skipSign_digit digit]
    exact strtoul_signed signed some_ all
  | plus blanks digits blank some_ all =>
    have signed : skipSign ((blanks ++ 43 :: digits).dropWhile isSpace) = (false, digits) := by
      rw [skipBlanks blank rfl]
      rfl
    exact strtoul_signed signed some_ all
  | minus blanks digits blank some_ all =>
    have signed : skipSign ((blanks ++ 45 :: digits).dropWhile isSpace) = (true, digits) := by
      rw [skipBlanks blank rfl]
      rfl
    exact strtoul_signed signed some_ all

/-- A sign or none. -/
theorem skipSign_cases (text : Bytes) : text = 45 :: (skipSign text).2 ∧ (skipSign text).1 = true ∨
    (text = 43 :: (skipSign text).2 ∨ text = (skipSign text).2) ∧ (skipSign text).1 = false := by
  unfold skipSign
  split
  · exact .inl ⟨rfl, rfl⟩
  · exact .inr ⟨.inl rfl, rfl⟩
  · exact .inr ⟨.inr rfl, rfl⟩

/-- Where `strtoul` reads to the end, a number was written. -/
theorem strtoul_all {n : Nat} (read : strtoul text = (n, [])) (some_ : text ≠ []) :
    ∃ value, Reads text value ∧ n = ulong value := by
  obtain ⟨negative, digits, signed⟩ : ∃ negative digits, skipSign (text.dropWhile isSpace) = (negative, digits) :=
    ⟨_, _, rfl⟩
  have digital : digits ≠ [] ∧ ∀ c ∈ digits, isDigit c = true := by
    simp only [strtoul, signed] at read
    split at read
    · exact absurd (congrArg Prod.snd read) some_
    next more =>
      have all : digits.dropWhile isDigit = [] := congrArg Prod.snd read
      rw [List.dropWhile_eq_nil_iff] at all
      refine ⟨?_, all⟩
      rintro rfl
      exact more rfl
  obtain ⟨more, all⟩ := digital
  have value := strtoul_signed signed more all
  have blank : ∀ c ∈ text.takeWhile isSpace, isSpace c = true := fun c => List.mem_takeWhile_imp
  have split : text.takeWhile isSpace ++ text.dropWhile isSpace = text := List.takeWhile_append_dropWhile
  have cases_ := skipSign_cases (text.dropWhile isSpace)
  rw [signed] at cases_
  rw [read] at value
  rw [← split]
  rcases cases_ with ⟨minus, sign⟩ | ⟨plus | none, sign⟩
  · obtain rfl : negative = true := sign
    rw [minus]
    exact ⟨_, Reads.minus _ _ blank more all, by simpa using value⟩
  · obtain rfl : negative = false := sign
    rw [plus]
    exact ⟨_, Reads.plus _ _ blank more all, by simpa using value⟩
  · obtain rfl : negative = false := sign
    rw [none]
    exact ⟨_, Reads.plain _ _ blank more all, by simpa using value⟩

theorem Reads.some (reads : Reads text value) : text ≠ [] := by
  cases reads <;> simp_all

/-- Both parsers take the same texts, and differ in what they make of the value. -/
theorem strtoul_ok (make : Nat → Nat) {n : Nat} :
    (if (strtoul text).2 = text ∨ (strtoul text).2 ≠ [] then .error Err.invalid
      else .ok (make (strtoul text).1)) = Except.ok n ↔
      ∃ value, Reads text value ∧ n = make (ulong value) := by
  constructor
  · intro returns
    split at returns
    next => cases returns
    next whole =>
      obtain ⟨moved, ends⟩ := not_or.mp whole
      have read : strtoul text = ((strtoul text).1, []) := Prod.ext rfl (not_not.mp ends)
      have some_ : text ≠ [] := fun empty => moved ((not_not.mp ends).trans empty.symm)
      obtain ⟨value, reads, same⟩ := strtoul_all read some_
      exact ⟨value, reads, by rw [← same]; exact (Except.ok.inj returns).symm⟩
  · rintro ⟨value, reads, rfl⟩
    rw [strtoul_reads reads, if_neg (by simp [reads.some.symm])]

/-- The numbers that `parse_size` takes, and what it makes of them. -/
theorem parseSize_ok {n : Nat} : parseSize text = .ok n ↔ ∃ value, Reads text value ∧ n = ulong value :=
  strtoul_ok id

private theorem parseUint_ok {n : Nat} :
    parseUint text = .ok n ↔ ∃ value, Reads text value ∧ n = ulong value % 2 ^ 32 :=
  strtoul_ok (· % 2 ^ 32)

/-! Fields of the configuration. -/

def valueOf (name : Bytes) : Group → Option Bytes
  | .option arg value => if arg = name then some value else none
  | _ => none

def values (name : Bytes) (gs : List Group) : List Bytes := gs.filterMap (valueOf name)

/-- A field holds what was assigned to it last. -/
theorem get_fold {β : Type} (get : Config → β) (pick : Setting → Option β)
    (get_set : ∀ config s, get (config.set s) = (pick s).getD (get config)) (ss : List Setting) (config : Config) :
    get (ss.foldl Config.set config) = ((ss.filterMap pick).getLast?).getD (get config) := by
  induction ss generalizing config with
  | nil => rfl
  | cons s rest ih =>
    rw [List.foldl_cons, ih, get_set]
    cases picked : pick s with
    | none => rw [List.filterMap_cons_none picked]; rfl
    | some x =>
      rw [List.filterMap_cons_some picked, List.getLast?_cons]
      cases (rest.filterMap pick).getLast? <;> rfl

structure ConfigField (β : Type) where
  name : Bytes
  get : Config → β
  pick : Setting → Option β
  get_set : ∀ config s, get (config.set s) = (pick s).getD (get config) := by intro config s; cases s <;> rfl
  named : ∀ s, (pick s).isSome ↔ settingName s = name := by
    intro s
    cases s <;>
      first | exact ⟨nofun, fun same => absurd same (of_decide_eq_false rfl)⟩ | exact ⟨fun _ => rfl, fun _ => rfl⟩
  unswitched : switchSetting name = none := by rfl
  unplaced : name ≠ ascii "LISTEN" ∧ name ≠ ascii "TARGET" := by decide

namespace ConfigField
variable {β : Type} (field : ConfigField β) {config c : Config} {gs : List Group}

def read (value : Bytes) : Option β := (cliOption field.name value).bind field.pick

private theorem unpicked {s : Setting} (other : settingName s ≠ field.name) : field.pick s = none := by
  by_contra picked
  exact other ((field.named s).mp (Option.isSome_iff_ne_none.mpr picked))

/-- What a group assigns to the field. -/
theorem pick_group (group : Group) : group.setting.bind field.pick = (valueOf field.name group).bind field.read := by
  cases group with
  | switch arg =>
    cases found : switchSetting arg with
    | none => simp [Group.setting, valueOf, found]
    | some s =>
      have other : settingName s ≠ field.name := by
        intro same
        rw [switchSetting_name arg s found] at same
        rw [same, field.unswitched] at found
        cases found
      simp [Group.setting, valueOf, found, field.unpicked other]
  | option arg value =>
    by_cases same : arg = field.name
    · subst same
      simp [Group.setting, valueOf, read]
    · cases found : cliOption arg value with
      | none => simp [Group.setting, valueOf, same, found]
      | some s =>
        have other : settingName s ≠ field.name := by rwa [cliOption_name arg value s found]
        simp [Group.setting, valueOf, same, found, field.unpicked other]
  | _ => rfl

theorem picks (gs : List Group) :
    (gs.filterMap Group.setting).filterMap field.pick = (values field.name gs).filterMap field.read := by
  rw [values, List.filterMap_filterMap, List.filterMap_filterMap]
  apply List.filterMap_congr
  exact fun group _ => field.pick_group group

/-- The field of an accepted configuration is what was read last. -/
theorem accepted (accepts : Accepts config 0 gs c) :
    field.get c = (((values field.name gs).filterMap field.read).getLast?).getD (field.get config) := by
  obtain ⟨-, ps, places, rfl, -⟩ := accepts
  obtain ⟨listen, target, -, -, -, -, -, rfl⟩ := placed_both places
  have listens : field.pick (.listenEndpoint listen) = none := field.unpicked (Ne.symm field.unplaced.1)
  have targets : field.pick (.targetEndpoint target) = none := field.unpicked (Ne.symm field.unplaced.2)
  rw [get_fold field.get field.pick field.get_set, List.filterMap_append, field.picks]
  simp [listens, targets]

/-- Every value of an accepted vector has been read. -/
theorem readable (accepts : Accepts config 0 gs c) (given : text ∈ values field.name gs) :
    ∃ x, field.read text = some x := by
  obtain ⟨group, member, valued⟩ := List.mem_filterMap.mp given
  cases group with
  | option arg value =>
    rw [valueOf] at valued
    split at valued
    next same =>
      subst same
      cases valued
      obtain ⟨s, found⟩ := Option.isSome_iff_exists.mp ((accepts.1 _ member).resolve_left (by simp [Group.text]))
      obtain ⟨x, picked⟩ := Option.isSome_iff_exists.mp ((field.named s).mpr (cliOption_name _ _ s found))
      exact ⟨x, Option.bind_eq_some_iff.mpr ⟨s, found, picked⟩⟩
    · cases valued
  | _ => cases valued

theorem untouched (accepts : Accepts config 0 gs c) (none : (values field.name gs).getLast? = none) :
    field.get c = field.get config := by
  rw [field.accepted accepts, List.getLast?_eq_none_iff.mp none]
  rfl

theorem read_last (accepts : Accepts config 0 gs c) (last : (values field.name gs).getLast? = some text) :
    field.read text = some (field.get c) := by
  obtain ⟨front, all⟩ := List.getLast?_eq_some_iff.mp last
  have given : text ∈ values field.name gs := by simp [all]
  obtain ⟨x, read⟩ := field.readable accepts given
  have value := field.accepted accepts
  rw [all, List.filterMap_append, List.filterMap_cons_some read, List.filterMap_nil, List.getLast?_concat] at value
  rw [read, value]
  rfl

end ConfigField

inductive NumericOption
  | maxConnections | bufferSize | handshakeTimeout | idleTimeout | connectTimeout
  deriving DecidableEq

namespace NumericOption

def field : NumericOption → ConfigField Nat
  | .maxConnections => {
      name := ascii "--max-connections"
      get := Config.maxConnections
      pick := fun | .maxConnections value => some value | _ => none }
  | .bufferSize => {
      name := ascii "--buffer-size"
      get := Config.bufferSize
      pick := fun | .bufferSize value => some value | _ => none }
  | .handshakeTimeout => {
      name := ascii "--handshake-timeout"
      get := Config.handshakeTimeoutMs
      pick := fun | .handshakeTimeoutMs value => some value | _ => none }
  | .idleTimeout => {
      name := ascii "--idle-timeout"
      get := Config.idleTimeoutMs
      pick := fun | .idleTimeoutMs value => some value | _ => none }
  | .connectTimeout => {
      name := ascii "--connect-timeout"
      get := Config.connectTimeoutMs
      pick := fun | .connectTimeoutMs value => some value | _ => none }

/-- The number of values of a `size_t`, or of an `unsigned int`. -/
def limit : NumericOption → Nat
  | .maxConnections | .bufferSize => 2 ^ 64
  | .handshakeTimeout | .idleTimeout | .connectTimeout => 2 ^ 32

theorem ulong_lt (value : Int) : ulong value < 2 ^ 64 := by
  unfold ulong ulongMax
  split <;> omega

private theorem read_parsed {read : Except Err Nat} (assign : Nat → Setting)
    (pick : Setting → Option Nat) (picks : ∀ n, pick (assign n) = some n) :
    (read.toOption.map assign).bind pick = read.toOption := by
  cases read with
  | error => rfl
  | ok n => exact picks n

/-- What is read from a value of a numeric option. -/
theorem read_some (option : NumericOption) {n : Nat} :
    option.field.read text = some n ↔ ∃ value, Reads text value ∧ n = ulong value % option.limit := by
  have parsed : ∀ {read : Except Err Nat}, read.toOption = some n ↔ read = .ok n := by
    intro read
    cases read <;> simp [Except.toOption]
  have size : (parseSize text).toOption = some n ↔ ∃ value, Reads text value ∧ n = ulong value % 2 ^ 64 := by
    rw [parsed, parseSize_ok]
    simp only [Nat.mod_eq_of_lt (ulong_lt _)]
  have uint : (parseUint text).toOption = some n ↔ ∃ value, Reads text value ∧ n = ulong value % 2 ^ 32 := by
    rw [parsed, parseUint_ok]
  have reads : option.field.read text =
      (if option.limit = 2 ^ 64 then (parseSize text).toOption else (parseUint text).toOption) := by
    cases option with
    | maxConnections => exact read_parsed .maxConnections _ fun _ => rfl
    | bufferSize => exact read_parsed .bufferSize _ fun _ => rfl
    | handshakeTimeout => exact read_parsed .handshakeTimeoutMs _ fun _ => rfl
    | idleTimeout => exact read_parsed .idleTimeoutMs _ fun _ => rfl
    | connectTimeout => exact read_parsed .connectTimeoutMs _ fun _ => rfl
  rw [reads]
  cases option with
  | maxConnections | bufferSize => exact size
  | handshakeTimeout | idleTimeout | connectTimeout => exact uint

/-- A number that the option's field has no room for. -/
def Unfit (option : NumericOption) (text : Bytes) : Prop :=
  ∃ value, Reads text value ∧ (value < 0 ∨ option.limit ≤ value)

private theorem read_fit (option : NumericOption) {n : Nat} (read : option.field.read text = some n)
    (fit : ¬ option.Unfit text) : Reads text n := by
  obtain ⟨value, reads, rfl⟩ := option.read_some.mp read
  have range : 0 ≤ value ∧ value < option.limit := by
    by_contra outside
    exact fit ⟨value, reads, by omega⟩
  have small : option.limit ≤ 2 ^ 64 := by cases option <;> decide
  have same : ((ulong value % option.limit : Nat) : Int) = value := by
    have unsaturated : ulong value = value.toNat := by
      unfold ulong ulongMax
      rw [if_neg (by omega)]
      omega
    rw [unsaturated, Nat.mod_eq_of_lt (by omega)]
    omega
  rwa [same]

end NumericOption

/-- Every numeric field holds the number that was written last for it, or its
default, and a number that does not fit makes the call fail. -/
def Kept (args : List Bytes) : Prop :=
  (∀ c, cliParseArgs args proxyConfigInit = (c, .ok) → ∀ option : NumericOption,
    match (values option.field.name (groups args)).getLast? with
    | none => option.field.get c = option.field.get proxyConfigInit
    | some text => Reads text (option.field.get c)) ∧
  ((∃ option : NumericOption, ∃ text ∈ values option.field.name (groups args), option.Unfit text) →
    (cliParseArgs args proxyConfigInit).2 = .error .invalid)

/-- Numbers are kept but in the vectors that are fine in every other way, to
their end or up to `--help` or `--version`, and give a number that does not fit. -/
theorem numbers_kept (args : List Bytes) : Kept args ↔
    ¬ (((∃ c, Accepts proxyConfigInit 0 (groups args) c) ∨ Departs 0 (groups args)) ∧
      ∃ option : NumericOption, ∃ text ∈ values option.field.name (groups args), option.Unfit text) := by
  constructor
  · rintro ⟨-, rejects⟩ ⟨⟨c, accepts⟩ | departs, unfit⟩
    · have invalid := rejects unfit
      rw [cliParseArgs, (cliLoop_ok _ 0 args).mpr accepts] at invalid
      cases invalid
    · have exits := (cliLoop_exit proxyConfigInit (Nat.zero_le 2) args).mpr departs
      have invalid := rejects unfit
      rw [cliParseArgs, exits] at invalid
      cases invalid
  · intro fits
    constructor
    · intro c returns option
      have accepts := (cliLoop_ok _ 0 args).mp returns
      split
      next none => exact option.field.untouched accepts none
      next text last =>
        have given : text ∈ values option.field.name (groups args) := List.mem_of_getLast? last
        exact option.read_fit (option.field.read_last accepts last) fun unfit =>
          fits ⟨.inl ⟨c, accepts⟩, option, text, given, unfit⟩
    · intro unfit
      rcases cliLoop_code proxyConfigInit 0 args with fine | invalid | exits
      · exact absurd ⟨.inl ⟨_, (cliLoop_ok _ 0 args).mp (Prod.ext rfl fine)⟩, unfit⟩ fits
      · exact invalid
      · exact absurd ⟨.inr ((cliLoop_exit _ (Nat.zero_le 2) args).mp exits), unfit⟩ fits

def wrapping : List Bytes := [ascii "--idle-timeout", ascii "4294967296", ascii "a:1", ascii "b:2"]

/-- A timeout of `2 ^ 32` is taken for none at all. -/
theorem timeout_wrapped : ¬ Kept wrapping ∧ (cliParseArgs wrapping proxyConfigInit).1.idleTimeoutMs = 0 := by
  constructor
  · intro kept
    have reads : Reads (ascii "4294967296") 4294967296 :=
      .plain [] (ascii "4294967296") nofun (by decide) (by decide +kernel)
    have unfit : NumericOption.idleTimeout.Unfit (ascii "4294967296") := ⟨_, reads, .inr (by decide)⟩
    have read : groups wrapping =
        [.option (ascii "--idle-timeout") (ascii "4294967296"),
            .positional (ascii "a:1"), .positional (ascii "b:2")] := by
          decide +kernel
    have invalid := kept.2 ⟨.idleTimeout, ascii "4294967296", by rw [read]; decide, unfit⟩
    have fine : (cliParseArgs wrapping proxyConfigInit).2 = .ok := by decide +kernel
    rw [fine] at invalid
    cases invalid
  · decide +kernel

end Sockify.Proofs.CommandValues
