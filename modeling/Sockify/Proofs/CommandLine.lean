import Mathlib.Data.List.Perm.Basic
import Sockify.Cli
import Sockify.Proofs.Endpoints

/-! `sockify_cli_parse_args` as an interpretation of groups: a switch, an option
with its value, or an endpoint. What it accepts is a property of each group
apart, and what it leaves are the assignments of the groups. -/

namespace Sockify.Proofs.CommandLine
open Sockify Endpoints

inductive Group
  | leave (arg : Bytes)
  | switch (arg : Bytes)
  | option (arg value : Bytes)
  | dangling (arg : Bytes)
  | positional (text : Bytes)
  deriving DecidableEq

def Leaves (arg : Bytes) : Prop := arg = ascii "--help" ∨ arg = ascii "--version"

instance (arg : Bytes) : Decidable (Leaves arg) := inferInstanceAs (Decidable (_ ∨ _))

def switchSetting (arg : Bytes) : Option Setting :=
  if arg = ascii "--client-tls" then some .clientTlsEnabled
  else if arg = ascii "--target-tls" then some .targetTlsEnabled
  else if arg = ascii "--target-tls-insecure" then some .targetTlsInsecure
  else none

def Dashed (arg : Bytes) : Prop := arg.getD 0 0 = 45 ∧ arg.getD 1 0 = 45

instance (arg : Bytes) : Decidable (Dashed arg) := inferInstanceAs (Decidable (_ ∧ _))

/-- An option takes the argument behind it, whatever that looks like; nothing
counts behind `--help` or `--version`. -/
def groups : List Bytes → List Group
  | [] => []
  | arg :: rest =>
    if Leaves arg then [.leave arg]
    else if (switchSetting arg).isSome then .switch arg :: groups rest
    else if Dashed arg then
      match rest with
      | [] => [.dangling arg]
      | value :: rest => .option arg value :: groups rest
    else .positional arg :: groups rest

def Group.setting : Group → Option Setting
  | .switch arg => switchSetting arg
  | .option arg value => cliOption arg value
  | _ => none

def Group.text : Group → Option Bytes
  | .positional text => some text
  | _ => none

def Group.Acceptable (group : Group) : Prop := group.text.isSome ∨ group.setting.isSome

def endpoint? (text : Bytes) : Option Endpoint :=
  match netParseEndpoint text ⟨[], []⟩ with
  | (endpoint, .ok ()) => some endpoint
  | _ => none

/-- What is assigned to the endpoints, when there are two in all. -/
def placed : Nat → List Bytes → Option (List Setting)
  | 0, text :: rest => (endpoint? text).bind fun endpoint => (placed 1 rest).map (.listenEndpoint endpoint :: ·)
  | 1, text :: rest => (endpoint? text).bind fun endpoint => (placed 2 rest).map (.targetEndpoint endpoint :: ·)
  | 2, [] => some []
  | _, _ => none

def settingName : Setting → Bytes
  | .clientTlsEnabled => ascii "--client-tls"
  | .targetTlsEnabled => ascii "--target-tls"
  | .targetTlsInsecure => ascii "--target-tls-insecure"
  | .maxConnections _ => ascii "--max-connections"
  | .bufferSize _ => ascii "--buffer-size"
  | .handshakeTimeoutMs _ => ascii "--handshake-timeout"
  | .idleTimeoutMs _ => ascii "--idle-timeout"
  | .connectTimeoutMs _ => ascii "--connect-timeout"
  | .logLevel _ => ascii "--log-level"
  | .clientTlsCertFile _ => ascii "--client-tls-cert"
  | .clientTlsKeyFile _ => ascii "--client-tls-key"
  | .clientTlsPfxFile _ => ascii "--client-tls-pfx"
  | .clientTlsPfxPassword _ => ascii "--client-tls-pfx-password"
  | .clientTlsCertStore _ => ascii "--client-tls-cert-store"
  | .clientTlsCertThumbprint _ => ascii "--client-tls-cert-thumbprint"
  | .targetTlsServerName _ => ascii "--target-tls-server-name"
  | .targetTlsCaFile _ => ascii "--target-tls-ca-file"
  | .listenEndpoint _ => ascii "LISTEN"
  | .targetEndpoint _ => ascii "TARGET"

variable {args : List Bytes} {config c : Config} {s s' : Setting} {arg value : Bytes}

/-! Assignments under different names do not disturb each other. -/

theorem set_comm (different : settingName s ≠ settingName s') : (config.set s).set s' = (config.set s').set s := by
  cases s <;> cases s' <;> first | rfl | exact absurd rfl different

def Named (arg : Bytes) (found : Option Setting) : Prop := ∀ s, found = some s → settingName s = arg

theorem Named.ite {name : Bytes} {first rest : Option Setting} (here : arg = name → Named arg first)
    (there : Named arg rest) :
    Named arg (if arg = name then first else rest) := by
  split
  · exact here ‹_›
  · exact there

theorem Named.none : Named arg none := nofun

theorem Named.some (same : settingName s = arg) : Named arg (some s) := by
  rintro _ ⟨⟩
  exact same

theorem Named.map {α : Type} {read : Option α} {assign : α → Setting}
    (names : ∀ a, settingName (assign a) = arg) : Named arg (read.map assign) := by
  intro s found
  obtain ⟨a, -, rfl⟩ := Option.map_eq_some_iff.mp found
  exact names a

theorem switchSetting_name (arg : Bytes) : Named arg (switchSetting arg) := by
  unfold switchSetting
  repeat' apply Named.ite
  case there => exact Named.none
  all_goals
    rintro rfl
    exact Named.some rfl

theorem cliOption_name (arg value : Bytes) : Named arg (cliOption arg value) := by
  unfold cliOption
  repeat' apply Named.ite
  case there => exact Named.none
  all_goals
    rintro rfl
    first
      | exact Named.map fun _ => rfl
      | exact Named.some rfl

theorem endpoint_some {text : Bytes} {endpoint : Endpoint} (before : Endpoint) :
    endpoint? text = some endpoint ↔ netParseEndpoint text before = (endpoint, .ok ()) := by
  rw [parse_anywhere text before ⟨[], []⟩, endpoint?]
  split
  next parsed returns => simp [returns]
  next refused =>
    refine ⟨nofun, fun returns => absurd returns (refused endpoint)⟩

private theorem endpoint_none {text : Bytes} (before : Endpoint) (refused : endpoint? text = none) :
    ∃ after error, netParseEndpoint text before = (after, .error error) := by
  cases returns : netParseEndpoint text before with
  | mk after code =>
    cases code with
    | error error => exact ⟨after, error, rfl⟩
    | ok => exact absurd ((endpoint_some before).mpr returns) (by simp [refused])

private theorem fold_comm {ss : List Setting} (s : Setting)
    (apart : ∀ other ∈ ss, settingName other ≠ settingName s) (config : Config) :
    ss.foldl Config.set (config.set s) = (ss.foldl Config.set config).set s := by
  induction ss generalizing config with
  | nil => rfl
  | cons other rest ih =>
    rw [List.foldl_cons, List.foldl_cons, ← ih (fun s' member => apart s' (List.mem_cons_of_mem _ member)),
      set_comm (apart other List.mem_cons_self)]

/-- Groups never assign an endpoint. -/
theorem setting_apart {group : Group} (found : group.setting = some s) (endpoint : Endpoint) :
    settingName s ≠ settingName (.listenEndpoint endpoint) ∧
    settingName s ≠ settingName (.targetEndpoint endpoint) := by
  cases group with
  | switch arg =>
    rw [switchSetting_name arg s found]
    refine ⟨?_, ?_⟩
    all_goals
      rintro rfl
      cases found
  | option arg value =>
    rw [cliOption_name arg value s found]
    refine ⟨?_, ?_⟩
    all_goals
      rintro rfl
      cases found
  | _ => cases found

/-! The loop by the first of its groups. -/

section turns
variable (config : Config) (positional : Nat) (rest : List Bytes)

private theorem cliLoop_leave (leaves : Leaves arg) :
    cliLoop config positional (arg :: rest) = (config, .exit) ∧ groups (arg :: rest) = [.leave arg] := by
  rw [cliLoop.eq_def, groups.eq_def]
  simp only [if_pos leaves, and_true]
  rcases leaves with help | version
  · rw [if_pos help]
  · rw [version, if_neg (by decide), if_pos rfl]

theorem cliLoop_switch (found : switchSetting arg = some s) :
    cliLoop config positional (arg :: rest) = cliLoop (config.set s) positional rest ∧
    groups (arg :: rest) = .switch arg :: groups rest := by
  rw [cliLoop.eq_def, groups.eq_def]
  simp only [found, Option.isSome_some, if_true]
  unfold switchSetting at found
  split at found
  next client =>
    cases found
    subst client
    exact ⟨rfl, rfl⟩
  · split at found
    next target =>
      cases found
      subst target
      exact ⟨rfl, rfl⟩
    · split at found
      next insecure =>
        cases found
        subst insecure
        exact ⟨rfl, rfl⟩
      · cases found

private theorem no_switch (none : switchSetting arg = none) :
    arg ≠ ascii "--client-tls" ∧ arg ≠ ascii "--target-tls" ∧ arg ≠ ascii "--target-tls-insecure" := by
  refine ⟨?_, ?_, ?_⟩
  all_goals
    rintro rfl
    cases none

variable (leaves : ¬ Leaves arg) (switch : switchSetting arg = none)
include leaves switch

/-- Past the words with a meaning of their own. -/
theorem cliLoop_other : cliLoop config positional (arg :: rest) =
    if Dashed arg then
      match rest with
      | [] => (config, .error .invalid)
      | value :: rest =>
        match cliOption arg value with
        | none => (config, .error .invalid)
        | some setting => cliLoop (config.set setting) positional rest
    else if positional = 0 then
      match netParseEndpoint arg config.listenEndpoint with
      | (endpoint, .error _) => (config.set (.listenEndpoint endpoint), .error .invalid)
      | (endpoint, .ok ()) => cliLoop (config.set (.listenEndpoint endpoint)) (positional + 1) rest
    else if positional = 1 then
      match netParseEndpoint arg config.targetEndpoint with
      | (endpoint, .error _) => (config.set (.targetEndpoint endpoint), .error .invalid)
      | (endpoint, .ok ()) => cliLoop (config.set (.targetEndpoint endpoint)) (positional + 1) rest
    else (config, .error .invalid) := by
  obtain ⟨help, version⟩ := not_or.mp leaves
  obtain ⟨client, target, insecure⟩ := no_switch switch
  rw [cliLoop.eq_def]
  simp only [if_neg help, if_neg version, if_neg client, if_neg target, if_neg insecure]
  rfl

theorem groups_other : groups (arg :: rest) =
    if Dashed arg then
      match rest with
      | [] => [.dangling arg]
      | value :: rest => .option arg value :: groups rest
    else .positional arg :: groups rest := by
  rw [groups.eq_def]
  simp only [if_neg leaves, switch]
  rfl

end turns

/-- What is accepted of groups, from any place on, and what it makes of a configuration. -/
def Accepts (config : Config) (positional : Nat) (gs : List Group) (c : Config) : Prop :=
  (∀ group ∈ gs, group.Acceptable) ∧ ∃ ps, placed positional (gs.filterMap Group.text) = some ps ∧
    c = (gs.filterMap Group.setting ++ ps).foldl Config.set config ∧ validateTls c = .ok ()

theorem placed_both {texts : List Bytes} {ps : List Setting} (places : placed 0 texts = some ps) :
    ∃ listen target first second,
    texts = [first, second] ∧ endpoint? first = some listen ∧ endpoint? second = some target ∧
      ps = [.listenEndpoint listen, .targetEndpoint target] := by
  rcases texts with _ | ⟨first, _ | ⟨second, _ | ⟨third, texts⟩⟩⟩
  · cases places
  · obtain ⟨listen, -, later⟩ := Option.bind_eq_some_iff.mp places
    cases later
  · obtain ⟨listen, listens, later⟩ := Option.bind_eq_some_iff.mp places
    obtain ⟨more, inner, rfl⟩ := Option.map_eq_some_iff.mp later
    obtain ⟨target, targets, last⟩ := Option.bind_eq_some_iff.mp inner
    cases last
    exact ⟨listen, target, first, second, rfl, listens, targets, rfl⟩
  · obtain ⟨listen, -, later⟩ := Option.bind_eq_some_iff.mp places
    obtain ⟨more, inner, -⟩ := Option.map_eq_some_iff.mp later
    obtain ⟨target, -, last⟩ := Option.bind_eq_some_iff.mp inner
    cases last

section accepts
variable {positional : Nat} {group : Group} {gs : List Group}

private theorem accepts_setting (found : group.setting = some s) (plain : group.text = none) :
    Accepts config positional (group :: gs) c ↔ Accepts (config.set s) positional gs c := by
  have acceptable : group.Acceptable := .inr (by rw [found]; rfl)
  simp [Accepts, acceptable, found, plain]

private theorem accepts_none (unacceptable : ¬ group.Acceptable) : ¬ Accepts config positional (group :: gs) c :=
  fun accepts => unacceptable (accepts.1 group List.mem_cons_self)

/-- An endpoint may as well be assigned at once. -/
theorem accepts_placed {text : Bytes} {next : Nat} (endpoint : Endpoint) (s : Setting)
    (named : s = .listenEndpoint endpoint ∨ s = .targetEndpoint endpoint)
    (places : ∀ texts, placed positional (text :: texts) = (placed next texts).map (s :: ·)) :
    Accepts config positional (.positional text :: gs) c ↔ Accepts (config.set s) next gs c := by
  have apart : ∀ other ∈ gs.filterMap Group.setting, settingName other ≠ settingName s := by
    intro other member
    obtain ⟨group, -, found⟩ := List.mem_filterMap.mp member
    rcases named with rfl | rfl
    · exact (setting_apart found endpoint).1
    · exact (setting_apart found endpoint).2
  have acceptable : (Group.positional text).Acceptable := .inl rfl
  have texts : (Group.positional text :: gs).filterMap Group.text = text :: gs.filterMap Group.text := rfl
  have settings : (Group.positional text :: gs).filterMap Group.setting = gs.filterMap Group.setting := rfl
  unfold Accepts
  rw [texts, settings, places]
  simp only [List.mem_cons, forall_eq_or_imp,
    acceptable, true_and, Option.map_eq_some_iff, List.foldl_append, fold_comm s apart]
  apply and_congr_right
  intro _
  constructor
  · rintro ⟨_, ⟨ps, found, rfl⟩, same, tls⟩
    exact ⟨ps, found, same, tls⟩
  · rintro ⟨ps, found, same, tls⟩
    exact ⟨_, ⟨ps, found, rfl⟩, same, tls⟩

private theorem accepts_refused {text : Bytes} (refused : ∀ texts, placed positional (text :: texts) = none) :
    ¬ Accepts config positional (.positional text :: gs) c := by
  rintro ⟨-, ps, found, -⟩
  have texts : (Group.positional text :: gs).filterMap Group.text = text :: gs.filterMap Group.text := rfl
  rw [texts, refused] at found
  cases found

end accepts

theorem accepts_nil (config : Config) (positional : Nat) :
    cliDone config positional = (c, .ok) ↔ Accepts config positional [] c := by
  unfold cliDone Accepts
  by_cases two : positional = 2
  · subst two
    simp only [placed, List.filterMap_nil, List.nil_append, Option.some.injEq, exists_eq_left', List.foldl_nil]
    cases tls : validateTls config with
    | ok =>
      refine ⟨fun same => ?_, fun accepts => ?_⟩
      · obtain rfl : config = c := by simpa using same
        exact ⟨by simp, rfl, tls⟩
      · rw [accepts.2.1]
        simp
    | error error =>
      refine ⟨fun same => by simp at same, fun ⟨_, same, fine⟩ => ?_⟩
      rw [same, tls] at fine
      cases fine
  · have nothing : placed positional [] = none := by
      rcases positional with _ | _ | _ | positional
      · rfl
      · rfl
      · exact absurd rfl two
      · rfl
    simp [two, nothing]

/-- What the loop makes of its arguments, from any place on. -/
theorem cliLoop_ok (config : Config) (positional : Nat) (args : List Bytes) :
    cliLoop config positional args = (c, .ok) ↔ Accepts config positional (groups args) c := by
  induction args using groups.induct generalizing config positional with
  | case1 => exact accepts_nil config positional
  | case2 arg rest leaves =>
    obtain ⟨stops, same⟩ := cliLoop_leave config positional rest leaves
    rw [stops, same]
    exact ⟨nofun, fun accepts => absurd accepts (accepts_none (by simp [Group.Acceptable, Group.text, Group.setting]))⟩
  | case3 arg rest leaves switch ih =>
    obtain ⟨s, found⟩ := Option.isSome_iff_exists.mp switch
    obtain ⟨goes, same⟩ := cliLoop_switch config positional rest found
    have assigned : (Group.switch arg).setting = some s := found
    rw [goes, same, ih, accepts_setting assigned rfl]
  | case4 arg leaves switch dashed =>
    have plain : switchSetting arg = none := by simpa using switch
    rw [cliLoop_other config positional _ leaves plain, groups_other _ leaves plain, if_pos dashed, if_pos dashed]
    exact ⟨nofun, fun accepts => absurd accepts (accepts_none (by simp [Group.Acceptable, Group.text, Group.setting]))⟩
  | case5 arg leaves switch dashed value rest ih =>
    have plain : switchSetting arg = none := by simpa using switch
    rw [cliLoop_other config positional _ leaves plain, groups_other _ leaves plain, if_pos dashed, if_pos dashed]
    dsimp only
    cases found : cliOption arg value with
    | none =>
      exact ⟨nofun, fun accepts =>
        absurd accepts (accepts_none (by simp [Group.Acceptable, Group.text, Group.setting, found]))⟩
    | some s =>
      have assigned : (Group.option arg value).setting = some s := found
      exact (ih _ _).trans (accepts_setting assigned rfl).symm
  | case6 arg rest leaves switch dashed ih =>
    have plain : switchSetting arg = none := by simpa using switch
    rw [cliLoop_other config positional _ leaves plain, groups_other _ leaves plain, if_neg dashed, if_neg dashed]
    rcases positional with _ | _ | positional
    · rw [if_pos rfl]
      cases found : endpoint? arg with
      | none =>
        obtain ⟨after, error, returns⟩ := endpoint_none config.listenEndpoint found
        rw [returns]
        exact ⟨nofun, fun accepts => absurd accepts (accepts_refused fun texts => by simp [placed, found])⟩
      | some endpoint =>
        rw [(endpoint_some config.listenEndpoint).mp found]
        exact (ih _ _).trans (accepts_placed endpoint _ (.inl rfl) fun texts => by simp [placed, found]).symm
    · rw [if_neg (by omega), if_pos (by omega)]
      cases found : endpoint? arg with
      | none =>
        obtain ⟨after, error, returns⟩ := endpoint_none config.targetEndpoint found
        rw [returns]
        exact ⟨nofun, fun accepts => absurd accepts (accepts_refused fun texts => by simp [placed, found])⟩
      | some endpoint =>
        rw [(endpoint_some config.targetEndpoint).mp found]
        exact (ih _ _).trans (accepts_placed endpoint _ (.inr rfl) fun texts => by simp [placed, found]).symm
    · rw [if_neg (by omega), if_neg (by omega)]
      refine ⟨nofun, fun accepts => absurd accepts (accepts_refused fun texts => ?_)⟩
      cases positional with
      | zero => rfl
      | succ => rfl

private theorem validateTls_code (config : Config) :
    validateTls config = .ok () ∨ validateTls config = .error .invalid := by
  unfold validateTls
  dsimp only
  repeat' split
  all_goals simp

/-- The codes: whatever fails, the call returns `SOCKIFY_ERR_INVALID`. -/
theorem cliLoop_code (config : Config) (positional : Nat) (args : List Bytes) :
    (cliLoop config positional args).2 = .ok ∨
    (cliLoop config positional args).2 = .error .invalid ∨ (cliLoop config positional args).2 = .exit := by
  induction args using groups.induct generalizing config positional with
  | case1 =>
    unfold cliLoop cliDone
    split
    · exact .inr (.inl rfl)
    · rcases validateTls_code config with fine | failed
      · rw [fine]
        exact .inl rfl
      · rw [failed]
        exact .inr (.inl rfl)
  | case2 arg rest leaves =>
    rw [(cliLoop_leave config positional rest leaves).1]
    exact .inr (.inr rfl)
  | case3 arg rest leaves switch ih =>
    obtain ⟨s, found⟩ := Option.isSome_iff_exists.mp switch
    rw [(cliLoop_switch config positional rest found).1]
    exact ih _ _
  | case4 arg leaves switch dashed =>
    have plain : switchSetting arg = none := by simpa using switch
    rw [cliLoop_other config positional _ leaves plain, if_pos dashed]
    exact .inr (.inl rfl)
  | case5 arg leaves switch dashed value rest ih =>
    have plain : switchSetting arg = none := by simpa using switch
    rw [cliLoop_other config positional _ leaves plain, if_pos dashed]
    dsimp only
    split
    · exact .inr (.inl rfl)
    · exact ih _ _
  | case6 arg rest leaves switch dashed ih =>
    have plain : switchSetting arg = none := by simpa using switch
    rw [cliLoop_other config positional _ leaves plain, if_neg dashed]
    split
    · split
      · exact .inr (.inl rfl)
      · exact ih _ _
    · split
      · split
        · exact .inr (.inl rfl)
        · exact ih _ _
      · exact .inr (.inl rfl)

/-- The parser comes to `--help` or `--version`: what stands in front of it does
not stop it, its endpoints among that, of which there is room for two. -/
def Departs (positional : Nat) (gs : List Group) : Prop := ∃ front arg, gs = front ++ [.leave arg] ∧
  (∀ group ∈ front, group.Acceptable) ∧ (∀ text ∈ front.filterMap Group.text, (endpoint? text).isSome) ∧
  positional + (front.filterMap Group.text).length ≤ 2

section departs
variable {positional : Nat} {group : Group} {gs : List Group}

theorem Departs.leaves (departs : Departs positional gs) : ∃ arg, .leave arg ∈ gs := by
  obtain ⟨front, arg, rfl, -⟩ := departs
  exact ⟨arg, by simp⟩

private theorem departs_leave (few : positional ≤ 2) : Departs positional [.leave arg] :=
  ⟨[], arg, rfl, by simp, by simp, by simpa using few⟩

private theorem departs_nil : ¬ Departs positional [] := fun departs => absurd departs.leaves (by simp)

/-- A group in front of another one is in front of the word that leaves. -/
theorem departs_cons (stays : ∀ arg, group ≠ .leave arg) : Departs positional (group :: gs) ↔
    group.Acceptable ∧ (∀ text, group.text = some text → (endpoint? text).isSome) ∧
      Departs (positional + (group.text.elim 0 fun _ => 1)) gs := by
  constructor
  · rintro ⟨front, arg, layout, acceptable, endpoints, few⟩
    cases front with
    | nil => exact absurd (List.cons.inj layout).1 (stays arg)
    | cons first front =>
      obtain ⟨rfl, rfl⟩ := List.cons.inj layout
      refine ⟨acceptable group List.mem_cons_self, fun text places => endpoints text ?_, front, arg, rfl,
        fun other member => acceptable other (List.mem_cons_of_mem _ member), fun text member => endpoints text ?_, ?_⟩
      · rw [List.filterMap_cons_some places]
        exact List.mem_cons_self
      · cases places : group.text with
        | none => rwa [List.filterMap_cons_none places]
        | some first =>
          rw [List.filterMap_cons_some places]
          exact List.mem_cons_of_mem _ member
      · cases places : group.text with
        | none => simpa [List.filterMap_cons_none places] using few
        | some first =>
          rw [List.filterMap_cons_some places, List.length_cons] at few
          simp only [Option.elim_some]
          omega
  · rintro ⟨here, place, front, arg, rfl, acceptable, endpoints, few⟩
    refine ⟨group :: front, arg, rfl, List.forall_mem_cons.mpr ⟨here, acceptable⟩, ?_, ?_⟩
    · cases places : group.text with
      | none => rwa [List.filterMap_cons_none places]
      | some first =>
        rw [List.filterMap_cons_some places]
        exact List.forall_mem_cons.mpr ⟨place first places, endpoints⟩
    · cases places : group.text with
      | none => simpa [List.filterMap_cons_none places, places] using few
      | some first =>
        rw [places, Option.elim_some] at few
        rw [List.filterMap_cons_some places, List.length_cons]
        omega

end departs

/-- When the call returns 1. -/
theorem cliLoop_exit (config : Config) {positional : Nat} (few : positional ≤ 2) (args : List Bytes) :
    (cliLoop config positional args).2 = .exit ↔ Departs positional (groups args) := by
  induction args using groups.induct generalizing config positional with
  | case1 =>
    refine ⟨fun exits => ?_, fun departs => absurd departs departs_nil⟩
    rw [cliLoop, cliDone] at exits
    split at exits
    · cases exits
    · split at exits <;> cases exits
  | case2 arg rest leaves =>
    obtain ⟨stops, same⟩ := cliLoop_leave config positional rest leaves
    rw [stops, same]
    exact ⟨fun _ => departs_leave few, fun _ => rfl⟩
  | case3 arg rest leaves switch ih =>
    obtain ⟨s, found⟩ := Option.isSome_iff_exists.mp switch
    obtain ⟨goes, same⟩ := cliLoop_switch config positional rest found
    rw [goes, same, ih _ few, @departs_cons _ (.switch arg) _ fun _ => nofun]
    exact ⟨fun departs => ⟨.inr switch, nofun, departs⟩, fun departs => departs.2.2⟩
  | case4 arg leaves switch dashed =>
    have plain : switchSetting arg = none := by simpa using switch
    rw [cliLoop_other config positional _ leaves plain,
      groups_other _ leaves plain, if_pos dashed, if_pos dashed, @departs_cons _ (.dangling arg) _ fun _ => nofun]
    exact ⟨nofun, fun departs => absurd departs.2.2 departs_nil⟩
  | case5 arg leaves switch dashed value rest ih =>
    have plain : switchSetting arg = none := by simpa using switch
    rw [cliLoop_other config positional _ leaves plain, groups_other _ leaves plain,
      if_pos dashed, if_pos dashed, @departs_cons _ (.option arg value) _ fun _ => nofun]
    dsimp only
    cases found : cliOption arg value with
    | none =>
      exact ⟨nofun, fun departs => absurd departs.1 (by simp [Group.Acceptable, Group.text, Group.setting, found])⟩
    | some s =>
      refine (ih (config.set s) few).trans ⟨fun departs => ⟨.inr ?_, nofun, departs⟩, fun departs => departs.2.2⟩
      exact Option.isSome_iff_exists.mpr ⟨s, found⟩
  | case6 arg rest leaves switch dashed ih =>
    have plain : switchSetting arg = none := by simpa using switch
    rw [cliLoop_other config positional _ leaves plain,
      groups_other _ leaves plain, if_neg dashed, if_neg dashed, @departs_cons _ (.positional arg) _ fun _ => nofun]
    have placing : ∀ {result : Config × CliCode} {next : Config} (endpoint : Endpoint),
        endpoint? arg = some endpoint → positional < 2 →
        result = cliLoop next (positional + 1) rest → (result.2 = .exit ↔ (Group.positional arg).Acceptable ∧
          (∀ text, (Group.positional arg).text = some text → (endpoint? text).isSome) ∧
              Departs (positional + 1) (groups rest)) := by
      rintro _ next endpoint found room rfl
      refine (ih next room).trans ⟨fun departs => ⟨.inl rfl, fun text same => ?_, departs⟩, fun departs => departs.2.2⟩
      cases same
      rw [found]
      rfl
    rcases positional with _ | _ | positional
    · rw [if_pos rfl]
      cases found : endpoint? arg with
      | none =>
        obtain ⟨after, error, returns⟩ := endpoint_none config.listenEndpoint found
        rw [returns]
        exact ⟨nofun, fun departs => absurd (departs.2.1 arg rfl) (by simp [found])⟩
      | some endpoint =>
        rw [(endpoint_some config.listenEndpoint).mp found]
        exact placing endpoint found (by omega) rfl
    · rw [if_neg (by omega), if_pos (by omega)]
      cases found : endpoint? arg with
      | none =>
        obtain ⟨after, error, returns⟩ := endpoint_none config.targetEndpoint found
        rw [returns]
        exact ⟨nofun, fun departs => absurd (departs.2.1 arg rfl) (by simp [found])⟩
      | some endpoint =>
        rw [(endpoint_some config.targetEndpoint).mp found]
        exact placing endpoint found (by omega) rfl
    · rw [if_neg (by omega), if_neg (by omega)]
      refine ⟨nofun, fun departs => ?_⟩
      obtain ⟨front, _, -, -, -, full⟩ := departs.2.2
      simp only [Group.text, Option.elim_some] at full
      omega

end Sockify.Proofs.CommandLine
