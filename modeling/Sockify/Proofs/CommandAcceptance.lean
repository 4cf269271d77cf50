import Sockify.Proofs.CommandValues

/-! Two validators: the command line's and the one of `sockify_proxy_run`. What
the second asks for beyond the first is listed in the terms of the command line. -/

namespace Sockify.Proofs.CommandAcceptance
open Sockify Endpoints CommandLine CommandValues

/-- The options whose text the proxy looks at. -/
inductive TextOption
  | clientTlsCert | clientTlsKey | clientTlsPfx | clientTlsCertStore | clientTlsCertThumbprint
  | targetTlsServerName | targetTlsCaFile
  deriving DecidableEq

namespace TextOption

def field : TextOption → ConfigField Bytes
  | .clientTlsCert => {
      name := ascii "--client-tls-cert"
      get := Config.clientTlsCertFile
      pick := fun | .clientTlsCertFile text => some text | _ => none }
  | .clientTlsKey => {
      name := ascii "--client-tls-key"
      get := Config.clientTlsKeyFile
      pick := fun | .clientTlsKeyFile text => some text | _ => none }
  | .clientTlsPfx => {
      name := ascii "--client-tls-pfx"
      get := Config.clientTlsPfxFile
      pick := fun | .clientTlsPfxFile text => some text | _ => none }
  | .clientTlsCertStore => {
      name := ascii "--client-tls-cert-store"
      get := Config.clientTlsCertStore
      pick := fun | .clientTlsCertStore text => some text | _ => none }
  | .clientTlsCertThumbprint => {
      name := ascii "--client-tls-cert-thumbprint"
      get := Config.clientTlsCertThumbprint
      pick := fun | .clientTlsCertThumbprint text => some text | _ => none }
  | .targetTlsServerName => {
      name := ascii "--target-tls-server-name"
      get := Config.targetTlsServerName
      pick := fun | .targetTlsServerName text => some text | _ => none }
  | .targetTlsCaFile => {
      name := ascii "--target-tls-ca-file"
      get := Config.targetTlsCaFile
      pick := fun | .targetTlsCaFile text => some text | _ => none }

/-- The options that belong to `--client-tls`, and those that belong to `--target-tls`. -/
def client : List TextOption :=
  [.clientTlsCert, .clientTlsKey, .clientTlsPfx, .clientTlsCertStore, .clientTlsCertThumbprint]
def target : List TextOption := [.targetTlsServerName, .targetTlsCaFile]

variable {text x : Bytes} {config c : Config} {gs : List Group}

private theorem read_copied {size : Nat} {text x : Bytes} (assign : Bytes → Setting)
    (pick : Setting → Option Bytes) (picks : ∀ text, pick (assign text) = some text)
    (read : ((copyStr size text).toOption.map assign).bind pick = some x) : x = text := by
  unfold copyStr at read
  split at read
  · cases read
  · exact (Option.some.inj ((picks text).symm.trans read)).symm

private theorem read_text (option : TextOption) (read : option.field.read text = some x) : x = text := by
  cases option with
  | clientTlsCert => exact read_copied .clientTlsCertFile _ (fun _ => rfl) read
  | clientTlsKey => exact read_copied .clientTlsKeyFile _ (fun _ => rfl) read
  | clientTlsPfx => exact read_copied .clientTlsPfxFile _ (fun _ => rfl) read
  | clientTlsCertStore => exact read_copied .clientTlsCertStore _ (fun _ => rfl) read
  | clientTlsCertThumbprint => exact read_copied .clientTlsCertThumbprint _ (fun _ => rfl) read
  | targetTlsServerName => exact read_copied .targetTlsServerName _ (fun _ => rfl) read
  | targetTlsCaFile => exact read_copied .targetTlsCaFile _ (fun _ => rfl) read

/-- The text that was given last, if any. -/
theorem get_last (option : TextOption) (accepts : Accepts config 0 gs c) :
    option.field.get c = ((values option.field.name gs).getLast?).getD (option.field.get config) := by
  cases last : (values option.field.name gs).getLast? with
  | none => exact option.field.untouched accepts last
  | some text => exact option.read_text (option.field.read_last accepts last)

end TextOption

/-- What the proxy asks for, and the command line does not. -/
structure Coherent (args : List Bytes) : Prop where
  endpoints : ∀ text, .positional text ∈ groups args → ¬ Hollow text
  connections : ∀ text, (values (ascii "--max-connections") (groups args)).getLast? = some text → ¬ Reads text 0
  buffer : ∀ text, (values (ascii "--buffer-size") (groups args)).getLast? = some text → ¬ Reads text 0
  client : .switch (ascii "--client-tls") ∈ groups args ∨
    ∀ option ∈ TextOption.client, ∀ text, (values option.field.name (groups args)).getLast? = some text → text = []
  target : .switch (ascii "--target-tls") ∈ groups args ∨
    ∀ option ∈ TextOption.target, ∀ text, (values option.field.name (groups args)).getLast? = some text → text = []

variable {config c : Config} {gs : List Group} {args : List Bytes}

private theorem tls_secure (tls : validateTls c = .ok ()) (insecure : c.targetTlsInsecure = true) :
    c.targetTlsEnabled = true := by
  by_contra plain
  rw [validateTls, if_pos ⟨insecure, by simpa using plain⟩] at tls
  cases tls

/-- The proxy's checks, behind those of the command line. -/
theorem validates_iff (tls : validateTls c = .ok ()) : proxyValidateConfig c = .ok () ↔
    (c.listenEndpoint.host ≠ [] ∧ c.listenEndpoint.port ≠ []) ∧
    (c.targetEndpoint.host ≠ [] ∧ c.targetEndpoint.port ≠ []) ∧
    c.maxConnections ≠ 0 ∧ c.bufferSize ≠ 0 ∧ (c.acceptBudget ≠ 0 ∧ c.readBudget ≠ 0 ∧ c.writeBudget ≠ 0) ∧
    (c.clientTlsEnabled = true ∨ ∀ option ∈ TextOption.client, option.field.get c = []) ∧
    (c.targetTlsEnabled = true ∨ ∀ option ∈ TextOption.target, option.field.get c = []) := by
  have secure := tls_secure tls
  have client : (∀ option ∈ TextOption.client, option.field.get c = []) ↔
      c.clientTlsCertFile = [] ∧ c.clientTlsKeyFile = [] ∧
      c.clientTlsPfxFile = [] ∧ c.clientTlsCertStore = [] ∧ c.clientTlsCertThumbprint = [] := by
    simp [TextOption.client, TextOption.field]
  have target : (∀ option ∈ TextOption.target, option.field.get c = []) ↔
      c.targetTlsServerName = [] ∧ c.targetTlsCaFile = [] := by
    simp [TextOption.target, TextOption.field]
  rw [client, target]
  unfold proxyValidateConfig
  split
  next missing => simp only [reduceCtorEq, false_iff]; grind
  next endpoints =>
    split
    next zero => simp only [reduceCtorEq, false_iff]; grind
    next positive =>
      split
      next orphan => simp only [reduceCtorEq, false_iff]; grind
      next clientTls =>
        split
        next orphan => simp only [reduceCtorEq, false_iff]; grind
        next targetTls => simp only [true_iff]; grind

private theorem flag_fold (get : Config → Bool) (flag : Setting)
    (sets : ∀ config s, get (config.set s) = true ↔ s = flag ∨ get config = true) (ss : List Setting)
    (config : Config) : get (ss.foldl Config.set config) = true ↔ flag ∈ ss ∨ get config = true := by
  induction ss generalizing config with
  | nil => simp
  | cons s rest ih => rw [List.foldl_cons, ih, sets, List.mem_cons, eq_comm, or_left_comm, or_assoc]

private theorem mem_switch (arg : Bytes) {flag : Setting} (switch : switchSetting arg = some flag)
    (other : ∀ value, cliOption arg value = none) :
    flag ∈ gs.filterMap Group.setting ↔ .switch arg ∈ gs := by
  have named := switchSetting_name arg flag switch
  rw [List.mem_filterMap]
  constructor
  · rintro ⟨group, member, found⟩
    cases group with
    | switch word =>
      obtain rfl : arg = word := named.symm.trans (switchSetting_name word flag found)
      exact member
    | option word value =>
      obtain rfl : arg = word := named.symm.trans (cliOption_name word value flag found)
      rw [Group.setting, other] at found
      cases found
    | _ => cases found
  · exact fun member => ⟨_, member, switch⟩

/-- A switch is on when it is given. -/
theorem switched (accepts : Accepts proxyConfigInit 0 gs c) :
    (c.clientTlsEnabled = true ↔ .switch (ascii "--client-tls") ∈ gs) ∧
    (c.targetTlsEnabled = true ↔ .switch (ascii "--target-tls") ∈ gs) := by
  obtain ⟨-, ps, places, rfl, -⟩ := accepts
  obtain ⟨listen, target, -, -, -, -, -, rfl⟩ := placed_both places
  constructor
  · rw [flag_fold Config.clientTlsEnabled .clientTlsEnabled (by intro config s; cases s <;> simp [Config.set]),
        List.mem_append,
      mem_switch (ascii "--client-tls") rfl fun _ => rfl]
    simp [proxyConfigInit]
  · rw [flag_fold Config.targetTlsEnabled .targetTlsEnabled (by intro config s; cases s <;> simp [Config.set]),
        List.mem_append,
      mem_switch (ascii "--target-tls") rfl fun _ => rfl]
    simp [proxyConfigInit]

/-- No argument reaches the budgets. -/
theorem budgets_kept (accepts : Accepts config 0 gs c) :
    c.acceptBudget = config.acceptBudget ∧ c.readBudget = config.readBudget ∧ c.writeBudget = config.writeBudget := by
  obtain ⟨-, ps, -, rfl, -⟩ := accepts
  have untouched : ∀ get : Config → Nat, (∀ config s, get (config.set s) = get config) →
      get ((gs.filterMap Group.setting ++ ps).foldl Config.set config) = get config := by
    intro get same
    rw [get_fold get (fun _ => none) same]
    simp
  refine ⟨untouched _ ?_, untouched _ ?_, untouched _ ?_⟩
  all_goals
    intro config s
    cases s <;> rfl

/-- The endpoints are those that were read. -/
theorem endpoints_placed (accepts : Accepts config 0 gs c) : ∃ first second, gs.filterMap Group.text = [first, second] ∧
    endpoint? first = some c.listenEndpoint ∧ endpoint? second = some c.targetEndpoint := by
  obtain ⟨-, ps, places, rfl, -⟩ := accepts
  obtain ⟨listen, target, first, second, texts, listens, targets, rfl⟩ := placed_both places
  refine ⟨first, second, texts, ?_, ?_⟩
  · rw [List.foldl_append]
    exact listens
  · rw [List.foldl_append]
    exact targets

/-- A text that is not hollow has a host and a port. -/
theorem endpoint_filled {text : Bytes} {endpoint : Endpoint} (read : endpoint? text = some endpoint) :
    (endpoint.host ≠ [] ∧ endpoint.port ≠ []) ↔ ¬ Hollow text := by
  have returns := (endpoint_some ⟨[], []⟩).mp read
  constructor
  · rintro ⟨host, port⟩ ⟨hollow, rfl, free, hostFits, portFits, empty⟩
    rw [parse_bracketed free, copyEndpoint_ok] at returns
    obtain ⟨rfl, -⟩ := returns
    exact empty.elim host port
  · intro filled
    have usable := ((exact_filled filled _ _).mp returns).2
    exact ⟨usable.host, usable.port⟩

/-- A size is zero when a zero is written. -/
theorem read_zero {text : Bytes} {n : Nat} (option : NumericOption) (wide : option.limit = 2 ^ 64)
    (read : option.field.read text = some n) :
    n = 0 ↔ Reads text 0 := by
  obtain ⟨value, reads, rfl⟩ := option.read_some.mp read
  rw [wide, Nat.mod_eq_of_lt (NumericOption.ulong_lt value)]
  constructor
  · intro zero
    obtain rfl : value = 0 := by
      unfold ulong ulongMax at zero
      split at zero <;> omega
    exact reads
  · intro written
    have same := congrArg Prod.fst ((strtoul_reads reads).symm.trans (strtoul_reads written))
    exact same

private theorem number_positive (option : NumericOption) (wide : option.limit = 2 ^ 64)
    (default : option.field.get proxyConfigInit ≠ 0) (accepts : Accepts proxyConfigInit 0 gs c) :
    option.field.get c ≠ 0 ↔ ∀ text, (values option.field.name gs).getLast? = some text → ¬ Reads text 0 := by
  cases last : (values option.field.name gs).getLast? with
  | none => simpa [option.field.untouched accepts last] using default
  | some text => simp [read_zero option wide (option.field.read_last accepts last)]

private theorem texts_empty (options : List TextOption)
    (defaults : ∀ option ∈ options, option.field.get proxyConfigInit = [])
    (accepts : Accepts proxyConfigInit 0 gs c) : (∀ option ∈ options, option.field.get c = []) ↔
      ∀ option ∈ options, ∀ text, (values option.field.name gs).getLast? = some text → text = [] := by
  refine forall₂_congr fun option member => ?_
  rw [option.get_last accepts, defaults option member]
  cases (values option.field.name gs).getLast? with
  | none => simp
  | some text => simp

/-- Of the vectors that the command line accepts, the proxy takes the coherent ones. -/
theorem accepted_validates (accepted : cliParseArgs args proxyConfigInit = (c, .ok)) :
    proxyValidateConfig c = .ok () ↔ Coherent args := by
  have accepts := (cliLoop_ok _ 0 args).mp accepted
  obtain ⟨client, target⟩ := switched accepts
  obtain ⟨accept, read, write⟩ := budgets_kept accepts
  obtain ⟨first, second, texts, listens, targets⟩ := endpoints_placed accepts
  have endpoints : (∀ text, .positional text ∈ groups args → ¬ Hollow text) ↔ ¬ Hollow first ∧ ¬ Hollow second := by
    have mem : ∀ text, .positional text ∈ groups args ↔ text ∈ [first, second] := by
      intro text
      rw [← texts, List.mem_filterMap]
      constructor
      · exact fun member => ⟨_, member, rfl⟩
      · rintro ⟨group, member, same⟩
        cases group <;> cases same
        exact member
    simp [mem]
  have budgets : c.acceptBudget ≠ 0 ∧ c.readBudget ≠ 0 ∧ c.writeBudget ≠ 0 := by
    rw [accept, read, write]
    decide
  have connections := number_positive .maxConnections rfl (by decide) accepts
  have buffer := number_positive .bufferSize rfl (by decide) accepts
  have clientTexts := texts_empty TextOption.client (by decide) accepts
  have targetTexts := texts_empty TextOption.target (by decide) accepts
  obtain ⟨-, ps, -, -, tls⟩ := accepts
  rw [validates_iff tls, endpoint_filled listens, endpoint_filled targets, client, target, clientTexts, targetTexts]
  constructor
  · rintro ⟨listen, target, max, size, -, clientTls, targetTls⟩
    exact ⟨endpoints.mpr ⟨listen, target⟩, connections.mp max, buffer.mp size, clientTls, targetTls⟩
  · intro coherent
    obtain ⟨listen, target⟩ := endpoints.mp coherent.endpoints
    exact ⟨listen, target, connections.mpr coherent.connections,
      buffer.mpr coherent.buffer, budgets, coherent.client, coherent.target⟩

def usable : List Bytes := [ascii "--target-tls", ascii "--target-tls-server-name", ascii "b", ascii "a:1", ascii "b:2"]

theorem accepted_validates_usable : Coherent usable := by
  have accepted : cliParseArgs usable proxyConfigInit = ((cliParseArgs usable proxyConfigInit).1, .ok) :=
    Prod.ext rfl (show (cliParseArgs usable proxyConfigInit).2 = .ok by decide +kernel)
  exact (accepted_validates accepted).mp (by decide +kernel)

def orphaned : List Bytes := [ascii "--target-tls-server-name", ascii "b", ascii "a:1", ascii "b:2"]

/-- A server name without TLS: the command line takes it, and the proxy does not start. -/
theorem accepted_refused : (cliParseArgs orphaned proxyConfigInit).2 = .ok ∧
    proxyValidateConfig (cliParseArgs orphaned proxyConfigInit).1 = .error .invalid := by
  constructor
  all_goals decide +kernel

end Sockify.Proofs.CommandAcceptance
