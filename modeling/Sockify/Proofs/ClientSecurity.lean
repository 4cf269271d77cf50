import Sockify.Lib.History
import Sockify.Proofs.Changes
import Sockify.Proofs.Newcomers
import Sockify.Proofs.Noninterference

/-! With client TLS enabled, no byte moves on either leg of a session before the
client's handshake has succeeded, and no byte of the client outside of TLS. -/

namespace Sockify.Proofs.ClientSecurity
open Sockify Stateful Behaviour Soundness Creation Lifetimes Building Newcomers Locality Noninterference Changes History

/-- A call that moves data, or offers some. -/
def Carries : Io → Prop
  | .read _ _ _ (.ok _) | .write _ _ _ _ => True
  | _ => False

/-- What uses the transport of the client uses this one. -/
def Over (transport : Transport) : Io → Prop
  | .read .client used _ _ | .write .client used _ _ => used = transport
  | _ => True

def Secured (before : List Io) (io : Io) : Prop :=
  Carries io → ∃ transport, transport.type = .tls ∧ .handshake .client transport (.ok ()) ∈ before ∧ Over transport io

structure Veiled (config : Config) (m : Moment) : Prop where
  sound : Sound config m.session
  type : m.session.clientTransport.type = .tls
  ready : m.session.clientTlsReady = true → .handshake .client m.session.clientTransport (.ok ()) ∈ m.log
  log : Justified Secured m.log

variable {config : Config} {early : Prop} {m n : Moment} {s t : Session} {l l' more : List Io}
  {h h' : Bytes} {w : World} {id : SessionId} {env : Env}

theorem Veiled.append (veiled : Veiled config ⟨s, l, h⟩)
    (allowed : ∀ io ∈ more, Carries io → s.clientTlsReady = true ∧ Over s.clientTransport io) :
    Justified Secured (l ++ more) := by
  refine veiled.log.append fun past io later layout carries => ?_
  obtain ⟨ready, own⟩ := allowed io (by simp [layout]) carries
  exact ⟨s.clientTransport, veiled.type, List.mem_append_left _ (veiled.ready ready), own⟩

/-- A step that keeps the transport of the client and does only what it may do. -/
theorem Veiled.step (more : List Io) (veiled : Veiled config ⟨s, l, h⟩) (sound : Sound config t)
    (transport : t.clientTransport = s.clientTransport) (ready : t.clientTlsReady = s.clientTlsReady)
    (logged : l' = l ++ more)
    (allowed : ∀ io ∈ more, Carries io → s.clientTlsReady = true ∧ Over s.clientTransport io) :
    Veiled config ⟨t, l', h'⟩ := by
  subst logged
  refine ⟨sound, by rw [transport]; exact veiled.type, fun secure => ?_, veiled.append allowed⟩
  rw [transport]
  exact List.mem_append_left _ (veiled.ready (ready ▸ secure))

/-- An upgraded session is behind the handshake of its client. -/
theorem upgraded_ready (sound : Sound config s) (done : s.handshakeDone = true) : s.clientTlsReady = true :=
  (sound.late done).2.2

private theorem busy_ready (sound : Sound config s) (busy : s.clientOutPos < s.clientOutLen) :
    s.clientTlsReady = true := by
  apply upgraded_ready sound
  by_contra unfinished
  obtain ⟨-, -, ⟨empty, -⟩, -⟩ := sound.early (by simpa using unfinished)
  omega

private theorem transfers_ready (sound : Sound config s) (transfers : Transfers early s) : s.clientTlsReady = true := by
  apply upgraded_ready sound
  by_contra unfinished
  obtain ⟨-, -, -, -, -, -, absent, -⟩ := sound.early (by simpa using unfinished)
  simp [transfers.1] at absent

private theorem veiled_acts (veiled : Veiled config ⟨s, l, h⟩)
    (act : Acts config early ⟨s, l, h⟩ ⟨t, l', h'⟩) : Veiled config ⟨t, l', h'⟩ := by
  have sound : Sound config t := sound_acts (m := ⟨s, l, h⟩) (n := ⟨t, l', h'⟩) veiled.sound act
  have before : Sound config s := veiled.sound
  rcases act with ⟨_, ⟨-, reads⟩ | ⟨-, writes⟩ | secures⟩ | target
  · cases reads with
    | touched | gathered | discarded | cleared => exact veiled.step [] sound rfl rfl (by simp) (by simp)
    | received bytes ready => exact veiled.step _ sound rfl rfl rfl (by simp [ready, Over])
    | handled result msg done open_ room fed delivered effect =>
      cases effect <;> exact veiled.step _ sound rfl rfl rfl (by simp [Carries])
    | _ => exact veiled.step _ sound rfl rfl rfl (by simp [Carries])
  · cases writes with
    | touched | emptied => exact veiled.step [] sound rfl rfl (by simp) (by simp)
    | refused error busy => exact veiled.step _ sound rfl rfl rfl (by simp [busy_ready before busy, Over])
    | sent count busy => exact veiled.step _ sound rfl rfl rfl (by simp [busy_ready before busy, Over])
    | _ => exact veiled.step _ sound rfl rfl rfl (by simp [Carries])
  · cases secures with
    | refused => exact veiled.step _ sound rfl rfl rfl (by simp [Carries])
    | secured unready => exact ⟨sound, veiled.type, fun _ => by simp, veiled.log.concat _ (by simp [Secured, Carries])⟩
  · cases target with
    | touched => exact veiled.step [] sound rfl rfl (by simp) (by simp)
    | received bytes time transfers =>
      exact veiled.step _ sound rfl rfl rfl (by simp [transfers_ready before transfers, Over])
    | writeRefused error transfers =>
      exact veiled.step _ sound rfl rfl rfl (by simp [transfers_ready before transfers, Over])
    | sent count transfers => exact veiled.step _ sound rfl rfl rfl (by simp [transfers_ready before transfers, Over])
    | _ => exact veiled.step _ sound rfl rfl rfl (by simp [Carries])

private theorem secured_ends (veiled : Veiled config m) (ending : Ends early m n) :
    Justified Secured (n.log ++ [.release n.session]) := by
  refine Justified.concat ?_ _ (by simp [Secured, Carries])
  rcases ending with client | target
  · cases client with
    | here | interrupted | drained => exact veiled.log
    | unparsed | unstarted => exact veiled.append (by simp [Carries])
  · cases target with
    | here => exact veiled.log
    | unsecured => exact veiled.append (by simp [Carries])
    | overflowed bytes time transfers =>
      refine veiled.append fun io member _ => ⟨transfers_ready veiled.sound transfers, ?_⟩
      rcases List.mem_pair.mp member with rfl | rfl <;> exact trivial

/-! A client connection begins on TLS. -/

/-- As `session_create` sets up the client when it has TLS. -/
def Wrapped (s : Session) : Prop := s.closing ≠ .released → s.clientTransport.type = .tls ∧ s.clientTlsReady = false

private theorem sessionInitClient_wraps (enabled : w.config.clientTlsEnabled = true) (clientFd : Socket) :
    Ensures (fun _ _ => True) (sessionInitClient env id clientFd)
      (fun rc after => rc = .ok () → About id Wrapped after) w := by
  rw [sessionInitClient, ensures_bind, ensures_inspect, ensures_bind, ensures_inspect, if_pos enabled]
  split
  · simp
  · refine ensures_behind fun n u => ?_
    split
    · simp
    · rw [ensures_bind]
      exact (update_sets fun _ _ => ⟨rfl, rfl⟩).weaken (fun _ after wrapped _ => wrapped) fun _ _ stopped => stopped

private theorem sessionSetUp_wraps (enabled : config.clientTlsEnabled = true) (id : SessionId)
    (clientFd : Socket) (w : World) (configured : w.config = config) :
    Ensures (fun _ _ => True) (sessionSetUp env id clientFd) (Returned Wrapped id) w := by
  rw [sessionSetUp, ensures_bind, ensures_inspect, ensures_bind]
  refine (sessionInitClient_wraps (configured ▸ enabled) clientFd).weaken (fun rc u wraps => ?_)
    fun _ _ stopped => stopped
  split
  · exact gaveUp_returns
  next fine =>
    have builds : Builds id (About id Wrapped) := builds_about
      (fun f builder s wrapped live => by
        obtain ⟨-, closing, transport, ready⟩ := builder s
        rw [transport, ready]
        exact wrapped (closing ▸ live))
      (fun s released live => absurd released live)
    exact (keeps_setUpRest builds w.config u (wraps (not_not.mp fine))).weaken
      (fun _ _ wrapped (_ : _ ≠ none) => wrapped) fun _ _ _ => trivial

/-! Whole runs. -/

def VeiledOrGone (config : Config) (state : Option Session) (log : List Io) : Prop :=
  match state with
  | some s => Veiled config ⟨s, log, []⟩
  | none => Justified Secured log

def AllVeiled (config : Config) (w : World) : Prop := ∀ id, VeiledOrGone config (w.session? id) (w.log id)

private theorem veiled_created (wrapped : Wrapped s) (created : Created config s) : Veiled config ⟨s, [], []⟩ := by
  obtain ⟨type, unready⟩ := wrapped (by simp [created.closing.1])
  exact ⟨created.sound, type, fun ready => by simp [unready] at ready, justified_nil⟩

private theorem released_secured (secured : Justified Secured l) (s : Session) :
    Justified Secured (l ++ [.release s]) :=
  secured.concat _ (by simp [Secured, Carries])

/-- What a session's own callback makes of it. -/
theorem fate_veiled {acts ends : Moment → Moment → Prop} {state : Option Session} {log : List Io}
    (veiled : Veiled config ⟨s, l, []⟩) (fate : Fate acts ends s l state log)
    (included : ∀ m n, acts m n → Acts config True m n) (lasts : ∀ m n, ends m n → Ends True m n) :
    VeiledOrGone config state log := by
  have along : ∀ {m}, Path acts ⟨s, l, []⟩ m → Veiled config m := fun path =>
    path_keeps (Veiled config) (fun _ _ veiled act => veiled_acts veiled (included _ _ act)) veiled path
  cases fate with
  | kept path => exact along path
  | released path ending => exact secured_ends (along path) (lasts _ _ ending)

/-- Only the listener begins sessions. -/
theorem born_accepted {call : Call} (inv : Invariant config True w) (able : call.Enabled w)
    (absent : w.session? id = none) (born : (w.after env call).session? id = some s) :
    ∃ events, call = .accept events := by
  have misses : Alike id w (w.after env call) → False := fun alike => by
    rw [← alike.session, absent] at born
    cases born
  cases call with
  | accept events => exact ⟨events, rfl⟩
  | tick => exact (misses (tick_misses env inv absent)).elim
  | client other events =>
    obtain ⟨t, present, -⟩ := able
    have different : id ≠ other := by
      rintro rfl
      simp [absent] at present
    exact (misses (callback_respects (sessionHandleClientEvent_local events) inv present different)).elim
  | target other events =>
    obtain ⟨t, present, -⟩ := able
    have different : id ≠ other := by
      rintro rfl
      simp [absent] at present
    exact (misses (callback_respects (sessionHandleTargetEvent_local events) inv present different)).elim

private theorem step_veiled (enabled : config.clientTlsEnabled = true) (env : Env) {call : Call}
    (inv : Invariant config True w) (able : call.Enabled w) (all : AllVeiled config w) :
    AllVeiled config (w.after env call) := by
  intro id
  have before := all id
  have change := step_changes env inv able id
  generalize state : (w.after env call).session? id = now at change ⊢
  generalize (w.after env call).log id = log at change ⊢
  cases change with
  | aside aside =>
    cases aside with
    | still => exact before
    | expired alive =>
      rw [alive] at before
      exact released_secured before.log _
    | stillborn absent silent => exact released_secured justified_nil _
    | born absent silent created =>
      obtain ⟨events, rfl⟩ := born_accepted inv able absent state
      exact veiled_created ((accept_joins (sessionSetUp_wraps enabled) events inv).joined id _ state absent) created
  | client same alive fate =>
    rw [alive] at before
    exact fate_veiled before fate (fun _ _ act => .inl ⟨_, act⟩) fun _ _ ending => .inl (ends_weaken ending)
  | target same alive fate =>
    rw [alive] at before
    exact fate_veiled before fate (fun _ _ act => .inr act) fun _ _ ending => .inr ending

/-- With client TLS enabled, in every run and for every session: whatever is
read from the client or the target and whatever is offered to either comes
behind a successful handshake on a TLS transport of the client, and the client
is reached over this transport only. -/
theorem client_tls_enforced {config : Config} {w : World} (enabled : config.clientTlsEnabled = true)
    (reachable : Reachable config w) (id : SessionId) :
    Justified Secured (w.log id) := by
  have all : AllVeiled config w :=
    runs_keep (AllVeiled config) (fun _ => justified_nil)
      (fun u env call reached able _ all => step_veiled enabled env (reachable_invariant reached) able all)
      reachable
  have veiled := all id
  unfold VeiledOrGone at veiled
  split at veiled
  · exact veiled.log
  · exact veiled

def veiledConfig : Config := { sampleConfig 65536 with clientTlsEnabled := true }

def answered : World :=
  (connected veiledConfig).after (.scripted [.error .again, .ok sampleRequest] true 0) (.client 0 .reading)

theorem client_tls_enforced_answered :
    .read .client ⟨.tls, some 5, some 1⟩ ioChunk (.ok sampleRequest) ∈ answered.log 0 ∧
    Justified Secured (answered.log 0) := by
  obtain ⟨enabled, moved⟩ : (Call.client 0 .reading).Enabled (connected veiledConfig) ∧
      .read .client ⟨.tls, some 5, some 1⟩ ioChunk (.ok sampleRequest) ∈ answered.log 0 := by decide +kernel
  have reachable : Reachable veiledConfig answered := (connected_runs trivial).next _ _ trivial enabled
  exact ⟨moved, client_tls_enforced (by decide) reachable 0⟩

end Sockify.Proofs.ClientSecurity
