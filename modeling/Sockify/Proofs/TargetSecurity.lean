import Sockify.Lib.History
import Sockify.Proofs.Lifetimes

/-! With target TLS enabled, data moves to and from the target only on a TLS
transport whose handshake has succeeded, provided that every connect completes
through the event loop and no target event reads before it has. -/

namespace Sockify.Proofs.TargetSecurity
open Sockify Behaviour Soundness Lifetimes History

/-- A call that moves data to or from the target, and its transport. -/
def Moves : Io → Transport → Prop
  | .read .target transport _ _, used => transport = used
  | .write .target transport _ _, used => transport = used
  | _, _ => False

/-- Every such call of the record is on a TLS transport, behind its handshake. -/
def Secure (log : List Io) : Prop :=
  ∀ before io after transport, log = before ++ io :: after → Moves io transport →
    transport.type = .tls ∧ .handshake .target transport (.ok ()) ∈ before

structure Guarded (config : Config) (m : Moment) : Prop where
  sound : Sound config m.session
  initial : m.session.handshakeDone = false → m.session.targetTlsReady = false
  pending : m.session.targetConnecting = true → m.session.targetTlsReady = false
  wrapped : m.session.targetRegistered = true → m.session.targetConnecting = false →
    m.session.targetTransport.type = .tls
  ready : m.session.targetTlsReady = true →
    m.session.targetTransport.type = .tls ∧ .handshake .target m.session.targetTransport (.ok ()) ∈ m.log
  log : Secure m.log

variable {config : Config} {m n : Moment} {s t : Session} {l l' more : List Io} {h h' : Bytes}

private theorem secure_iff {log : List Io} : Secure log ↔ Justified (fun before io => ∀ transport, Moves io transport →
    transport.type = .tls ∧ .handshake .target transport (.ok ()) ∈ before) log :=
  ⟨fun secure before io after layout transport => secure before io after transport layout,
    fun justified before io after transport layout => justified before io after layout transport⟩

theorem Secure.append {log : List Io} (secure : Secure log)
    (rest : ∀ io ∈ more, ∀ transport, Moves io transport →
      transport.type = .tls ∧ .handshake .target transport (.ok ()) ∈ log) :
    Secure (log ++ more) := by
  rw [secure_iff] at secure ⊢
  apply secure.append
  intro before io after layout transport moves
  obtain ⟨tls, done⟩ := rest io (by simp [layout]) transport moves
  exact ⟨tls, List.mem_append_left before done⟩

private theorem secure_nil : Secure [] := fun _ _ _ _ layout => by simp at layout

/-- A step that leaves the target leg as it is and moves no target data. -/
theorem Guarded.still (more : List Io) (guarded : Guarded config ⟨s, l, h⟩) (sound : Sound config t)
    (done : t.handshakeDone = s.handshakeDone) (connecting : t.targetConnecting = s.targetConnecting)
    (ready : t.targetTlsReady = s.targetTlsReady) (registered : t.targetRegistered = s.targetRegistered)
    (transport : t.targetTransport = s.targetTransport) (logged : l' = l ++ more)
    (quiet : ∀ io ∈ more, ∀ used, ¬ Moves io used) : Guarded config ⟨t, l', h'⟩ where
  sound := sound
  initial := fun unfinished => ready ▸ guarded.initial (done ▸ unfinished)
  pending := fun waits => ready ▸ guarded.pending (connecting ▸ waits)
  wrapped := fun here settled => transport ▸ guarded.wrapped (registered ▸ here) (connecting ▸ settled)
  ready := fun secure => by
    obtain ⟨tls, handshake⟩ := guarded.ready (ready ▸ secure)
    exact ⟨transport ▸ tls, by simp only [transport, logged]; exact List.mem_append_left _ handshake⟩
  log := by
    rw [show (⟨t, l', h'⟩ : Moment).log = l ++ more from logged]
    exact guarded.log.append fun io member used moves => absurd moves (quiet io member used)

/-- A step that moves target data as the transfer conditions allow. -/
theorem Guarded.moved (guarded : Guarded config ⟨s, l, h⟩) (transfers : Transfers False s) (sound : Sound config t)
    (done : t.handshakeDone = s.handshakeDone) (connecting : t.targetConnecting = s.targetConnecting)
    (ready : t.targetTlsReady = s.targetTlsReady) (registered : t.targetRegistered = s.targetRegistered)
    (transport : t.targetTransport = s.targetTransport)
    (own : ∀ io ∈ more, ∀ used, Moves io used → used = s.targetTransport) : Guarded config ⟨t, l ++ more, h'⟩ where
  sound := sound
  initial := fun unfinished => ready ▸ guarded.initial (done ▸ unfinished)
  pending := fun waits => ready ▸ guarded.pending (connecting ▸ waits)
  wrapped := fun here settled => transport ▸ guarded.wrapped (registered ▸ here) (connecting ▸ settled)
  ready := fun secure => by
    obtain ⟨tls, handshake⟩ := guarded.ready (ready ▸ secure)
    exact ⟨transport ▸ tls, by simp only [transport]; exact List.mem_append_left _ handshake⟩
  log := by
    obtain ⟨-, ⟨secure, -⟩ | ⟨impossible, -⟩⟩ := transfers
    · exact guarded.log.append fun io member used moves => own io member used moves ▸ guarded.ready secure
    · exact impossible.elim

private theorem guarded_acts (enabled : config.targetTlsEnabled = true) (guarded : Guarded config ⟨s, l, h⟩)
    (act : Acts config False ⟨s, l, h⟩ ⟨t, l', h'⟩) : Guarded config ⟨t, l', h'⟩ := by
  have sound : Sound config t := sound_acts (m := ⟨s, l, h⟩) (n := ⟨t, l', h'⟩) guarded.sound act
  rcases act with ⟨_, ⟨-, reads⟩ | ⟨-, writes⟩ | secures⟩ | target
  · cases reads with
    | handled result msg done open_ room fed delivered effect =>
      cases effect <;> exact guarded.still _ sound rfl rfl rfl rfl rfl rfl (by simp [Moves])
    | accepted response consumed fd inProgress time unfinished open_ ready granted prompt =>
      have waits : inProgress = true := by cases inProgress with | true => rfl | false => exact (prompt rfl).elim
      have unready : s.targetTlsReady = false := guarded.initial unfinished
      refine ⟨sound, fun _ => unready, fun _ =>
        unready, fun _ settled => ?_, fun ready => ?_, guarded.log.append (by simp [Moves])⟩
      · exact absurd waits (Bool.eq_false_iff.mp settled)
      · exact absurd ready (Bool.eq_false_iff.mp unready)
    | touched | gathered | discarded | cleared =>
      exact guarded.still [] sound rfl rfl rfl rfl rfl (by simp) (by simp)
    | _ => exact guarded.still _ sound rfl rfl rfl rfl rfl rfl (by simp [Moves])
  · cases writes with
    | touched | emptied => exact guarded.still [] sound rfl rfl rfl rfl rfl (by simp) (by simp)
    | _ => exact guarded.still _ sound rfl rfl rfl rfl rfl rfl (by simp [Moves])
  · cases secures <;> exact guarded.still _ sound rfl rfl rfl rfl rfl rfl (by simp [Moves])
  · cases target with
    | touched => exact guarded.still [] sound rfl rfl rfl rfl rfl (by simp) (by simp)
    | unconnected | handshakeRefused => exact guarded.still _ sound rfl rfl rfl rfl rfl rfl (by simp [Moves])
    | connectedPlain time plain => simp [enabled] at plain
    | connectedTls time connection secure pending =>
      exact ⟨sound, fun _ => rfl, fun _ =>
        rfl, fun _ _ => rfl, fun ready => by simp at ready, guarded.log.append (by simp [Moves])⟩
    | secured registered connected unready =>
      refine ⟨sound, fun unfinished =>
        ?_, fun waits => ?_, guarded.wrapped, fun _ => ⟨guarded.wrapped registered connected, by simp⟩, ?_⟩
      · obtain ⟨-, -, -, -, -, -, none, -⟩ := guarded.sound.early unfinished
        exact absurd registered (Bool.eq_false_iff.mp none)
      · exact absurd waits (Bool.eq_false_iff.mp connected)
      · exact guarded.log.append (by simp [Moves])
    | readRefused error transfers => exact guarded.moved transfers sound rfl rfl rfl rfl rfl (by simp [Moves, eq_comm])
    | received bytes time transfers =>
      exact guarded.moved transfers sound rfl rfl rfl rfl rfl (by simp [Moves, eq_comm])
    | writeRefused error transfers => exact guarded.moved transfers sound rfl rfl rfl rfl rfl (by simp [Moves, eq_comm])
    | sent count transfers => exact guarded.moved transfers sound rfl rfl rfl rfl rfl (by simp [Moves, eq_comm])

private theorem guarded_created (enabled : config.targetTlsEnabled = true)
    (created : Creation.Created config s) : Guarded config ⟨s, [], []⟩ where
  sound := created.sound
  initial := fun _ => by rw [created.ready, enabled]; rfl
  pending := fun _ => by rw [created.ready, enabled]; rfl
  wrapped := fun registered => absurd registered (Bool.eq_false_iff.mp created.target.2.1)
  ready := fun ready => absurd ready (by rw [created.ready, enabled]; decide)
  log := secure_nil

private theorem secure_ends (guarded : Guarded config m) (ending : Ends False m n) :
    Secure (n.log ++ [.release n.session]) := by
  rcases ending with client | target
  · cases client with
    | here | interrupted | drained => exact guarded.log.append (by simp [Moves])
    | _ => exact (guarded.log.append (by simp [Moves])).append (by simp [Moves])
  · cases target with
    | here => exact guarded.log.append (by simp [Moves])
    | unsecured => exact (guarded.log.append (by simp [Moves])).append (by simp [Moves])
    | overflowed bytes time transfers =>
      obtain ⟨-, ⟨secure, -⟩ | ⟨impossible, -⟩⟩ := transfers
      · refine (guarded.log.append fun io member used moves => ?_).append (by simp [Moves])
        rcases List.mem_pair.mp member with rfl | rfl
        · exact (show _ = used from moves) ▸ guarded.ready secure
        · exact moves.elim
      · exact impossible.elim

/-- As long as no connect completes by itself and no target event reads from a
pending connect, target data is on TLS and behind its handshake. -/
theorem target_tls_enforced {config : Config} {w : World} (enabled : config.targetTlsEnabled = true)
    (run : Runs (Prompt False) (serverInit config) w) (id : SessionId) : Secure (w.log id) :=
  (runs_invariant (fun _ _ _ prompt => prompt) run).every_log (Guarded config) Secure
    (fun _ created => guarded_created enabled created) (fun _ _ guarded act => guarded_acts enabled guarded act)
    (fun _ guarded => guarded.log) (fun _ _ guarded ending => secure_ends guarded ending)
    secure_nil
    (fun s => by
      have secure : Secure ([] ++ [.release s]) := secure_nil.append (by simp [Moves])
      simpa using secure) id

def tlsConfig : Config := { sampleConfig 65536 with targetTlsEnabled := true }

def relayed : World :=
  (opened tlsConfig true).after
    (.scripted [.error .again, .error .again, .error .again, .error .again, .ok [1, 2, 3]] true 0) (.target 0 .both)

theorem target_tls_enforced_relayed :
    .read .target ⟨.tls, some 7, some 1⟩ ioChunk (.ok [1, 2, 3]) ∈ relayed.log 0 ∧ Secure (relayed.log 0) := by
  have prompt : ∀ w waiting call, (∀ id events, call = .target id events → events = .both) →
      Prompt False w (.scripted waiting true 0) call := by
    refine fun w waiting call both => ⟨?_, ?_⟩
    · rintro ⟨n, fd, immediate⟩
      cases immediate
    · rintro id events s same - ⟨-, -, write, -⟩
      rw [both id events same] at write
      cases write
  obtain ⟨run, moved⟩ : Runs (Prompt False) (serverInit tlsConfig) relayed ∧
      .read .target ⟨.tls, some 7, some 1⟩ ioChunk (.ok [1, 2, 3]) ∈ relayed.log 0 :=
    And.imp_left (Runs.next_of (opened_runs (prompt _ _ _ nofun) (prompt _ _ _ nofun))
      (prompt _ _ _ fun _ _ same => by cases same; rfl))
      (by decide +kernel)
  exact ⟨moved, target_tls_enforced (by decide) run 0⟩

def downgraded : World :=
  (opened tlsConfig false).after (.scripted [.error .again, .ok [1, 2, 3]] false 0) (.target 0 .reading)

theorem target_tls_bypassed : tlsConfig.Accepted ∧ Reachable tlsConfig downgraded ∧ ¬ Secure (downgraded.log 0) := by
  obtain ⟨reachable, moved⟩ : Reachable tlsConfig downgraded ∧
      .read .target ⟨.plain, some 7, none⟩ ioChunk (.ok [1, 2, 3]) ∈ downgraded.log 0 :=
    And.imp_left (Runs.next_of (opened_runs trivial trivial) trivial) (by decide +kernel)
  refine ⟨by decide, reachable, fun secure => ?_⟩
  obtain ⟨before, after, layout⟩ := List.append_of_mem moved
  obtain ⟨tls, -⟩ := secure before _ after _ layout rfl
  cases tls

end Sockify.Proofs.TargetSecurity
