import Sockify.Behaviour
import Sockify.Proofs.BufferQueue
import Sockify.Proofs.SessionLogic

/-! What each small function of a session does to the session's own part. -/

namespace Sockify.Proofs.SessionSteps
open Sockify Stateful Behaviour SessionLogic

variable {site : Site} {β : Type} {ended : Bool → Own → Prop} {alive : β → Own → Prop} {x : Own} {env : Env}

/-- A frame fits when its payload is shorter than the slot by the longest header. -/
theorem wsWriteFrame_fits (opcode : Nat) (payload : Bytes) (size : Nat) (known : validOpcode opcode = true)
    (short : isControlOpcode opcode = true → payload.length ≤ 125) (room : payload.length + 10 ≤ size)
    (bounded : payload.length + 10 < sizeModulus) : ∃ frame, wsWriteFrame opcode payload size = .ok frame := by
  have header : (if payload.length ≤ 125 then 2 else if payload.length ≤ 65535 then 4 else 10) ≤ 10 := by
    split
    · omega
    · split <;> omega
  unfold wsWriteFrame
  rw [if_neg (by simp [known]), if_neg (by rintro ⟨control, long⟩; have := short control; omega)]
  simp only
  rw [if_neg (by rw [Nat.mod_eq_of_lt (by omega)]; omega)]
  exact ⟨_, rfl⟩

/-- The slot always has room for a control frame. -/
theorem control_fits {s : Session} {payload : Bytes} (opcode : Nat) (known : validOpcode opcode = true)
    (capacity : s.clientOutCapacity = ioChunk + 14) (short : payload.length ≤ 125) :
    ∃ frame, wsWriteFrame opcode payload s.clientOutCapacity = .ok frame := by
  apply wsWriteFrame_fits opcode payload s.clientOutCapacity known fun _ => short
  · rw [capacity, ioChunk]
    omega
  · rw [sizeModulus]
    omega

theorem yields_touch (next : Unit → Proc β) :
    Yields site ended (sessionTouch env site.id >>= next) alive x ↔
      Yields site ended (next ()) alive
        { x with session := { x.session with lastActivityAt := env.time x.calls } } := by
  rw [sessionTouch, yields_bind_assoc, yields_calls, yields_update]

theorem yields_makeWsFrame_idle {opcode : Nat} {payload : Bytes} (frame : Bytes)
    (next : Except Err Unit → Proc β) (idle : Idle x.session)
    (written : wsWriteFrame opcode payload x.session.clientOutCapacity = .ok frame) :
    Yields site ended (sessionMakeWsFrame site.id opcode payload >>= next) alive x ↔
      Yields site ended (next (.ok ())) alive
        { x with session := fill x.session frame, log := x.log ++ [.frame opcode payload] } := by
  have slot : ¬ x.session.clientOutLen ≠ x.session.clientOutPos := not_not.mpr idle
  rw [sessionMakeWsFrame, yields_bind_assoc, yields_deref, if_neg slot, written]
  simp only
  rw [yields_bind_assoc, yields_update, yields_bind_assoc, yields_record, yields_pure_bind]
  rfl

private theorem yields_makeWsFrame_busy {opcode : Nat} {payload : Bytes}
    (next : Except Err Unit → Proc β) (busy : ¬ Idle x.session) :
    Yields site ended (sessionMakeWsFrame site.id opcode payload >>= next) alive x ↔
      Yields site ended (next (.error .again)) alive x := by
  have slot : x.session.clientOutLen ≠ x.session.clientOutPos := busy
  rw [sessionMakeWsFrame, yields_bind_assoc, yields_deref, if_pos slot, yields_pure_bind]

theorem yields_setClientOut_idle {data : Bytes} (next : Except Err Unit → Proc β)
    (idle : Idle x.session) (fits : data.length ≤ x.session.clientOutCapacity) :
    Yields site ended (sessionSetClientOut site.id data >>= next) alive x ↔
      Yields site ended (next (.ok ())) alive
        { x with session := fill x.session data, log := x.log ++ [.response data] } := by
  have slot : ¬ x.session.clientOutLen ≠ x.session.clientOutPos := not_not.mpr idle
  rw [sessionSetClientOut, yields_bind_assoc, yields_deref, if_neg (by omega), if_neg slot,
    yields_bind_assoc, yields_update,
    yields_bind_assoc, yields_record, yields_pure_bind]
  rfl

theorem yields_readSide {side : Side} {limit : Nat} (next : Except Err Bytes → Proc β) :
    Yields site ended (readSide env site.id side limit >>= next) alive x ↔
      Yields site ended (next (transportRead env x.calls (x.session.transport side) limit)) alive
        { x with
          calls := x.calls + 1
          log := x.log ++ [.read side (x.session.transport side) limit
              (transportRead env x.calls (x.session.transport side) limit)] } := by
  rw [readSide, yields_bind_assoc, yields_deref, yields_bind_assoc, yields_nextCall]
  simp only
  rw [yields_bind_assoc, yields_record, yields_pure_bind]

theorem yields_writeSide {side : Side} {data : Bytes} (next : Except Err Nat → Proc β) :
    Yields site ended (writeSide env site.id side data >>= next) alive x ↔
      Yields site ended (next (transportWrite env x.calls (x.session.transport side) data)) alive
        { x with
          calls := x.calls + 1
          log := x.log ++ [.write side (x.session.transport side) data
              (transportWrite env x.calls (x.session.transport side) data)] } := by
  rw [writeSide, yields_bind_assoc, yields_deref, yields_bind_assoc, yields_nextCall]
  simp only
  rw [yields_bind_assoc, yields_record, yields_pure_bind]

/-- A client whose handshake is not done: it is driven, and the handler goes on, waits or closes. -/
theorem yields_driveClient {transfer : Proc Unit}
    {alive : Unit → Own → Prop} (unready : x.session.clientTlsReady = false) :
    Yields site ended (do
      let rc ← sessionDriveClientTls env site.id
      if rc = .error .again then sessionUpdateEvents env site.id
      else
        let s ← deref site.id
        if !s.clientTlsReady then sessionClose site.id else transfer) alive x ↔
      match transportHandshake env x.calls x.session.clientTransport with
      | .ok () => Yields site ended transfer alive
          { x with
            session := { x.session with clientTlsReady := true }
            log := x.log ++ [.handshake .client x.session.clientTransport (.ok ())]
            calls := x.calls + 1 }
      | .error error =>
        Yields site ended (if error = .again then sessionUpdateEvents env site.id else sessionClose site.id) alive
          { x with
            log := x.log ++ [.handshake .client x.session.clientTransport (.error error)]
            calls := x.calls + 1 } := by
  rw [sessionDriveClientTls, yields_bind_assoc,
    yields_deref, if_neg (by simp [unready]), yields_bind_assoc, yields_nextCall]
  simp only
  rw [yields_bind_assoc, yields_record]
  cases transportHandshake env x.calls x.session.clientTransport with
  | ok =>
    simp only
    rw [yields_bind_assoc, yields_update, yields_pure_bind, if_neg (by simp), yields_deref, if_neg (by simp)]
  | error error =>
    simp only
    rw [yields_pure_bind]
    split
    next again => rw [if_pos (by simpa using again)]
    next other => rw [if_neg (by simpa using other), yields_deref, if_pos (by simp [unready])]

/-- The same of a target. -/
theorem yields_driveTarget {transfer : Proc Unit}
    {alive : Unit → Own → Prop} (unready : x.session.targetTlsReady = false) :
    Yields site ended (do
      let rc ← sessionDriveTargetTls env site.id
      if rc = .error .again then sessionUpdateEvents env site.id
      else
        let s ← deref site.id
        if !s.targetTlsReady then sessionClose site.id else transfer) alive x ↔
      match transportHandshake env x.calls x.session.targetTransport with
      | .ok () => Yields site ended transfer alive
          { x with
            session := { x.session with targetTlsReady := true }
            log := x.log ++ [.handshake .target x.session.targetTransport (.ok ())]
            calls := x.calls + 1 }
      | .error error =>
        Yields site ended (if error = .again then sessionUpdateEvents env site.id else sessionClose site.id) alive
          { x with
            log := x.log ++ [.handshake .target x.session.targetTransport (.error error)]
            calls := x.calls + 1 } := by
  rw [sessionDriveTargetTls, yields_bind_assoc,
    yields_deref, if_neg (by simp [unready]), yields_bind_assoc, yields_nextCall]
  simp only
  rw [yields_bind_assoc, yields_record]
  cases transportHandshake env x.calls x.session.targetTransport with
  | ok =>
    simp only
    rw [yields_bind_assoc, yields_update, yields_pure_bind, if_neg (by simp), yields_deref, if_neg (by simp)]
  | error error =>
    simp only
    rw [yields_pure_bind]
    split
    next again => rw [if_pos (by simpa using again)]
    next other => rw [if_neg (by simpa using other), yields_deref, if_pos (by simp [unready])]

def started (s : Session) (fd : Socket) (inProgress : Bool) (time : Int) : Session :=
  { s with
    targetFd := some fd, targetConnecting := inProgress, connectStartedAt := time
    targetTransport := transportInitPlain (some fd) }

theorem yields_startTarget (next : Except Err Unit → Proc β) (unstarted : x.session.targetFd = none)
    (unregistered : x.session.targetRegistered = false) :
    Yields site ended (sessionStartTarget env site.id >>= next) alive x ↔
      match env.connect x.calls with
      | .error error => Yields site ended (next (.error error)) alive
          { x with calls := x.calls + 1, log := x.log ++ [.connect (.error error)] }
      | .ok (fd, inProgress) =>
        match env.loopAdd (x.calls + 1) .target with
        | .error error => Yields site ended (next (.error error)) alive
            { x with
              session := started x.session fd inProgress (env.time (x.calls + 1))
              calls := x.calls + 2
              log := x.log ++ [.connect (.ok (fd, inProgress))] }
        | .ok () => Yields site ended (next (.ok ())) alive
            { x with
              session := { started x.session fd inProgress (env.time (x.calls + 1)) with targetRegistered := true }
              interest := Function.update x.interest .target (some .writing)
              calls := x.calls + 2
              log := x.log ++ [.connect (.ok (fd, inProgress))] } := by
  rw [sessionStartTarget, yields_bind_assoc, yields_deref, if_neg (by simp [unstarted]),
    yields_bind_assoc, yields_nextCall,
    yields_bind_assoc, yields_record]
  cases connect : env.connect x.calls with
  | error error => simp only [yields_pure_bind]
  | ok reply =>
    obtain ⟨fd, inProgress⟩ := reply
    simp only
    rw [yields_bind_assoc, yields_update, sessionRegisterTarget,
      yields_bind_assoc, yields_deref, if_neg (by simp [unregistered]),
      yields_bind_assoc, yields_nextCall]
    cases env.loopAdd (x.calls + 1) .target with
    | error error => simp only [yields_pure_bind]; rfl
    | ok =>
      simp only
      rw [yields_bind_assoc, yields_setInterest, yields_bind_assoc, yields_update, yields_pure_bind]
      rfl

/-- How a pending connect completes: it has failed, or it has succeeded and the
target is ready at once, or left without a transport, or wrapped for TLS. -/
theorem completeTargetConnect_cases {alive : Except Err Unit → Own → Prop} (pending : x.session.targetConnecting = true)
    (failed : netSocketError env x.calls x.session.targetFd ≠ .ok 0 →
      alive (.error .sys)
        { x with log := x.log ++ [.connected (netSocketError env x.calls x.session.targetFd)], calls := x.calls + 1 })
    (plain : netSocketError env x.calls x.session.targetFd = .ok 0 → site.world.config.targetTlsEnabled = false →
      alive (.ok ())
        { x with
          session := { x.session with
            targetConnecting := false, connectStartedAt := 0
            lastActivityAt := env.time (x.calls + 1), targetTlsReady := true }
          log := x.log ++ [.connected (.ok 0)]
          calls := x.calls + 1 })
    (unsecured : ∀ error calls, netSocketError env x.calls x.session.targetFd = .ok 0 →
      site.world.config.targetTlsEnabled = true →
      (site.world.targetTlsContext = true → env.tlsCreate (x.calls + 2) x.session.targetFd false (some
        (if site.world.config.targetTlsServerName = [] then site.world.config.targetEndpoint.host
          else site.world.config.targetTlsServerName)) = .error error) →
      alive (.error error)
        { x with
          session := { x.session with
            targetConnecting := false, connectStartedAt :=
              0, lastActivityAt := env.time (x.calls + 1), targetTransport := transportDestroyed }
          log := x.log ++ [.connected (.ok 0)]
          calls := calls })
    (secured : ∀ connection, netSocketError env x.calls x.session.targetFd = .ok 0 →
      site.world.config.targetTlsEnabled = true →
      env.tlsCreate (x.calls + 2) x.session.targetFd false (some
        (if site.world.config.targetTlsServerName = [] then site.world.config.targetEndpoint.host
          else site.world.config.targetTlsServerName)) = .ok connection →
      alive (.ok ())
        { x with
          session := { x.session with
            targetConnecting := false, connectStartedAt := 0, lastActivityAt := env.time (x.calls + 1)
            targetTransport := ⟨.tls, x.session.targetFd, some connection⟩, targetTlsReady := false }
          log := x.log ++ [.connected (.ok 0)]
          calls := x.calls + 3 }) :
    Yields site ended (sessionCompleteTargetConnect env site.id) alive x := by
  rw [sessionCompleteTargetConnect, yields_deref, if_neg (by simp [pending]), yields_nextCall, yields_record]
  by_cases worked : netSocketError env x.calls x.session.targetFd = .ok 0
  · rw [if_neg (not_not.mpr worked), yields_update, yields_config]
    simp only [worked] at *
    split
    next secure =>
      rw [targetInitTls, yields_config, yields_targetContext, yields_nextCall, yields_update]
      split
      next missing =>
        refine yields_pure (unsecured _ _ trivial secure fun present => ?_)
        rw [present] at missing
        cases missing
      next =>
        rw [yields_deref, yields_nextCall]
        simp only
        split
        next error created => exact yields_pure (unsecured error _ trivial secure fun _ => created)
        next connection created =>
          rw [yields_update]
          exact yields_pure (secured connection trivial secure created)
    next insecure =>
      rw [yields_update]
      exact yields_pure (plain trivial (by simpa using insecure))
  · rw [if_pos worked]
    exact yields_pure (failed worked)

/-- The messages that `session_handle_ws_message` is given: the parser never
delivers more than the room it was told of, nor a long control frame. -/
structure Fitting (s : Session) (msg : WsMessage) : Prop where
  data : msg.payload.length ≤ bufferWritable s.clientToTarget
  control : isControlOpcode msg.opcode = true → msg.payload.length ≤ 125

/-- A message has its effect, except for a PING that finds the slot busy. -/
theorem handleWsMessage_yields {msg : WsMessage} {alive : Unit → Own → Prop}
    (valid : BufferQueue.Valid x.session.clientToTarget)
    (capacity : x.session.clientOutCapacity = ioChunk + 14) (fitting : Fitting x.session msg)
    (holds : ∀ t extra, Handled x.session msg t extra → alive () { x with session := t, log := x.log ++ extra })
    (refused : msg.opcode = Opcode.ping → ¬ Idle x.session → x.session.closing ≠ .released ∧ ended false x) :
    Yields site ended (sessionHandleWsMessage site.id msg) alive x := by
  unfold sessionHandleWsMessage
  split
  next data =>
    obtain ⟨status, written, -⟩ := BufferQueue.bufferWrite_fits valid fitting.data
    simp only [yields_deref, yields_update, yields_record]
    refine yields_onlyIf (fun failed => absurd failed (by simp [status, written])) fun _ => ?_
    simpa [written] using holds _ _ (.stored data fitting.data)
  next other =>
    split
    next ping =>
      by_cases idle : Idle x.session
      · have short : msg.payload.length ≤ 125 := fitting.control (by simp [isControlOpcode, ping, Opcode.ping])
        obtain ⟨frame, written⟩ := control_fits Opcode.pong rfl capacity short
        rw [yields_makeWsFrame_idle frame _ idle written]
        refine yields_onlyIf (fun failed => absurd rfl failed) fun _ => ?_
        exact holds _ _ (.ponged frame ping idle written)
      · obtain ⟨live, leaves⟩ := refused ping idle
        rw [yields_makeWsFrame_busy _ idle]
        exact yields_onlyIf (fun _ => yields_close live leaves) fun failed => absurd failed (by simp)
    next notPing =>
      split
      next close =>
        simp only [yields_update, yields_deref]
        by_cases idle : Idle x.session
        · have short : (msg.payload.take 125).length ≤ 125 := by rw [List.length_take]; omega
          obtain ⟨frame, written⟩ := control_fits Opcode.close rfl capacity short
          refine yields_onlyIf (fun _ => ?_) fun busy => absurd idle busy
          rw [yields_makeWsFrame_idle frame _ (by exact idle) (by exact written)]
          refine yields_onlyIf (fun _ => yields_update_last ?_) fun failed => absurd rfl failed
          exact holds _ _ (.closeAnswered frame close idle written)
        · refine yields_onlyIf (fun slot => absurd slot idle) fun _ => ?_
          simpa using holds _ _ (.closeHeld close idle)
      next notClose =>
        refine yields_pure ?_
        simpa using holds _ _ (.ignored ⟨other, notPing, notClose⟩)

/-- The interest of both sides is what the session's state asks for. -/
structure Masked (x : Own) : Prop where
  client : x.session.clientRegistered = true → ∃ wants, x.interest .client = some (clientEvents wants x.session)
  target : x.session.targetRegistered = true → ∃ wants, x.interest .target = some (targetEvents wants x.session)

private theorem yields_loopModify {side : Side} {events : Events} {alive : Unit → Own → Prop}
    (holds : ∀ interest, (env.loopModify x.calls side = .ok () → interest = Function.update x.interest side
      (some events)) → alive () { x with calls := x.calls + 1, interest := interest }) :
    Yields site ended (loopModify env site.id side events) alive x := by
  rw [loopModify, yields_nextCall]
  cases reply : env.loopModify x.calls side with
  | error error => exact yields_pure (holds x.interest (by simp [reply]))
  | ok =>
    unfold Yields
    rw [ensures_setInterest]
    exact .inl ⟨_, holds _ fun _ => rfl, rfl⟩

private theorem yields_wantsCalls {condition : Prop} [Decidable condition] {next : Unit → Proc Unit}
    {alive : Unit → Own → Prop}
    (rest : ∀ calls, Yields site ended (next ()) alive { x with calls := calls }) :
    Yields site ended (onlyIf condition transportWantsCalls >>= next) alive x := by
  unfold onlyIf
  split
  · rw [transportWantsCalls]
    simp only [yields_bind_assoc, yields_nextCall, yields_pure_bind]
    exact rest _
  · rw [yields_pure_bind]
    exact rest x.calls

/-- The masks are computed from the state that the handler leaves. -/
theorem updateEvents_yields {alive : Unit → Own → Prop} (live : x.session.closing ≠ .released)
    (holds : ∀ y : Own, y.session = x.session → y.log = x.log →
      ((∀ n side, env.loopModify n side = .ok ()) → Masked y) → alive () y) :
    Yields site ended (sessionUpdateEvents env site.id) alive x := by
  rw [sessionUpdateEvents, yields_deref, if_neg live, yields_calls]
  refine yields_wantsCalls fun calls => ?_
  refine yields_bind_kept (m := fun _ y => y.session = x.session ∧ y.log = x.log ∧
    ((∀ n side, env.loopModify n side = .ok ()) → x.session.clientRegistered = true →
      ∃ wants, y.interest .client = some (clientEvents wants x.session))) ?_ ?_
  · refine yields_onlyIf (fun registered => yields_loopModify fun interest modified => ⟨rfl, rfl, fun works _ => ?_⟩) ?_
    · exact ⟨transportWants env x.calls x.session.clientTransport, by simp [modified (works _ _)]⟩
    · exact fun unregistered => ⟨rfl, rfl, fun _ registered => absurd registered unregistered⟩
  · rintro - y ⟨session, log, client⟩
    rw [yields_calls]
    refine yields_wantsCalls fun later => ?_
    refine yields_onlyIf (fun registered => yields_loopModify fun interest modified => ?_) fun unregistered => ?_
    · refine holds _ session log fun works => ⟨fun clientRegistered => ?_, fun _ => ?_⟩
      · obtain ⟨wants, asked⟩ := client works (session ▸ clientRegistered)
        exact ⟨wants, by simp [modified (works _ _), asked, session]⟩
      · exact ⟨transportWants env y.calls x.session.targetTransport, by simp [modified (works _ _), session]⟩
    · refine holds _ session log fun works => ⟨fun clientRegistered => ?_, fun registered => ?_⟩
      · obtain ⟨wants, asked⟩ := client works (session ▸ clientRegistered)
        exact ⟨wants, by rw [asked, session]⟩
      · exact absurd (session ▸ registered) unregistered

end Sockify.Proofs.SessionSteps
