import Sockify.World
import Sockify.Ws.Handshake

/-! One session of `proxy/proxy.c`: the functions from `server_unlink_session`
to `session_handle_target_event`. -/

namespace Sockify
open Stateful

/-- `events == 0` asks for both directions. -/
def transportTlsEventMask (wants : Events) : Events :=
  let events : Events := ⟨wants.read, wants.write, false⟩
  if events = .none then .both else events

/-- `session->prev->next = next`, or the head of the list in its place. -/
def setNext (prev next : Option SessionId) : Proc Unit :=
  match prev with
  | some prev => updateNode prev fun other => { other with next := next }
  | none => change fun w => { w with head := next }

/-- `session->next->prev = prev`, where there is a next session. -/
def setPrev (next prev : Option SessionId) : Proc Unit :=
  match next with
  | some next => updateNode next fun other => { other with prev := prev }
  | none => pure ()

def serverUnlinkSession (id : SessionId) : Proc Unit := do
  let node ← derefNode id
  let head ← inspect World.head
  if node.prev = none ∧ head ≠ some id then pure ()
  else
    setNext node.prev node.next
    setPrev node.next node.prev
    updateNode id fun node => { node with prev := none, next := none }
    change fun w => { w with activeConnections := w.activeConnections - 1 }

def sessionTouch (env : Env) (id : SessionId) : Proc Unit := do
  let n ← inspect World.calls
  update id fun s => { s with lastActivityAt := env.time n }

/-- The calls of `free` at the end of `session_close`. -/
def sessionFree (id : SessionId) : Proc Unit := do
  perform (.dispose id (.free .clientToTargetStorage))
  perform (.dispose id (.free .targetToClientStorage))
  perform (.dispose id (.free .clientOut))
  change (·.freed id)

/-- Behind its calls the release records the session as `session_close` found it. -/
def sessionClose (id : SessionId) : Proc Unit := do
  let s ← deref id
  if s.closing = .released then pure ()
  else
    update id fun s => { s with closing := .released }
    onlyIf (s.clientRegistered = true) do
      perform (.dispose id (.remove s.clientFd))
      setInterest id .client none
      update id fun s => { s with clientRegistered := false }
    onlyIf (s.targetRegistered = true) do
      perform (.dispose id (.remove s.targetFd))
      setInterest id .target none
      update id fun s => { s with targetRegistered := false }
    onlyIf (s.clientFd ≠ none) do
      perform (.dispose id (.destroy s.clientTransport))
      update id fun s => { s with clientTransport := transportDestroyed }
      perform (.dispose id (.close s.clientFd))
    onlyIf (s.targetFd ≠ none) do
      perform (.dispose id (.destroy s.targetTransport))
      update id fun s => { s with targetTransport := transportDestroyed }
      perform (.dispose id (.close s.targetFd))
    serverUnlinkSession id
    sessionFree id
    record id (.release s)

def sessionSetClientOut (id : SessionId) (data : Bytes) : Proc (Except Err Unit) := do
  let s ← deref id
  if data.length > s.clientOutCapacity then pure (.error .overflow)
  else if s.clientOutLen ≠ s.clientOutPos then pure (.error .again)
  else
    update id fun s => { s with clientOut := data, clientOutLen := data.length, clientOutPos := 0 }
    record id (.response data)
    pure (.ok ())

def sessionMakeWsFrame (id : SessionId) (opcode : Nat) (payload : Bytes) : Proc (Except Err Unit) := do
  let s ← deref id
  if s.clientOutLen ≠ s.clientOutPos then pure (.error .again)
  else match wsWriteFrame opcode payload s.clientOutCapacity with
    | .error error => pure (.error error)
    | .ok written =>
      update id fun s => { s with clientOut := written, clientOutLen := written.length, clientOutPos := 0 }
      record id (.frame opcode payload)
      pure (.ok ())

def sessionRegisterTarget (env : Env) (id : SessionId) : Proc (Except Err Unit) := do
  let s ← deref id
  if s.targetRegistered then pure (.ok ())
  else
    let n ← nextCall
    match env.loopAdd n .target with
    | .error error => pure (.error error)
    | .ok () =>
      setInterest id .target (some .writing)
      update id fun s => { s with targetRegistered := true }
      pure (.ok ())

def sessionStartTarget (env : Env) (id : SessionId) : Proc (Except Err Unit) := do
  let s ← deref id
  if s.targetFd ≠ none then pure (.ok ())
  else
    let n ← nextCall
    record id (.connect (env.connect n))
    match env.connect n with
    | .error error => pure (.error error)
    | .ok (fd, inProgress) =>
      update id fun s => { s with
        targetFd := some fd, targetConnecting := inProgress, connectStartedAt := env.time (n + 1)
        targetTransport := transportInitPlain (some fd) }
      sessionRegisterTarget env id

/-- `sockify_transport_init_tls` on the connected target, after the plain
transport was destroyed. -/
def targetInitTls (env : Env) (id : SessionId) : Proc (Except Err Unit) := do
  let config ← inspect World.config
  let context ← inspect World.targetTlsContext
  let _ ← nextCall
  update id fun s => { s with targetTransport := transportDestroyed }
  if !context then pure (.error .invalid)
  else
    let s ← deref id
    let n ← nextCall
    let serverName := if config.targetTlsServerName = [] then config.targetEndpoint.host else config.targetTlsServerName
    match env.tlsCreate n s.targetFd false (some serverName) with
    | .error error => pure (.error error)
    | .ok connection =>
      update id fun s => { s with targetTransport := ⟨.tls, s.targetFd, some connection⟩, targetTlsReady := false }
      pure (.ok ())

def sessionCompleteTargetConnect (env : Env) (id : SessionId) : Proc (Except Err Unit) := do
  let s ← deref id
  if !s.targetConnecting then pure (.ok ())
  else
    let n ← nextCall
    record id (.connected (netSocketError env n s.targetFd))
    if netSocketError env n s.targetFd ≠ .ok 0 then pure (.error .sys)
    else
      update id fun s => { s with
        targetConnecting := false, connectStartedAt := 0, lastActivityAt := env.time (n + 1) }
      let config ← inspect World.config
      if config.targetTlsEnabled then targetInitTls env id
      else
        update id fun s => { s with targetTlsReady := true }
        pure (.ok ())

def sessionDriveClientTls (env : Env) (id : SessionId) : Proc (Except Err Unit) := do
  let s ← deref id
  if s.clientTlsReady then pure (.ok ())
  else
    let n ← nextCall
    let reply := transportHandshake env n s.clientTransport
    record id (.handshake .client s.clientTransport reply)
    match reply with
    | .ok () =>
      update id fun s => { s with clientTlsReady := true }
      pure (.ok ())
    | .error error => pure (.error error)

def sessionDriveTargetTls (env : Env) (id : SessionId) : Proc (Except Err Unit) := do
  let s ← deref id
  if s.targetTlsReady then pure (.ok ())
  else
    let n ← nextCall
    let reply := transportHandshake env n s.targetTransport
    record id (.handshake .target s.targetTransport reply)
    match reply with
    | .ok () =>
      update id fun s => { s with targetTlsReady := true }
      pure (.ok ())
    | .error error => pure (.error error)

def sessionHandleWsMessage (id : SessionId) (msg : WsMessage) : Proc Unit := do
  if msg.opcode = Opcode.binary ∨ msg.opcode = Opcode.text ∨ msg.opcode = Opcode.continuation then
    let s ← deref id
    let out := bufferWrite s.clientToTarget msg.payload
    update id fun s => { s with clientToTarget := out.buffer }
    record id (.store .client msg.payload out.written)
    onlyIf (out.status ≠ .ok () ∨ out.written ≠ msg.payload.length) (sessionClose id)
  else if msg.opcode = Opcode.ping then
    let rc ← sessionMakeWsFrame id Opcode.pong msg.payload
    onlyIf (rc ≠ .ok ()) (sessionClose id)
  else if msg.opcode = Opcode.close then
    -- At most the 125 bytes of `pending_close_payload` are kept.
    update id fun s => { s with
      closing := .started, pendingClosePayload := msg.payload.take 125, pendingClose := true }
    let s ← deref id
    onlyIf (s.clientOutLen = s.clientOutPos) do
      let rc ← sessionMakeWsFrame id Opcode.close s.pendingClosePayload
      onlyIf (rc = .ok ()) (update id fun s => { s with pendingClose := false })
  else pure ()

/-- `payload_capacity` of `session_process_ws_bytes`. -/
def payloadCapacity (s : Session) : Nat := minSize ioChunk (bufferWritable s.clientToTarget)

/-- The return of `session_process_ws_bytes` behind its loop. -/
def processDone (id : SessionId) : Proc (Except Err Unit) := do
  let s ← deref id
  if s.closing = .released then pure (.error .closed) else pure (.ok ())

/-- The loop of `session_process_ws_bytes`. A turn that uses no byte would be
repeated for ever: the fuel is one more than the bytes, so only such a turn
can exhaust it. -/
def processLoop (id : SessionId) : Nat → Bytes → Proc (Except Err Unit)
  | 0, _ => fault .diverges
  | fuel + 1, data =>
    if data = [] then processDone id
    else do
      let s ← deref id
      if s.closing ≠ .no then processDone id
      else
        if payloadCapacity s = 0 then do
          record id (.abandoned data)
          pure (.error .again)
        else
          let result := wsParserFeed s.wsParser data (payloadCapacity s)
          update id fun s => { s with wsParser := result.parser }
          record id (.feed (data.take result.used))
          match result.outcome with
          | .ok msg => do
            sessionHandleWsMessage id msg
            processLoop id fuel (data.drop result.used)
          | .error .again =>
            if result.used = 0 then processDone id else processLoop id fuel (data.drop result.used)
          | .error error => pure (.error error)

def sessionProcessWsBytes (id : SessionId) (data : Bytes) : Proc (Except Err Unit) :=
  processLoop id (data.length + 1) data

/-- The bytes behind an accepted request are parsed as frames. -/
def handshakeRest (id : SessionId) (consumed : Nat) : Proc Unit := do
  let s ← deref id
  if consumed < s.handshake.length then
    let rc ← sessionProcessWsBytes id (s.handshake.drop consumed)
    if rc ≠ .ok () ∧ rc ≠ .error .again then sessionClose id
    else update id fun s => { s with handshake := [] }
  else update id fun s => { s with handshake := [] }

/-- What follows an accepted request. -/
def handshakeAccepted (env : Env) (id : SessionId) (consumed : Nat) : Proc Unit := do
  update id fun s => { s with handshakeDone := true }
  let rc ← sessionStartTarget env id
  if rc ≠ .ok () then sessionClose id else handshakeRest id consumed

def sessionHandleHandshakeBytes (env : Env) (id : SessionId) (data : Bytes) : Proc Unit := do
  let s ← deref id
  if data.length > wsMaxHttpRequest - s.handshake.length then sessionClose id
  else
    update id fun s => { s with handshake := s.handshake ++ data }
    let s ← deref id
    match wsBuildHandshakeResponse s.handshake 256 with
    | .error .again => pure ()
    | .error _ => sessionClose id
    | .ok (response, consumed) =>
      let rc ← sessionSetClientOut id response
      if rc ≠ .ok () then sessionClose id else handshakeAccepted env id consumed

/-- `sockify_transport_read` on one of the session's transports. -/
def readSide (env : Env) (id : SessionId) (side : Side) (limit : Nat) : Proc (Except Err Bytes) := do
  let s ← deref id
  let n ← nextCall
  let reply := transportRead env n (s.transport side) limit
  record id (.read side (s.transport side) limit reply)
  pure reply

/-- `sockify_transport_write` on one of the session's transports. -/
def writeSide (env : Env) (id : SessionId) (side : Side) (data : Bytes) : Proc (Except Err Nat) := do
  let s ← deref id
  let n ← nextCall
  let reply := transportWrite env n (s.transport side) data
  record id (.write side (s.transport side) data reply)
  pure reply

/-- What `session_read_client` does with the bytes of one read; `true` asks for
another turn of its loop. -/
def readClientBytes (env : Env) (id : SessionId) (bytes : Bytes) : Proc Bool := do
  let s ← deref id
  if !s.handshakeDone then
    sessionHandleHandshakeBytes env id bytes
    let s ← deref id
    if !s.handshakeDone ∨ s.closing = .released then pure false
    else pure !(bufferIsHigh s.clientToTarget)
  else
    let rc ← sessionProcessWsBytes id bytes
    if rc ≠ .ok () ∧ rc ≠ .error .again then
      sessionClose id
      pure false
    else
      let s ← deref id
      pure !(bufferIsHigh s.clientToTarget)

/-- `read_limit` of `session_read_client`. -/
def readLimit (s : Session) : Nat :=
  if s.handshakeDone then minSize ioChunk (bufferWritable s.clientToTarget) else ioChunk

/-- The loop of `session_read_client`, by the reads its budget still allows. -/
def readClientLoop (env : Env) (id : SessionId) : Nat → Proc Unit
  | 0 => do
    let _ ← deref id
    pure ()
  | budget + 1 => do
    let s ← deref id
    if s.closing ≠ .no then pure ()
    else
      if s.handshakeDone ∧ readLimit s = 0 then pure ()
      else
        let reply ← readSide env id .client (readLimit s)
        match reply with
        | .error .again => pure ()
        | .error _ => sessionClose id
        | .ok bytes =>
          sessionTouch env id
          let more ← readClientBytes env id bytes
          onlyIf (more = true) (readClientLoop env id budget)

def sessionReadClient (env : Env) (id : SessionId) : Proc Unit := do
  let config ← inspect World.config
  readClientLoop env id config.readBudget

/-- The write loop of `session_write_client`; `false` when the function has
returned from inside it. -/
def writeClientLoop (env : Env) (id : SessionId) : Nat → Proc Bool
  | 0 => do
    let _ ← deref id
    pure true
  | budget + 1 => do
    let s ← deref id
    if s.clientOutPos < s.clientOutLen then
      let reply ← writeSide env id .client s.unsent
      match reply with
      | .error .again => pure false
      | .error _ =>
        sessionClose id
        pure false
      | .ok sent =>
        update id fun s => { s with clientOutPos := s.clientOutPos + sent }
        onlyIf (sent ≠ 0) (sessionTouch env id)
        writeClientLoop env id budget
    else pure true

/-- What `session_write_client` does behind its loop: once the output is sent,
answer a close, release a closing session, or frame buffered target data. -/
def refillClientOut (id : SessionId) : Proc Unit := do
  let s ← deref id
  if s.clientOutPos < s.clientOutLen then pure ()
  else
    update id fun s => { s with clientOutLen := 0, clientOutPos := 0 }
    let s ← deref id
    if s.pendingClose then
      let rc ← sessionMakeWsFrame id Opcode.close s.pendingClosePayload
      onlyIf (rc = .ok ()) (update id fun s => { s with pendingClose := false })
    else if s.closing ≠ .no then sessionClose id
    else if s.handshakeDone ∧ bufferReadable s.targetToClient ≠ 0 then
      let out := bufferRead s.targetToClient (minSize ioChunk (bufferReadable s.targetToClient))
      update id fun s => { s with targetToClient := out.2 }
      let rc ← sessionMakeWsFrame id Opcode.binary out.1
      onlyIf (rc ≠ .ok ()) (sessionClose id)
    else pure ()

def sessionWriteClient (env : Env) (id : SessionId) : Proc Unit := do
  let config ← inspect World.config
  let finished ← writeClientLoop env id config.writeBudget
  onlyIf (finished = true) (refillClientOut id)

def readTargetLoop (env : Env) (id : SessionId) : Nat → Proc Unit
  | 0 => do
    let _ ← deref id
    pure ()
  | budget + 1 => do
    let s ← deref id
    if bufferIsHigh s.targetToClient then pure ()
    else
      let reply ← readSide env id .target ioChunk
      match reply with
      | .error .again => pure ()
      | .error _ => sessionClose id
      | .ok bytes =>
        sessionTouch env id
        let s ← deref id
        let out := bufferWrite s.targetToClient bytes
        update id fun s => { s with targetToClient := out.buffer }
        record id (.store .target bytes out.written)
        if out.status ≠ .ok () ∨ out.written ≠ bytes.length then sessionClose id
        else readTargetLoop env id budget

def sessionReadTarget (env : Env) (id : SessionId) : Proc Unit := do
  let config ← inspect World.config
  readTargetLoop env id config.readBudget

def writeTargetLoop (env : Env) (id : SessionId) : Nat → Proc Unit
  | 0 => do
    let _ ← deref id
    pure ()
  | budget + 1 => do
    let s ← deref id
    if bufferReadable s.clientToTarget = 0 then pure ()
    else
      let reply ← writeSide env id .target
        (bufferPeek s.clientToTarget (minSize ioChunk (bufferReadable s.clientToTarget)))
      match reply with
      | .error .again => pure ()
      | .error _ => sessionClose id
      | .ok sent =>
        onlyIf (sent ≠ 0) (sessionTouch env id)
        update id fun s => { s with clientToTarget := (bufferConsume s.clientToTarget sent).1 }
        writeTargetLoop env id budget

def sessionWriteTarget (env : Env) (id : SessionId) : Proc Unit := do
  let config ← inspect World.config
  writeTargetLoop env id config.writeBudget

/-- `client_events` of `session_update_events`. -/
def clientEvents (wants : Events) (s : Session) : Events :=
  let reading : Events :=
    if !s.clientTlsReady then transportTlsEventMask wants
    else if s.closing = .no ∧ (!s.handshakeDone ∨ !bufferIsHigh s.clientToTarget) then .reading
    else .none
  if s.clientOutPos < s.clientOutLen ∨ bufferReadable s.targetToClient ≠ 0 then reading.union .writing else reading

/-- `target_events` of `session_update_events`. -/
def targetEvents (wants : Events) (s : Session) : Events :=
  let reading : Events :=
    if s.targetConnecting then .writing
    else if !s.targetTlsReady then transportTlsEventMask wants
    else if !s.targetConnecting ∧ !bufferIsHigh s.targetToClient then .reading
    else .none
  if s.targetTlsReady ∧ bufferReadable s.clientToTarget ≠ 0 then reading.union .writing else reading

/-- `sockify_event_loop_modify`, whose result the session ignores. -/
def loopModify (env : Env) (id : SessionId) (side : Side) (events : Events) : Proc Unit := do
  let n ← nextCall
  match env.loopModify n side with
  | .ok () => setInterest id side (some events)
  | .error _ => pure ()

/-- `sockify_transport_wants_read` and `sockify_transport_wants_write`. -/
def transportWantsCalls : Proc Unit := do
  let _ ← nextCall
  let _ ← nextCall
  pure ()

def sessionUpdateEvents (env : Env) (id : SessionId) : Proc Unit := do
  let s ← deref id
  if s.closing = .released then pure ()
  else
    let n ← inspect World.calls
    onlyIf (s.clientTlsReady = false) transportWantsCalls
    onlyIf (s.clientRegistered = true)
      (loopModify env id .client (clientEvents (transportWants env n s.clientTransport) s))
    let n ← inspect World.calls
    onlyIf (s.targetRegistered = true ∧ s.targetConnecting = false ∧ s.targetTlsReady = false) transportWantsCalls
    onlyIf (s.targetRegistered = true)
      (loopModify env id .target (targetEvents (transportWants env n s.targetTransport) s))

/-- The READ and WRITE parts of a handler: run one, then look whether it has
released the session. -/
def runUnlessReleased (id : SessionId) (part rest : Proc Unit) : Proc Unit := do
  part
  let s ← deref id
  if s.closing = .released then pure () else rest

/-- The part of `session_handle_client_event` behind the TLS handshake. -/
def clientTransfer (env : Env) (id : SessionId) (events : Events) : Proc Unit :=
  let write := if events.write then runUnlessReleased id (sessionWriteClient env id) (sessionUpdateEvents env id)
    else sessionUpdateEvents env id
  if events.read then runUnlessReleased id (sessionReadClient env id) write else write

def sessionHandleClientEvent (env : Env) (id : SessionId) (events : Events) : Proc Unit := do
  if events.error then sessionClose id
  else
    let s ← deref id
    if !s.clientTlsReady then
      let rc ← sessionDriveClientTls env id
      if rc = .error .again then sessionUpdateEvents env id
      else
        let s ← deref id
        if !s.clientTlsReady then sessionClose id else clientTransfer env id events
    else clientTransfer env id events

/-- The part of `session_handle_target_event` behind the TLS handshake. -/
def targetTransfer (env : Env) (id : SessionId) (events : Events) : Proc Unit :=
  let write := if events.write then runUnlessReleased id (sessionWriteTarget env id) (sessionUpdateEvents env id)
    else sessionUpdateEvents env id
  if events.read then runUnlessReleased id (sessionReadTarget env id) write else write

/-- The part of `session_handle_target_event` behind the connect. -/
def targetSecured (env : Env) (id : SessionId) (events : Events) : Proc Unit := do
  let s ← deref id
  if !s.targetConnecting ∧ !s.targetTlsReady then
    let rc ← sessionDriveTargetTls env id
    if rc = .error .again then sessionUpdateEvents env id
    else
      let s ← deref id
      if !s.targetTlsReady then sessionClose id else targetTransfer env id events
  else targetTransfer env id events

def sessionHandleTargetEvent (env : Env) (id : SessionId) (events : Events) : Proc Unit := do
  if events.error then sessionClose id
  else
    let s ← deref id
    if s.targetConnecting ∧ events.write then
      let rc ← sessionCompleteTargetConnect env id
      if rc ≠ .ok () then sessionClose id else targetSecured env id events
    else targetSecured env id events

end Sockify
