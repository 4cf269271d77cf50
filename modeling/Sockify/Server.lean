import Sockify.Session

/-! The server of `proxy/proxy.c` around its sessions: their creation, the
listener, the timeout tick, and what can happen while the event loop runs. -/

namespace Sockify
open Stateful Leases

/-- `tls_enabled`. -/
def tlsEnabled (config : Config) : Bool := config.clientTlsEnabled || config.targetTlsEnabled

def Config.tlsOn (config : Config) : Side → Bool
  | .client => config.clientTlsEnabled
  | .target => config.targetTlsEnabled

/-- What a `proxy_init_tls` that succeeds takes. -/
def tlsTakes (config : Config) : List (Lease Resource) :=
  (if tlsEnabled config then [.take .tls] else []) ++
    (if config.clientTlsEnabled then [.take (.context .client)] else []) ++
    (if config.targetTlsEnabled then [.take (.context .target)] else [])

/-- What `sockify_proxy_run` has taken when its event loop starts. -/
def startLeases (config : Config) : List (Lease Resource) :=
  [.take .network] ++ tlsTakes config ++ [.take .listener, .take .eventLoop]

/-- The server that `sockify_proxy_run` has when its event loop starts. -/
def serverInit (config : Config) : World where
  config := config
  clientTlsContext := config.clientTlsEnabled
  targetTlsContext := config.targetTlsEnabled
  activeConnections := 0
  head := none
  sessions := ∅
  nextId := 0
  interest := fun _ _ => none
  log := fun _ => []
  deeds := (startLeases config).map .lease
  calls := 0

/-- `buffer_size` of `session_create`. -/
def sessionBufferSize (config : Config) : Nat :=
  if config.bufferSize = 0 ∨ config.bufferSize > wsMaxFramePayload then wsMaxFramePayload else config.bufferSize

/-- `session_create` ignores the result of `sockify_buffer_init`. -/
def sessionBuffer (size : Nat) : Buffer :=
  match bufferInit (List.replicate size 0) size (size * 3 / 4) (size / 4) with
  | .ok buffer => buffer
  | .error _ => .zeroed

/-- `calloc` of a session, under a fresh identity. -/
def sessionAlloc (clientFd : Socket) : Proc SessionId := fun w =>
  (.ok w.nextId, { w with
    nextId := w.nextId + 1
    deeds := w.deeds ++ [.lease (.take (.session w.nextId))]
    sessions := w.sessions.insert w.nextId ⟨none, none, { Session.zeroed with clientFd := some clientFd }⟩ })

/-- The client transport of a new session. -/
def sessionInitClient (env : Env) (id : SessionId) (clientFd : Socket) : Proc (Except Err Unit) := do
  let config ← inspect World.config
  let context ← inspect World.clientTlsContext
  if config.clientTlsEnabled then
    if !context then pure (.error .invalid)
    else
      let n ← nextCall
      match env.tlsCreate n (some clientFd) true none with
      | .error error => pure (.error error)
      | .ok connection =>
        update id fun s => { s with clientTransport := ⟨.tls, some clientFd, some connection⟩, clientTlsReady := false }
        pure (.ok ())
  else
    update id fun s => { s with clientTransport := transportInitPlain (some clientFd), clientTlsReady := true }
    pure (.ok ())

/-- Put a new session in front of the server's list. -/
def serverLinkSession (id : SessionId) : Proc Unit := do
  let head ← inspect World.head
  updateNode id fun node => { node with next := head, prev := none }
  match head with
  | some first => updateNode first fun other => { other with prev := some id }
  | none => pure ()
  change fun w => { w with head := some id, activeConnections := w.activeConnections + 1 }

/-- The fields that `session_create` sets before it allocates the buffers. -/
def sessionInitFields (config : Config) (s : Session) : Session :=
  { s with
    targetTransport := transportInitPlain none
    targetTlsReady := !config.targetTlsEnabled
    clientOutCapacity := ioChunk + 14 }

def sessionInitBuffers (config : Config) (s : Session) : Session :=
  { s with
    clientToTarget := sessionBuffer (sessionBufferSize config)
    targetToClient := sessionBuffer (sessionBufferSize config)
    wsParser := wsParserInit }

/-- The last steps of `session_create`: register the client and link. -/
def sessionRegisterClient (env : Env) (id : SessionId) : Proc (Option SessionId) := do
  let config ← inspect World.config
  let n ← nextCall
  match env.loopAdd n .client with
  | .error _ =>
    sessionClose id
    pure none
  | .ok () =>
    setInterest id .client (some (if config.clientTlsEnabled then .both else .reading))
    update id fun s => { s with clientRegistered := true }
    serverLinkSession id
    update id fun s => { s with createdAt := env.time n, lastActivityAt := env.time n, connectStartedAt := 0 }
    pure (some id)

/-- `session_create` behind its `calloc`. -/
def sessionSetUp (env : Env) (id : SessionId) (clientFd : Socket) : Proc (Option SessionId) := do
  let config ← inspect World.config
  let rc ← sessionInitClient env id clientFd
  if rc ≠ .ok () then
    sessionClose id
    pure none
  else
    update id (sessionInitFields config)
    let first ← nextCall
    let second ← nextCall
    let third ← nextCall
    if !env.alloc first ∨ !env.alloc second ∨ !env.alloc third then
      sessionClose id
      pure none
    else
      update id (sessionInitBuffers config)
      sessionRegisterClient env id

def sessionCreate (env : Env) (clientFd : Socket) : Proc (Option SessionId) := do
  let n ← nextCall
  if !env.alloc n then pure none
  else
    let id ← sessionAlloc clientFd
    sessionSetUp env id clientFd

/-- The loop of `listener_callback`, by the accepts its budget still allows. -/
def listenerLoop (env : Env) : Nat → Proc Unit
  | 0 => pure ()
  | budget + 1 => do
    let n ← nextCall
    match env.accept n with
    | .error _ => pure ()
    | .ok clientFd =>
      let config ← inspect World.config
      let active ← inspect World.activeConnections
      if active ≥ config.maxConnections then
        perform (.refuse clientFd)
        listenerLoop env budget
      else
        let created ← sessionCreate env clientFd
        onlyIf (created ≠ none) (listenerLoop env budget)

def listenerCallback (env : Env) (events : Events) : Proc Unit := do
  let config ← inspect World.config
  onlyIf (events.read = true) (listenerLoop env config.acceptBudget)

/-- Whole seconds since `since`, in milliseconds. -/
def elapsedMs (now since : Int) : Int := (now - since) * 1000

def sessionIsExpired (s : Session) (config : Config) (now : Int) : Bool :=
  if s.targetConnecting ∧ config.connectTimeoutMs ≠ 0 ∧ s.connectStartedAt ≠ 0 ∧
      elapsedMs now s.connectStartedAt ≥ config.connectTimeoutMs then true
  else if !s.handshakeDone ∧ config.handshakeTimeoutMs ≠ 0 ∧
    elapsedMs now s.createdAt ≥ config.handshakeTimeoutMs then true
  else decide (s.handshakeDone ∧ config.idleTimeoutMs ≠ 0 ∧ elapsedMs now s.lastActivityAt ≥ config.idleTimeoutMs)

/-- The loop of `proxy_tick`. Only a list that is longer than the sessions
there are, a cyclic one, can exhaust the fuel. -/
def tickLoop (now : Int) : Nat → Option SessionId → Proc Unit
  | _, none => pure ()
  | 0, some _ => fault .diverges
  | fuel + 1, some id => do
    let node ← derefNode id
    let config ← inspect World.config
    onlyIf (sessionIsExpired node.session config now = true) (sessionClose id)
    tickLoop now fuel node.next

def proxyTick (env : Env) : Proc Unit := do
  let head ← inspect World.head
  let config ← inspect World.config
  if head = none then pure ()
  else if config.handshakeTimeoutMs = 0 ∧ config.idleTimeoutMs = 0 ∧ config.connectTimeoutMs = 0 then pure ()
  else
    let n ← inspect World.calls
    let count ← inspect fun w => w.sessions.keys.card
    tickLoop (env.time n) count head

/-- The loop of `sockify_proxy_run` behind the event loop. As in `tickLoop`,
only a list that never ends can exhaust the fuel. -/
def shutdownLoop : Nat → Proc Unit
  | 0 => do
    let head ← inspect World.head
    if head = none then pure () else fault .diverges
  | fuel + 1 => do
    let head ← inspect World.head
    match head with
    | none => pure ()
    | some id =>
      sessionClose id
      shutdownLoop fuel

/-- `sockify_proxy_run` once its event loop has returned. -/
def proxyShutdown : Proc Unit := do
  let count ← inspect fun w => w.sessions.keys.card
  shutdownLoop count

/-- The callbacks that the event loop can make. -/
inductive Call
  | accept (events : Events)
  | client (id : SessionId) (events : Events)
  | target (id : SessionId) (events : Events)
  | tick

def Call.run (env : Env) : Call → Proc Unit
  | .accept events => listenerCallback env events
  | .client id events => sessionHandleClientEvent env id events
  | .target id events => sessionHandleTargetEvent env id events
  | .tick => proxyTick env

/-- Only a registered descriptor has its callback made. -/
def Call.Enabled (w : World) : Call → Prop
  | .client id _ => ∃ s, w.session? id = some s ∧ s.clientRegistered = true
  | .target id _ => ∃ s, w.session? id = some s ∧ s.targetRegistered = true
  | _ => True

instance (w : World) : (call : Call) → Decidable (call.Enabled w)
  | .client id _ => decidable_of_iff ((w.session? id).any (·.clientRegistered) = true) (Option.any_eq_true _ _)
  | .target id _ => decidable_of_iff ((w.session? id).any (·.targetRegistered) = true) (Option.any_eq_true _ _)
  | .accept _ | .tick => isTrue trivial

/-- The number of a call to an interface is counted within one callback. -/
def World.begin (w : World) : World := { w with calls := 0 }

/-- The world after a callback, whether it returned or stopped. -/
def World.after (w : World) (env : Env) (call : Call) : World := (call.run env w.begin).2

/-- A callback that `allowed` admits. The run goes on behind one that stops on
a fault, for the sake of the other sessions. -/
def Step (allowed : World → Env → Call → Prop) (w after : World) : Prop :=
  ∃ env call, allowed w env call ∧ call.Enabled w ∧ after = w.after env call

/-- A run of the event loop, each callback of which `allowed` admits. -/
def Runs (allowed : World → Env → Call → Prop) : World → World → Prop := Relation.ReflTransGen (Step allowed)

theorem Runs.next {allowed : World → Env → Call → Prop} {w u : World} (run : Runs allowed w u) (env : Env) (call : Call)
    (admitted : allowed u env call) (enabled : call.Enabled u) : Runs allowed w (u.after env call) :=
  run.tail ⟨env, call, admitted, enabled, rfl⟩

/-- The worlds that a run of the server can reach. -/
def Reachable (config : Config) (w : World) : Prop := Runs (fun _ _ _ => True) (serverInit config) w

end Sockify
