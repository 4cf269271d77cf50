import Mathlib.Data.Finmap
import Sockify.Buffer
import Sockify.Interface
import Sockify.Lib.Leases
import Sockify.Lib.Stateful
import Sockify.Ws.Frame

/-! Sessions, the server that owns them, and the primitive steps of the code
that works on them. The live sessions are a finite map: releasing a session
deletes its entry, and every read or update of a session is a lookup that
stops the computation when the entry is gone. -/

namespace Sockify
open Leases

abbrev SessionId := Nat

/-- `session->closing`: 0, 1 and 2. -/
inductive Closing
  | no | started | released
  deriving DecidableEq

/-- `struct sockify_proxy_session` without its list links. `handshake` and
`pendingClosePayload` hold as many bytes as their length fields say. -/
structure Session where
  clientFd : Option Socket
  targetFd : Option Socket
  clientTransport : Transport
  targetTransport : Transport
  clientRegistered : Bool
  targetRegistered : Bool
  targetConnecting : Bool
  clientTlsReady : Bool
  targetTlsReady : Bool
  handshakeDone : Bool
  closing : Closing
  pendingClose : Bool
  pendingClosePayload : Bytes
  handshake : Bytes
  wsParser : WsParser
  clientToTarget : Buffer
  targetToClient : Buffer
  clientOut : Bytes
  clientOutLen : Nat
  clientOutPos : Nat
  clientOutCapacity : Nat
  createdAt : Int
  connectStartedAt : Int
  lastActivityAt : Int
  deriving DecidableEq

namespace Session

/-- The session that `calloc` leaves before `session_create` fills it in. -/
def zeroed : Session where
  clientFd := none
  targetFd := none
  clientTransport := transportDestroyed
  targetTransport := transportDestroyed
  clientRegistered := false
  targetRegistered := false
  targetConnecting := false
  clientTlsReady := false
  targetTlsReady := false
  handshakeDone := false
  closing := .no
  pendingClose := false
  pendingClosePayload := []
  handshake := []
  wsParser := wsParserInit
  clientToTarget := .zeroed
  targetToClient := .zeroed
  clientOut := []
  clientOutLen := 0
  clientOutPos := 0
  clientOutCapacity := 0
  createdAt := 0
  connectStartedAt := 0
  lastActivityAt := 0

def transport (s : Session) : Side → Transport
  | .client => s.clientTransport
  | .target => s.targetTransport

/-- The part of `client_out` that is still to be sent. -/
def unsent (s : Session) : Bytes := (s.clientOut.take s.clientOutLen).drop s.clientOutPos

end Session

/-- The calls a session makes to the layers below it, in order, with what they
answered, and what it places in `client_out`, parses, offers to a buffer or
leaves unparsed. Only proofs read this record. -/
inductive Io
  | read (side : Side) (transport : Transport) (limit : Nat) (reply : Except Err Bytes)
  | write (side : Side) (transport : Transport) (data : Bytes) (reply : Except Err Nat)
  | handshake (side : Side) (transport : Transport) (reply : Except Err Unit)
  | connect (reply : Except Err (Socket × Bool))
  | connected (reply : Except Err Int)
  | response (bytes : Bytes)
  | frame (opcode : Nat) (payload : Bytes)
  | feed (bytes : Bytes)
  | store (side : Side) (data : Bytes) (written : Nat)
  | abandoned (rest : Bytes)
  | release (session : Session)
  deriving DecidableEq

/-- What the process takes and has to give back. The listener is the descriptor
in `server.listener_fd`, a session the memory that `calloc` returned for it. -/
inductive Resource
  | network
  | tls
  | context (side : Side)
  | listener
  | eventLoop
  | session (id : SessionId)
  deriving DecidableEq

/-- The memory that a session has beside its own. -/
inductive Block
  | clientToTargetStorage | targetToClientStorage | clientOut
  deriving DecidableEq

/-- The calls of `session_close` to the layers below it. -/
inductive Disposal
  | remove (fd : Option Socket)
  | destroy (transport : Transport)
  | close (fd : Option Socket)
  | free (block : Block)
  deriving DecidableEq

/-- What is taken and given back, what `session_close` does on behalf of a
session, and the descriptors that the listener closes at the limit. -/
inductive Deed
  | lease (lease : Lease Resource)
  | dispose (id : SessionId) (disposal : Disposal)
  | refuse (fd : Socket)
  deriving DecidableEq

/-- A session with the links of the server's doubly linked list. -/
structure Node where
  next : Option SessionId
  prev : Option SessionId
  session : Session

/-- `struct sockify_proxy_server` with the memory its sessions live in, and the
interest that the event loop holds for each of their descriptors. `calls` counts
the calls of one callback to the sockets, the transports, the event loop and the
allocator; only proofs read `deeds`, the record of the whole process. -/
structure World where
  config : Config
  clientTlsContext : Bool
  targetTlsContext : Bool
  activeConnections : Nat
  head : Option SessionId
  sessions : Finmap fun _ : SessionId => Node
  nextId : SessionId
  interest : SessionId → Side → Option Events
  log : SessionId → List Io
  deeds : List Deed
  calls : Nat

inductive Fault
  | noSuchSession (id : SessionId)
  | diverges
  deriving DecidableEq

abbrev Proc := Stateful World Fault

namespace World

def node? (w : World) (id : SessionId) : Option Node := w.sessions.lookup id

def session? (w : World) (id : SessionId) : Option Session := (w.node? id).map Node.session

def putNode (w : World) (id : SessionId) (node : Node) : World :=
  { w with sessions := w.sessions.insert id node }

/-- Replace a live session, keeping its links. -/
def put (w : World) (id : SessionId) (s : Session) : World :=
  match w.node? id with
  | some node => w.putNode id { node with session := s }
  | none => w

def logged (w : World) (id : SessionId) (io : Io) : World :=
  { w with log := Function.update w.log id (w.log id ++ [io]) }

def called (w : World) : World := { w with calls := w.calls + 1 }

/-- A call that is made for what it does. -/
def performed (w : World) (deed : Deed) : World := { w with deeds := w.deeds ++ [deed], calls := w.calls + 1 }

def withInterest (w : World) (id : SessionId) (side : Side) (events : Option Events) : World :=
  { w with interest := Function.update w.interest id (Function.update (w.interest id) side events) }

/-- Free a session's memory. -/
def freed (w : World) (id : SessionId) : World :=
  { w.performed (.lease (.give (.session id))) with sessions := w.sessions.erase id }

end World

def derefNode (id : SessionId) : Proc Node := fun w =>
  match w.node? id with
  | some node => (.ok node, w)
  | none => (.error (.noSuchSession id), w)

def updateNode (id : SessionId) (f : Node → Node) : Proc Unit := fun w =>
  match w.node? id with
  | some node => (.ok (), w.putNode id (f node))
  | none => (.error (.noSuchSession id), w)

def deref (id : SessionId) : Proc Session := fun w =>
  match w.session? id with
  | some s => (.ok s, w)
  | none => (.error (.noSuchSession id), w)

def update (id : SessionId) (f : Session → Session) : Proc Unit := fun w =>
  match w.session? id with
  | some s => (.ok (), w.put id (f s))
  | none => (.error (.noSuchSession id), w)

def record (id : SessionId) (io : Io) : Proc Unit := Stateful.change (·.logged id io)

/-- Number the next call to an interface. -/
def nextCall : Proc Nat := fun w => (.ok w.calls, w.called)

def perform (deed : Deed) : Proc Unit := Stateful.change (·.performed deed)

def setInterest (id : SessionId) (side : Side) (events : Option Events) : Proc Unit :=
  Stateful.change (·.withInterest id side events)

end Sockify
