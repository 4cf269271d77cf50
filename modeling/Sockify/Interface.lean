import Sockify.Config

/-! What the proxy is written against: the sockets of `net.h`, the TLS backend
of `tls.h` and the event loop of `event_loop.h`, each with several builds
behind one interface. `Env` answers the calls of one handler run; its fields
with proofs are what every build of an interface promises. The dispatch of
`transport.c` between the two legs is modelled on top. -/

namespace Sockify

/-- A valid descriptor. `none` stands for `sockify_net_invalid_socket()`. -/
abbrev Socket := Nat

/-- A `struct sockify_tls_connection *`. -/
abbrev TlsConnection := Nat

inductive Side
  | client | target
  deriving DecidableEq

/-- A set of `SOCKIFY_EVENT_*` bits. -/
structure Events where
  read : Bool
  write : Bool
  error : Bool
  deriving DecidableEq

namespace Events

def none : Events := ⟨false, false, false⟩
def reading : Events := ⟨true, false, false⟩
def writing : Events := ⟨false, true, false⟩
def both : Events := ⟨true, true, false⟩

def union (a b : Events) : Events := ⟨a.read || b.read, a.write || b.write, a.error || b.error⟩

end Events

/-- Where a read or a write goes. -/
inductive Channel
  | socket (fd : Socket)
  | tls (connection : TlsConnection)
  deriving DecidableEq

/-- The answers to the calls of one handler run, by the number of calls already
made in it. -/
structure Env where
  time : Nat → Int
  alloc : Nat → Bool
  accept : Nat → Except Err Socket
  connect : Nat → Except Err (Socket × Bool)
  socketError : Nat → Socket → Except Err Int
  recv : Nat → Channel → Nat → Except Err Bytes
  send : Nat → Channel → Bytes → Except Err Nat
  tlsCreate : Nat → Option Socket → Bool → Option Bytes → Except Err TlsConnection
  tlsHandshake : Nat → TlsConnection → Except Err Unit
  tlsWants : Nat → TlsConnection → Events
  loopAdd : Nat → Side → Except Err Unit
  loopModify : Nat → Side → Except Err Unit
  /-- A successful read returns at least one byte and no more than asked for. -/
  recv_fits : ∀ n channel limit bytes, recv n channel limit = .ok bytes → bytes ≠ [] ∧ bytes.length ≤ limit
  /-- A successful write takes at least one byte and no more than offered. -/
  send_fits : ∀ n channel data sent, send n channel data = .ok sent → sent ≤ data.length ∧ (data ≠ [] → sent ≠ 0)

/-- `sockify_net_socket_error`; the system call refuses the invalid socket. -/
def netSocketError (env : Env) (n : Nat) (fd : Option Socket) : Except Err Int :=
  match fd with
  | some fd => env.socketError n fd
  | none => .error .sys

/-- `transport->type`; `unset` is the 0 left by `memset` and by a destroy. -/
inductive TransportType
  | unset | plain | tls
  deriving DecidableEq

structure Transport where
  type : TransportType
  fd : Option Socket
  tls : Option TlsConnection
  deriving DecidableEq

def transportInitPlain (fd : Option Socket) : Transport := ⟨.plain, fd, none⟩

def transportDestroyed : Transport := ⟨.unset, none, none⟩

/-- `sockify_net_recv` refuses the invalid socket through the system call. -/
def transportRead (env : Env) (n : Nat) (transport : Transport) (limit : Nat) : Except Err Bytes :=
  match transport.type with
  | .plain => match transport.fd with
    | some fd => env.recv n (.socket fd) limit
    | none => .error .sys
  | _ => match transport.tls with
    | some connection => env.recv n (.tls connection) limit
    | none => .error .invalid

def transportWrite (env : Env) (n : Nat) (transport : Transport) (data : Bytes) : Except Err Nat :=
  match transport.type with
  | .plain => match transport.fd with
    | some fd => env.send n (.socket fd) data
    | none => .error .sys
  | _ => match transport.tls with
    | some connection => env.send n (.tls connection) data
    | none => .error .invalid

/-- The TLS connection whose handshake is driven, or nothing for a plain
transport, which reports success. -/
def transportHandshake (env : Env) (n : Nat) (transport : Transport) : Except Err Unit :=
  match transport.type with
  | .plain => .ok ()
  | _ => match transport.tls with
    | some connection => env.tlsHandshake n connection
    | none => .error .invalid

def transportWants (env : Env) (n : Nat) (transport : Transport) : Events :=
  match transport.type with
  | .plain => .none
  | _ => match transport.tls with
    | some connection => env.tlsWants n connection
    | none => .none

theorem transportRead_fits {env : Env} {n : Nat} {transport : Transport} {limit : Nat} {bytes : Bytes}
    (received : transportRead env n transport limit = .ok bytes) : bytes ≠ [] ∧ bytes.length ≤ limit := by
  unfold transportRead at received
  split at received
  · split at received
    · exact env.recv_fits _ _ _ _ received
    · cases received
  · split at received
    · exact env.recv_fits _ _ _ _ received
    · cases received

theorem transportWrite_fits {env : Env} {n : Nat} {transport : Transport} {data : Bytes} {sent : Nat}
    (written : transportWrite env n transport data = .ok sent) : sent ≤ data.length ∧ (data ≠ [] → sent ≠ 0) := by
  unfold transportWrite at written
  split at written
  · split at written
    · exact env.send_fits _ _ _ _ written
    · cases written
  · split at written
    · exact env.send_fits _ _ _ _ written
    · cases written

/-- What a read finds when these bytes are waiting. -/
def offered (limit : Nat) (waiting : Bytes) : Except Err Bytes :=
  if waiting.take limit = [] then .error .again else .ok (waiting.take limit)

theorem offered_fits {limit : Nat} {waiting bytes : Bytes} (received : offered limit waiting = .ok bytes) :
    bytes ≠ [] ∧ bytes.length ≤ limit := by
  unfold offered at received
  split at received
  · cases received
  next some_ =>
    cases received
    exact ⟨some_, by rw [List.length_take]; omega⟩

/-- An environment that follows a script: what waits at each call, whether a
connect stays pending, and how much one write takes. -/
def Env.scripted (waiting : List (Except Err Bytes)) (inProgress : Bool) (room : Nat) : Env where
  time := fun _ => 1
  alloc := fun _ => true
  accept := fun n => if n = 0 then .ok 5 else .error .again
  connect := fun _ => .ok (7, inProgress)
  socketError := fun _ _ => .ok 0
  recv := fun n _ limit => match waiting.getD n (.error .again) with
    | .ok bytes => offered limit bytes
    | .error error => .error error
  send := fun _ _ data => if room = 0 ∨ data = [] then .error .again else .ok (min room data.length)
  tlsCreate := fun _ _ _ _ => .ok 1
  tlsHandshake := fun _ _ => .ok ()
  tlsWants := fun _ _ => .none
  loopAdd := fun _ _ => .ok ()
  loopModify := fun _ _ => .ok ()
  recv_fits := by
    intro n channel limit bytes received
    split at received
    · exact offered_fits received
    · cases received
  send_fits := by
    intro n channel data sent written
    split at written
    · cases written
    next open_ =>
      cases written
      have some_ := List.length_pos_iff.mpr fun empty => open_ (.inr empty)
      exact ⟨Nat.min_le_right _ _, fun _ => by omega⟩

end Sockify
