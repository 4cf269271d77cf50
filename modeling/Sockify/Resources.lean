import Mathlib.Algebra.BigOperators.Group.Finset.Basic
import Sockify.Server

/-! The descriptors that the server is handed by `accept` and `connect`, and
what becomes of them: who holds them, and who closes them. -/

namespace Sockify
open Stateful

def Disposal.closed : Disposal → List Socket
  | .close fd => fd.toList
  | _ => []

/-- The descriptors that a session holds. -/
def sessionDescriptors (s : Session) : List Socket := s.clientFd.toList ++ s.targetFd.toList

/-- The descriptors that a call hands to its session. -/
def opens : Io → List Socket
  | .connect (.ok (fd, _)) => [fd]
  | _ => []

/-- The descriptors that are closed on behalf of a session. -/
def Deed.closed (id : SessionId) : Deed → List Socket
  | .dispose other disposal => if other = id then disposal.closed else []
  | _ => []

/-- The descriptors that the listener closes. -/
def Deed.refused : Deed → List Socket
  | .refuse fd => [fd]
  | _ => []

/-- What becomes of an accepted descriptor. At the limit of connections it is
refused, and the listener closes it. Without memory for a session it is lost:
nobody closes it. A session that cannot be set up is discarded with it. -/
inductive Reception
  | refused
  | lost
  | discarded (id : SessionId)
  | served (id : SessionId)
  deriving DecidableEq

def Reception.owner : Reception → Option SessionId
  | .discarded id | .served id => some id
  | _ => none

/-- `session_create`, which also tells what became of its descriptor. -/
def sessionCreateReception (env : Env) (clientFd : Socket) : Proc Reception := do
  let n ← nextCall
  if !env.alloc n then pure .lost
  else
    let id ← sessionAlloc clientFd
    let created ← sessionSetUp env id clientFd
    if created = none then pure (.discarded id) else pure (.served id)

/-- The loop of `listener_callback`, with what becomes of the descriptors that it accepts. -/
def listenerReceptions (env : Env) : Nat → Proc (List (Socket × Reception))
  | 0 => pure []
  | budget + 1 => do
    let n ← nextCall
    match env.accept n with
    | .error _ => pure []
    | .ok clientFd =>
      let config ← inspect World.config
      let active ← inspect World.activeConnections
      if active ≥ config.maxConnections then
        perform (.refuse clientFd)
        let rest ← listenerReceptions env budget
        pure ((clientFd, .refused) :: rest)
      else
        let reception ← sessionCreateReception env clientFd
        match reception with
        | .served id =>
          let rest ← listenerReceptions env budget
          pure ((clientFd, .served id) :: rest)
        | other => pure [(clientFd, other)]

/-- The descriptors that one callback accepts. -/
def acceptedBy (w : World) (env : Env) : Call → List (Socket × Reception)
  | .accept events =>
    if events.read = true then
      match (listenerReceptions env w.config.acceptBudget w.begin).1 with
      | .ok accepted => accepted
      | .error _ => []
    else []
  | _ => []

/-- A run of the server from its start, with all descriptors accepted in it. -/
inductive Traced (config : Config) : World → List (Socket × Reception) → Prop
  | start : Traced config (serverInit config) []
  | next {w accepted} (run : Traced config w accepted) (env : Env) (call : Call) (enabled : call.Enabled w) :
      Traced config (w.after env call) (accepted ++ acceptedBy w env call)

/-- The accepted descriptors that were received in this way. -/
def handedOut (accepted : List (Socket × Reception)) (way : Reception → Bool) : List Socket :=
  (accepted.filter fun one => way one.2).map Prod.fst

/-- The descriptors that all sessions there have ever been were handed by `connect`. -/
def connectedIn (w : World) : Multiset Socket := ∑ id ∈ Finset.range w.nextId, ↑((w.log id).flatMap opens)

/-- The descriptors that have been closed on behalf of a session. -/
def closedBy (w : World) (id : SessionId) : List Socket := w.deeds.flatMap (Deed.closed id)

/-- The descriptors that `session_close` has closed. -/
def closedIn (w : World) : Multiset Socket := ∑ id ∈ Finset.range w.nextId, ↑(closedBy w id)

/-- The descriptors that the listener has closed. -/
def refusedIn (w : World) : List Socket := w.deeds.flatMap Deed.refused

/-- The descriptors that a session holds while it lives. -/
def heldBy (w : World) (id : SessionId) : List Socket := ((w.session? id).map sessionDescriptors).getD []

/-- The descriptors that the live sessions hold. -/
def heldIn (w : World) : Multiset Socket := ∑ id ∈ Finset.range w.nextId, ↑(heldBy w id)

end Sockify
