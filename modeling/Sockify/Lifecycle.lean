import Sockify.Cli
import Sockify.Lib.Leases
import Sockify.Server

/-! The process around the server: `sockify_proxy_run` from its checks to its
return, what it takes and gives back on the way, and `main`. -/

namespace Sockify
open Stateful Leases

/-- The answers to the calls that `sockify_proxy_run` makes by itself. -/
structure Startup where
  netInit : Except Err Unit
  tlsGlobalInit : Except Err Unit
  tlsIsAvailable : Bool
  tlsContextCreate : Side → Except Err Unit
  netListen : Endpoint → Nat → Except Err Unit
  eventLoopCreate : Bool
  eventLoopAdd : Except Err Unit
  eventLoopRun : Except Err Unit

/-- The server behind `memset`, with its configuration copied. -/
def serverZeroed (config : Config) : World :=
  { serverInit config with clientTlsContext := false, targetTlsContext := false, deeds := [] }

def World.tlsContext (w : World) : Side → Bool
  | .client => w.clientTlsContext
  | .target => w.targetTlsContext

def World.withTlsContext (w : World) (side : Side) (context : Bool) : World :=
  match side with
  | .client => { w with clientTlsContext := context }
  | .target => { w with targetTlsContext := context }

def Deed.lease? : Deed → Option (Lease Resource)
  | .lease one => some one
  | _ => none

/-- What the process has taken and given back, in order. -/
def World.leases (w : World) : List (Lease Resource) := w.deeds.filterMap Deed.lease?

def World.leased (w : World) (lease : Lease Resource) : World := { w with deeds := w.deeds ++ [.lease lease] }

def taking (resource : Resource) : Proc Unit := change (·.leased (.take resource))

def giving (resource : Resource) : Proc Unit := change (·.leased (.give resource))

def setContext (side : Side) (context : Bool) : Proc Unit := change (·.withTlsContext side context)

/-- One half of `proxy_destroy_tls`. -/
def destroyContext (side : Side) : Proc Unit := do
  let server ← inspect id
  onlyIf (server.tlsContext side = true) do
    giving (.context side)
    setContext side false

def proxyDestroyTls : Proc Unit := do
  let server ← inspect id
  destroyContext .client
  destroyContext .target
  onlyIf (tlsEnabled server.config = true) (giving .tls)

/-- The call of `sockify_tls_context_create` for one side, when that side has TLS. -/
def createContext (startup : Startup) (side : Side) : Proc (Except Err Unit) := do
  let server ← inspect id
  if server.config.tlsOn side then
    match startup.tlsContextCreate side with
    | .error error =>
      proxyDestroyTls
      pure (.error error)
    | .ok () =>
      taking (.context side)
      setContext side true
      pure (.ok ())
  else pure (.ok ())

def proxyInitTls (startup : Startup) : Proc (Except Err Unit) := do
  let server ← inspect id
  if !tlsEnabled server.config then pure (.ok ())
  else
    match startup.tlsGlobalInit with
    | .error error => pure (.error error)
    | .ok () =>
      taking .tls
      if !startup.tlsIsAvailable then
        proxyDestroyTls
        pure (.error .unsupported)
      else
        let rc ← createContext startup .client
        match rc with
        | .error error => pure (.error error)
        | .ok () => createContext startup .target

/-- One callback of the event loop, which makes it for a registered descriptor
only. As in `Step`, a callback that stops on a fault ends there. -/
def World.turned (w : World) (turn : Env × Call) : World := if turn.2.Enabled w then w.after turn.1 turn.2 else w

/-- `sockify_event_loop_run` with the callbacks that it makes until it returns. -/
def World.served (w : World) (turns : List (Env × Call)) : World := turns.foldl World.turned w

/-- The part of `sockify_proxy_run` that has an event loop. -/
def proxyServe (startup : Startup) (turns : List (Env × Call)) : Proc (Except Err Unit) :=
  match startup.eventLoopAdd with
  | .error error => pure (.error error)
  | .ok () => do
    change (·.served turns)
    pure startup.eventLoopRun

/-- `sockify_proxy_run` behind `sockify_net_listen`. -/
def proxyListening (startup : Startup) (turns : List (Env × Call)) : Proc (Except Err Unit) :=
  if !startup.eventLoopCreate then do
    giving .listener
    proxyDestroyTls
    giving .network
    pure (.error .nomem)
  else do
    taking .eventLoop
    let rc ← proxyServe startup turns
    proxyShutdown
    giving .eventLoop
    giving .listener
    proxyDestroyTls
    giving .network
    pure rc

def proxyRun (config : Config) (startup : Startup) (turns : List (Env × Call)) : Proc (Except Err Unit) :=
  match proxyValidateConfig config with
  | .error error => pure (.error error)
  | .ok () => do
    change fun w => { serverZeroed config with deeds := w.deeds }
    match startup.netInit with
    | .error error => pure (.error error)
    | .ok () =>
      taking .network
      let rc ← proxyInitTls startup
      match rc with
      | .error error =>
        giving .network
        pure (.error error)
      | .ok () =>
        match startup.netListen config.listenEndpoint config.backlog with
        | .error error =>
          proxyDestroyTls
          giving .network
          pure (.error error)
        | .ok () =>
          taking .listener
          proxyListening startup turns

/-- `main`, with its exit status; `args` is `argv` without the name of the program. -/
def main (args : List Bytes) (startup : Startup) (turns : List (Env × Call)) : Proc Nat :=
  match cliParseArgs args proxyConfigInit with
  | (_, .exit) => pure 0
  | (_, .error _) => pure 2
  | (config, .ok) => do
    let rc ← proxyRun config startup turns
    match rc with
    | .error _ => pure 1
    | .ok () => pure 0

end Sockify
