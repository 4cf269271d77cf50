import Sockify.Event.Source
import Sockify.Lib.SwapRemove

/-! The loops of `event/ev_epoll.c` and `event/ev_kqueue.c`. The kernel keeps a
pointer for each source and hands it out with the source's events. Memory is
allocated under fresh identities, and freed memory holds nothing. -/

namespace Sockify.Event
open Sockify SwapRemove

/-- A `struct epoll_source *` or a `struct kqueue_source *`. -/
abbrev SourceId := Nat

/-- `struct epoll_impl` or `struct kqueue_impl`, with the sources in memory. -/
structure KernelImpl where
  sources : List SourceId
  capacity : Nat
  heap : SourceId → Option Source
  nextId : SourceId

def kernelCreate : KernelImpl := ⟨[], 0, fun _ => none, 0⟩

/-- `epoll_find` and `kqueue_find`. -/
def kernelFind (impl : KernelImpl) (fd : Socket) : Option Nat :=
  impl.sources.findIdx? fun id => (impl.heap id).any fun source => source.fd == fd

/-- `epoll_grow` and `kqueue_grow`. -/
def kernelGrow (impl : KernelImpl) (grown : Bool) : Except Err KernelImpl :=
  if impl.sources.length < impl.capacity then .ok impl
  else if grown then .ok { impl with capacity := nextCapacity impl.capacity } else .error .nomem

/-- A new source takes its place in the table. -/
def kernelPlace (impl : KernelImpl) (source : Source) : KernelImpl :=
  { impl with
      sources := impl.sources ++ [impl.nextId]
      heap := Function.update impl.heap impl.nextId (some source)
      nextId := impl.nextId + 1 }

/-- A source is freed, and the last one takes its place. -/
def kernelDrop (impl : KernelImpl) (place : Nat) : KernelImpl :=
  { impl with
      heap := Function.update impl.heap (impl.sources.getD place 0) none
      sources := swapRemove impl.sources place }

/-- `epoll_add_common` and `kqueue_add_common`; `reply` is the kernel's. -/
def kernelAdd (impl : KernelImpl) (source : Source) (grown allocated : Bool) (reply : Except Err Unit) :
    KernelImpl × Except Err Unit :=
  match kernelFind impl source.fd with
  | some _ => (impl, .error .invalid)
  | none => match kernelGrow impl grown with
    | .error error => (impl, .error error)
    | .ok impl =>
      if !allocated then (impl, .error .nomem)
      else match reply with
        | .error error => (impl, .error error)
        | .ok () => (kernelPlace impl source, .ok ())

/-- `source->events = events`. -/
def kernelSetEvents (impl : KernelImpl) (id : SourceId) (events : Events) : KernelImpl :=
  { impl with heap := Function.update impl.heap id ((impl.heap id).map fun source => { source with events := events }) }

/-- `epoll_remove_common` and `kqueue_remove_common`, which ignore what the
kernel answers. -/
def kernelRemove (impl : KernelImpl) (fd : Socket) : KernelImpl × Except Err Unit :=
  match kernelFind impl fd with
  | none => (impl, .error .invalid)
  | some place => (kernelDrop impl place, .ok ())

def epollAddCommon (impl : KernelImpl) (source : Source) (replies : Replies) : KernelImpl × Except Err Unit :=
  kernelAdd impl source replies.grown replies.allocated (if replies.admitted then .ok () else .error .sys)

def epollModifyCommon (impl : KernelImpl) (fd : Socket) (events : Events) (admitted : Bool) :
    KernelImpl × Except Err Unit :=
  match kernelFind impl fd with
  | none => (impl, .error .invalid)
  | some place => (kernelSetEvents impl (impl.sources.getD place 0) events, if admitted then .ok () else .error .sys)

/-- The kernel is asked only where a filter comes or goes. -/
def updateFilters (oldEvents newEvents : Events) (admitted : Bool) : Except Err Unit :=
  if oldEvents.read = newEvents.read ∧ oldEvents.write = newEvents.write then .ok ()
  else if admitted then .ok () else .error .sys

def kqueueAddCommon (impl : KernelImpl) (source : Source) (replies : Replies) : KernelImpl × Except Err Unit :=
  kernelAdd impl source replies.grown replies.allocated (updateFilters .none source.events replies.admitted)

/-- Unlike `epoll_modify_common`, it keeps the old events when the kernel refuses. -/
def kqueueModifyCommon (impl : KernelImpl) (fd : Socket) (events : Events) (admitted : Bool) :
    KernelImpl × Except Err Unit :=
  match kernelFind impl fd with
  | none => (impl, .error .invalid)
  | some place =>
    match updateFilters (((impl.heap (impl.sources.getD place 0)).map Source.events).getD .none) events admitted with
    | .error error => (impl, .error error)
    | .ok () => (kernelSetEvents impl (impl.sources.getD place 0) events, .ok ())

def epollPerform (impl : KernelImpl) : Operation → KernelImpl
  | .add source replies => (epollAddCommon impl source replies).1
  | .modify fd events admitted => (epollModifyCommon impl fd events admitted).1
  | .remove fd => (kernelRemove impl fd).1

def kqueuePerform (impl : KernelImpl) : Operation → KernelImpl
  | .add source replies => (kqueueAddCommon impl source replies).1
  | .modify fd events admitted => (kqueueModifyCommon impl fd events admitted).1
  | .remove fd => (kernelRemove impl fd).1

/-- A call of a callback: through which pointer, with which events, and the loop
as it was when the call was made. -/
structure Invocation where
  source : SourceId
  events : Events
  impl : KernelImpl

/-- The loop over one batch, with what each callback does. A pointer to freed
memory ends it: nothing can be said of the callback that is read from there. -/
def kernelDispatch {ρ : Type} (perform : KernelImpl → Operation → KernelImpl)
    (pointer : ρ → Option SourceId) (mask : ρ → Events) :
    KernelImpl → List (ρ × Reaction) → List Invocation
  | _, [] => []
  | impl, (report, reaction) :: rest =>
    match pointer report with
    | none => kernelDispatch perform pointer mask impl rest
    | some id =>
      ⟨id, mask report, impl⟩ ::
        if impl.heap id = none ∨ reaction.stops = true then []
        else kernelDispatch perform pointer mask (reaction.operations.foldl perform impl) rest

/-- `struct epoll_event`. -/
structure EpollEvent where
  input : Bool
  output : Bool
  hangUp : Bool
  error : Bool
  ptr : SourceId

def fromEpollEvents (event : EpollEvent) : Events := ⟨event.input || event.hangUp, event.output, event.error⟩

/-- The inner loop of `epoll_run_common`. -/
def epollDispatch : KernelImpl → List (EpollEvent × Reaction) → List Invocation :=
  kernelDispatch epollPerform (fun event => some event.ptr) fromEpollEvents

inductive Filter
  | read | write | other
  deriving DecidableEq

/-- `struct kevent`. -/
structure KEvent where
  filter : Filter
  error : Bool
  udata : Option SourceId

def kqueueMask (event : KEvent) : Events := ⟨event.filter = .read, event.filter = .write, event.error⟩

/-- The inner loop of `kqueue_run_common`. -/
def kqueueDispatch : KernelImpl → List (KEvent × Reaction) → List Invocation :=
  kernelDispatch kqueuePerform KEvent.udata kqueueMask

end Sockify.Event
