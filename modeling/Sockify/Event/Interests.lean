import Sockify.Event.Kernel

/-! The registration calls of `event/ev_epoll.c` and `event/ev_kqueue.c` with
what the kernel itself holds. A call can be refused whatever it asks for. A
refused `epoll_ctl` changes nothing; `kevent` applies its changes in order and
stops at the first that is refused. -/

namespace Sockify.Event
open Sockify SwapRemove

/-- The table of a loop and what the kernel holds for it. -/
structure Loop (κ : Type) where
  impl : KernelImpl
  kernel : κ

/-- A call of the application, with the answers of the allocator. -/
inductive Request
  | add (source : Source) (grown allocated : Bool)
  | modify (fd : Socket) (events : Events)
  | remove (fd : Socket)

/-- The same call as a callback makes it, with one answer of the kernel. -/
def Request.operation (admitted : Bool) : Request → Operation
  | .add source grown allocated => .add source ⟨grown, allocated, admitted⟩
  | .modify fd events => .modify fd events admitted
  | .remove fd => .remove fd

/-- `epoll_add_common` and `kqueue_add_common`; `ask` is the call to the kernel
for the source that was allocated. -/
def addCommon {κ : Type} (ask : κ → SourceId → κ × Except Err Unit) (loop : Loop κ) (source : Source)
    (grown allocated : Bool) :
    Loop κ × Except Err Unit :=
  match kernelFind loop.impl source.fd with
  | some _ => (loop, .error .invalid)
  | none => match kernelGrow loop.impl grown with
    | .error error => (loop, .error error)
    | .ok impl =>
      if !allocated then (⟨impl, loop.kernel⟩, .error .nomem)
      else match ask loop.kernel impl.nextId with
        | (kernel, .error error) => (⟨impl, kernel⟩, .error error)
        | (kernel, .ok ()) => (⟨kernelPlace impl source, kernel⟩, .ok ())

/-- The interest and the pointer of each descriptor in the epoll set. -/
abbrev EpollSet := Socket → Option (Events × SourceId)

def epollCreate : Loop EpollSet := ⟨kernelCreate, fun _ => none⟩

inductive EpollCtl
  | add | modify | delete
  deriving DecidableEq

/-- `to_epoll_events`; errors are always reported and never asked for. -/
def toEpollEvents (events : Events) : Events := ⟨events.read, events.write, false⟩

/-- `epoll_ctl`. Only an absent descriptor can be added, and only a present one
modified or deleted. -/
def epollCtl (set : EpollSet) (op : EpollCtl) (fd : Socket) (events : Events) (ptr : SourceId) (admitted : Bool) :
    EpollSet × Except Err Unit :=
  if !admitted ∨ (op = .add ↔ set fd ≠ none) then (set, .error .sys)
  else (Function.update set fd (if op = .delete then none else some (toEpollEvents events, ptr)), .ok ())

def epollAdd (loop : Loop EpollSet) (source : Source) (grown allocated admitted : Bool) :
    Loop EpollSet × Except Err Unit :=
  addCommon (fun set id => epollCtl set .add source.fd source.events id admitted) loop source grown allocated

def epollModify (loop : Loop EpollSet) (fd : Socket) (events : Events) (admitted : Bool) :
    Loop EpollSet × Except Err Unit :=
  match kernelFind loop.impl fd with
  | none => (loop, .error .invalid)
  | some place =>
    let id := loop.impl.sources.getD place 0
    let answer := epollCtl loop.kernel .modify fd events id admitted
    (⟨kernelSetEvents loop.impl id events, answer.1⟩, answer.2)

def epollRemove (loop : Loop EpollSet) (fd : Socket) (admitted : Bool) : Loop EpollSet × Except Err Unit :=
  match kernelFind loop.impl fd with
  | none => (loop, .error .invalid)
  | some place =>
    let answer := epollCtl loop.kernel .delete fd .none 0 admitted
    (⟨kernelDrop loop.impl place, answer.1⟩, .ok ())

def epollCall (loop : Loop EpollSet) (request : Request) (admitted : Bool) : Loop EpollSet × Except Err Unit :=
  match request with
  | .add source grown allocated => epollAdd loop source grown allocated admitted
  | .modify fd events => epollModify loop fd events admitted
  | .remove fd => epollRemove loop fd admitted

/-- The `udata` of each filter that is registered with the queue. -/
abbrev FilterSet := Socket → Filter → Option SourceId

def kqueueCreate : Loop FilterSet := ⟨kernelCreate, fun _ _ => none⟩

/-- A change of a change list: `EV_ADD | EV_ENABLE`, or `EV_DELETE`. -/
structure Change where
  filter : Filter
  add : Bool
  deriving DecidableEq

/-- The changes of one source, in order. -/
def kevent (set : FilterSet) (fd : Socket) (id : SourceId) (admitted : Filter → Bool) :
    List Change → FilterSet × Except Err Unit
  | [] => (set, .ok ())
  | change :: rest =>
    if !admitted change.filter ∨ (change.add = false ∧ set fd change.filter = none) then (set, .error .sys)
    else
      let held := if change.add then some id else none
      kevent (Function.update set fd (Function.update (set fd) change.filter held)) fd id admitted rest

/-- The bit of a filter in an event mask. -/
def hasFilter (events : Events) : Filter → Bool
  | .read => events.read
  | .write => events.write
  | .other => false

/-- The change that a filter needs, if any. -/
def filterChange (oldEvents newEvents : Events) (filter : Filter) : List Change :=
  if hasFilter newEvents filter = true ∧ hasFilter oldEvents filter = false then [⟨filter, true⟩]
  else if hasFilter newEvents filter = false ∧ hasFilter oldEvents filter = true then [⟨filter, false⟩]
  else []

/-- `update_filters`. -/
def kqueueUpdateFilters (set : FilterSet) (fd : Socket) (id : SourceId) (oldEvents newEvents : Events)
    (admitted : Filter → Bool) :
    FilterSet × Except Err Unit :=
  kevent set fd id admitted (filterChange oldEvents newEvents .read ++ filterChange oldEvents newEvents .write)

def kqueueAdd (loop : Loop FilterSet) (source : Source) (grown allocated : Bool) (admitted : Filter → Bool) :
    Loop FilterSet × Except Err Unit :=
  addCommon (fun set id => kqueueUpdateFilters set source.fd id .none source.events admitted)
    loop source grown allocated

/-- The events of a source in memory. -/
def kernelEvents (impl : KernelImpl) (id : SourceId) : Events := ((impl.heap id).map Source.events).getD .none

def kqueueModify (loop : Loop FilterSet) (fd : Socket) (events : Events) (admitted : Filter → Bool) :
    Loop FilterSet × Except Err Unit :=
  match kernelFind loop.impl fd with
  | none => (loop, .error .invalid)
  | some place =>
    let id := loop.impl.sources.getD place 0
    match kqueueUpdateFilters loop.kernel fd id (kernelEvents loop.impl id) events admitted with
    | (kernel, .error error) => (⟨loop.impl, kernel⟩, .error error)
    | (kernel, .ok ()) => (⟨kernelSetEvents loop.impl id events, kernel⟩, .ok ())

/-- One of the two deletions of `kqueue_remove_common`, whose result it ignores. -/
def kqueueDelete (set : FilterSet) (fd : Socket) (id : SourceId) (events : Events) (filter : Filter)
    (admitted : Filter → Bool) :
    FilterSet :=
  if hasFilter events filter then (kevent set fd id admitted [⟨filter, false⟩]).1 else set

def kqueueRemove (loop : Loop FilterSet) (fd : Socket) (admitted : Filter → Bool) : Loop FilterSet × Except Err Unit :=
  match kernelFind loop.impl fd with
  | none => (loop, .error .invalid)
  | some place =>
    let id := loop.impl.sources.getD place 0
    let events := kernelEvents loop.impl id
    let kernel := kqueueDelete (kqueueDelete loop.kernel fd id events .read admitted) fd id events .write admitted
    (⟨kernelDrop loop.impl place, kernel⟩, .ok ())

def kqueueCall (loop : Loop FilterSet) (request : Request) (admitted : Filter → Bool) :
    Loop FilterSet × Except Err Unit :=
  match request with
  | .add source grown allocated => kqueueAdd loop source grown allocated admitted
  | .modify fd events => kqueueModify loop fd events admitted
  | .remove fd => kqueueRemove loop fd admitted

end Sockify.Event
