import Sockify.Event.Source
import Sockify.Lib.SwapRemove

/-! The loop of `event/ev_poll.c`: two arrays side by side, the sources and the
`struct pollfd`s that are handed to `poll`. -/

namespace Sockify.Event
open Sockify SwapRemove

/-- `revents`; `other` stands for the bits that `from_poll_events` ignores. -/
structure Revents where
  input : Bool
  output : Bool
  hangUp : Bool
  error : Bool
  invalid : Bool
  other : Bool
  deriving DecidableEq

def Revents.none : Revents := ⟨false, false, false, false, false, false⟩

def toPollEvents (events : Events) : Events := ⟨events.read, events.write, false⟩

def fromPollEvents (revents : Revents) : Events :=
  ⟨revents.input || revents.hangUp, revents.output, revents.error || revents.invalid⟩

/-- `struct pollfd`. -/
structure PollFd where
  fd : Socket
  events : Events
  revents : Revents
  deriving DecidableEq

/-- `struct poll_impl`. The memory of `pfds` is never cleared: behind the places
that were polled it holds whatever it held before, or what `realloc` found. -/
structure PollImpl where
  sources : List Source
  pfds : Nat → PollFd
  capacity : Nat

def pollCreate (memory : Nat → PollFd) : PollImpl := ⟨[], memory, 0⟩

def pollFind (impl : PollImpl) (fd : Socket) : Option Nat := impl.sources.findIdx? fun source => source.fd == fd

def pollGrow (impl : PollImpl) (grown : Bool) : Except Err PollImpl :=
  if impl.sources.length < impl.capacity then .ok impl
  else if grown then .ok { impl with capacity := nextCapacity impl.capacity } else .error .nomem

def pollAdd (impl : PollImpl) (source : Source) (replies : Replies) : PollImpl × Except Err Unit :=
  match pollFind impl source.fd with
  | some _ => (impl, .error .invalid)
  | none => match pollGrow impl replies.grown with
    | .error error => (impl, .error error)
    | .ok impl => ({ impl with sources := impl.sources ++ [source] }, .ok ())

def pollModify (impl : PollImpl) (fd : Socket) (events : Events) : PollImpl × Except Err Unit :=
  match pollFind impl fd with
  | none => (impl, .error .invalid)
  | some place =>
    ({ impl with sources := impl.sources.modify place fun source => { source with events := events } }, .ok ())

def pollRemove (impl : PollImpl) (fd : Socket) : PollImpl × Except Err Unit :=
  match pollFind impl fd with
  | none => (impl, .error .invalid)
  | some place => ({ impl with sources := swapRemove impl.sources place }, .ok ())

def pollPerform (impl : PollImpl) : Operation → PollImpl
  | .add source replies => (pollAdd impl source replies).1
  | .modify fd events _ => (pollModify impl fd events).1
  | .remove fd => (pollRemove impl fd).1

/-- The first loop of `poll_run`, and the answer of `poll` to it. -/
def pollWait (impl : PollImpl) (revents : Nat → Revents) : PollImpl :=
  { impl with pfds := fun place =>
      match impl.sources[place]? with
      | some source => ⟨source.fd, toPollEvents source.events, revents place⟩
      | none => impl.pfds place }

/-- A call of a callback: of which source, at which place of the table, with
which events; the loop as it was when the call was made, and what the callback did. -/
structure Call where
  source : Source
  place : Nat
  events : Events
  impl : PollImpl
  reaction : Reaction

/-- A callback that leaves the loop alone. -/
def Reaction.idle : Reaction := ⟨[], false⟩

/-- The second loop of `poll_run`. Each call takes the next reaction. The table
gets longer only by additions, so the fuel of `pollPass` lasts. -/
def pollDispatch : Nat → PollImpl → Nat → List Reaction → List Call × PollImpl
  | 0, impl, _, _ => ([], impl)
  | fuel + 1, impl, place, reactions =>
    match impl.sources[place]? with
    | none => ([], impl)
    | some source =>
      if (impl.pfds place).revents = Revents.none then pollDispatch fuel impl (place + 1) reactions
      else
        let reaction := reactions.headD .idle
        let call : Call := ⟨source, place, fromPollEvents (impl.pfds place).revents, impl, reaction⟩
        let after := reaction.operations.foldl pollPerform impl
        if reaction.stops then ([call], after)
        else
          let rest := pollDispatch fuel after (place + 1) reactions.tail
          (call :: rest.1, rest.2)

def Operation.adds : Operation → Bool
  | .add _ _ => true
  | _ => false

def additions (reactions : List Reaction) : Nat := (reactions.flatMap Reaction.operations).countP Operation.adds

/-- One turn of `poll_run` up to its tick, when `poll` reports `revents`. -/
def pollPass (impl : PollImpl) (revents : Nat → Revents) (reactions : List Reaction) : List Call × PollImpl :=
  let polled := pollWait impl revents
  if ∃ place < impl.sources.length, revents place ≠ Revents.none then
    pollDispatch (impl.sources.length + additions reactions) polled 0 reactions
  else ([], polled)

end Sockify.Event
