import Mathlib.Data.Finset.Card
import Sockify.Event.Interests
import Sockify.Event.Poll

/-! What an event loop is for, whichever system call is behind it: a set of
sources that the application adds to, changes and takes from. -/

namespace Sockify.Event
open Sockify

/-- The sources that are watched, one for each descriptor, and how many there is room for. -/
structure WatchSet where
  sources : Finset Source
  capacity : Nat
  distinct : ∀ first ∈ sources, ∀ second ∈ sources, first.fd = second.fd → first = second

namespace WatchSet

def empty : WatchSet := ⟨∅, 0, by simp⟩

def Has (set : WatchSet) (fd : Socket) : Prop := ∃ source ∈ set.sources, source.fd = fd

instance (set : WatchSet) (fd : Socket) : Decidable (set.Has fd) :=
  inferInstanceAs (Decidable (∃ source ∈ set.sources, source.fd = fd))

/-- The capacity that one more source needs, when it is to be had. -/
def room (set : WatchSet) (grown : Bool) : Option Nat :=
  if set.sources.card < set.capacity then some set.capacity
  else if grown then some (nextCapacity set.capacity) else none

def resize (set : WatchSet) (capacity : Nat) : WatchSet := { set with capacity := capacity }

def place (set : WatchSet) (source : Source) (absent : ¬ set.Has source.fd) : WatchSet where
  sources := insert source set.sources
  capacity := set.capacity
  distinct := by
    intro first one second two same
    rcases Finset.mem_insert.mp one with added | before <;> rcases Finset.mem_insert.mp two with also | held
    · rw [added, also]
    · exact absurd ⟨second, held, by rw [← same, added]⟩ absent
    · exact absurd ⟨first, before, by rw [same, also]⟩ absent
    · exact set.distinct first before second held same

/-- A source with the events that a descriptor is given. -/
def retarget (fd : Socket) (events : Events) (source : Source) : Source :=
  if source.fd = fd then { source with events := events } else source

@[simp] theorem retarget_fd (fd : Socket) (events : Events) (source : Source) :
    (retarget fd events source).fd = source.fd := by
  rw [retarget]
  split <;> rfl

def setEvents (set : WatchSet) (fd : Socket) (events : Events) : WatchSet where
  sources := set.sources.image (retarget fd events)
  capacity := set.capacity
  distinct := by
    intro first one second two same
    obtain ⟨before, member, rfl⟩ := Finset.mem_image.mp one
    obtain ⟨other, also, rfl⟩ := Finset.mem_image.mp two
    rw [set.distinct before member other also (by simpa using same)]

def drop (set : WatchSet) (fd : Socket) : WatchSet where
  sources := set.sources.filter fun source => source.fd ≠ fd
  capacity := set.capacity
  distinct :=
    fun first one second two => set.distinct first (Finset.mem_filter.mp one).1 second (Finset.mem_filter.mp two).1

def add (set : WatchSet) (source : Source) (grown allocated : Bool) : WatchSet × Except Err Unit :=
  if present : set.Has source.fd then (set, .error .invalid)
  else match set.room grown with
    | none => (set, .error .nomem)
    | some capacity =>
      if allocated then ((set.place source present).resize capacity, .ok ()) else (set.resize capacity, .error .nomem)

def modify (set : WatchSet) (fd : Socket) (events : Events) : WatchSet × Except Err Unit :=
  if set.Has fd then (set.setEvents fd events, .ok ()) else (set, .error .invalid)

def remove (set : WatchSet) (fd : Socket) : WatchSet × Except Err Unit :=
  if set.Has fd then (set.drop fd, .ok ()) else (set, .error .invalid)

def call (set : WatchSet) : Request → WatchSet × Except Err Unit
  | .add source grown allocated => set.add source grown allocated
  | .modify fd events => set.modify fd events
  | .remove fd => set.remove fd

end WatchSet

/-- The same calls of the loop over `poll`, which allocates nothing for a source. -/
def pollCall (impl : PollImpl) : Request → PollImpl × Except Err Unit
  | .add source grown allocated => pollAdd impl source ⟨grown, allocated, true⟩
  | .modify fd events => pollModify impl fd events
  | .remove fd => pollRemove impl fd

/-- The allocator does not fail for the source itself. -/
def Request.allocates : Request → Bool
  | .add _ _ allocated => allocated
  | _ => true

/-! What the kernel is asked to watch, and which source it finds when it reports. -/

/-- An entry of the array that `poll` is given. -/
def PollWatches (impl : PollImpl) (fd : Socket) (interest : Events) (source : Source) : Prop :=
  ∃ place, impl.sources[place]? = some source ∧ ((pollWait impl fun _ => .none).pfds place).fd = fd ∧
    ((pollWait impl fun _ => .none).pfds place).events = interest

def EpollWatches (loop : Loop EpollSet) (fd : Socket) (interest : Events) (source : Source) : Prop :=
  ∃ id, loop.kernel fd = some (interest, id) ∧ loop.impl.heap id = some source

def KqueueWatches (loop : Loop FilterSet) (fd : Socket) (filter : Filter) (source : Source) : Prop :=
  ∃ id, loop.kernel fd filter = some id ∧ loop.impl.heap id = some source

end Sockify.Event
