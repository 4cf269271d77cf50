import Sockify.Interface

/-! The builds of the event loop, `event/ev_*.c`: what they share. -/

namespace Sockify.Event
open Sockify

/-- A callback or its `user_data`, which a loop only hands on. -/
abbrev Pointer := Nat

/-- `struct epoll_source`, `struct kqueue_source` and `struct poll_source`. -/
structure Source where
  fd : Socket
  events : Events
  callback : Pointer
  userData : Pointer
  deriving DecidableEq

/-- The answers to one `add`: of the allocator when the table has to grow, of
the allocator for the source, and of the kernel. -/
structure Replies where
  grown : Bool
  allocated : Bool
  admitted : Bool
  deriving DecidableEq

/-- The replies when nothing fails. -/
def Replies.fine : Replies := ⟨true, true, true⟩

/-- What a callback can do to the table of the loop that calls it. -/
inductive Operation
  | add (source : Source) (replies : Replies)
  | modify (fd : Socket) (events : Events) (admitted : Bool)
  | remove (fd : Socket)
  deriving DecidableEq

/-- What one callback does, and whether it stops the loop. -/
structure Reaction where
  operations : List Operation
  stops : Bool
  deriving DecidableEq

/-- `realloc` of a table: 64 places at first, and then twice as many. -/
def nextCapacity (capacity : Nat) : Nat := if capacity = 0 then 64 else capacity * 2

end Sockify.Event
