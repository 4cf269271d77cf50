import Mathlib.Data.List.Basic

/-! A queue that holds at most so many items. What does not fit is refused from
the back of what is offered; what is asked for beyond the end is not there. -/

namespace Fifo

variable {α : Type*}

inductive Operation (α : Type*)
  | write (data : List α)
  | peek (wanted : Nat)
  | consume (count : Nat)
  | read (wanted : Nat)
  | clear

/-- What an operation tells its caller. -/
inductive Reply (α : Type*)
  | stored (count : Nat) (overflow : Bool)
  | shown (data : List α)
  | consumed (count : Nat)
  | cleared

/-- The longest prefix of the data that the queue has room for. -/
def accepted (capacity : Nat) (queue data : List α) : List α := data.take (capacity - queue.length)

def perform (capacity : Nat) (queue : List α) : Operation α → List α × Reply α
  | .write data =>
    (queue ++ accepted capacity queue data,
      .stored (accepted capacity queue data).length (decide ((accepted capacity queue data).length < data.length)))
  | .peek wanted => (queue, .shown (queue.take wanted))
  | .consume count => (queue.drop count, .consumed (min count queue.length))
  | .read wanted => (queue.drop wanted, .shown (queue.take wanted))
  | .clear => ([], .cleared)

end Fifo
