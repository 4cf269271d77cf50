import Sockify.Lib.Fifo
import Sockify.Lib.Machine
import Sockify.Proofs.BufferQueue

/-! The ring buffer refines a bounded queue: whatever is done to it, in whatever
order, it answers as the queue of its contents does. -/

namespace Sockify.Proofs.BufferRefinement
open Sockify BufferQueue

/-- One call on a ring buffer, and what it tells its caller. -/
def bufferPerform (buf : Buffer) : Fifo.Operation UInt8 → Buffer × Fifo.Reply UInt8
  | .write data =>
    ((bufferWrite buf data).buffer,
      .stored (bufferWrite buf data).written (decide ((bufferWrite buf data).status = .error .overflow)))
  | .peek wanted => (buf, .shown (bufferPeek buf wanted))
  | .consume count => ((bufferConsume buf count).1, .consumed (bufferConsume buf count).2)
  | .read wanted => ((bufferRead buf wanted).2, .shown (bufferRead buf wanted).1)
  | .clear => (bufferClear buf, .cleared)

def Holds (capacity : Nat) (buf : Buffer) : Prop := Valid buf ∧ buf.capacity = capacity

variable {buf : Buffer} {capacity : Nat}

private theorem bufferClear_spec (valid : Valid buf) : Valid (bufferClear buf) ∧ contents (bufferClear buf) = [] := by
  refine ⟨⟨valid.storage, valid.positive, valid.positive, Nat.zero_le _, ?_⟩, ?_⟩
  · simp [bufferClear]
  · simp [contents, bufferClear]

/-- A write reports an overflow exactly when it stored less than it was given. -/
theorem bufferWrite_status (buf : Buffer) (data : Bytes) :
    (bufferWrite buf data).status = .error .overflow ↔ (bufferWrite buf data).written < data.length := by
  simp only [bufferWrite]
  generalize (if data.length < buf.capacity - buf.length then data.length else buf.capacity - buf.length) = stored
  split
  next short => simp [short]
  next whole => simp [whole]

private theorem accepted_contents (valid : Valid buf) (data : Bytes) :
    Fifo.accepted buf.capacity (contents buf) data = data.take (bufferWritable buf) := by
  rw [Fifo.accepted, contents_length valid, bufferWritable]

private theorem perform_keeps (operation : Fifo.Operation UInt8) (holds : Holds capacity buf) :
    Holds capacity (bufferPerform buf operation).1 := by
  obtain ⟨valid, sized⟩ := holds
  cases operation with
  | write data =>
    obtain ⟨after, shape, -⟩ := bufferWrite_spec valid data
    exact ⟨after, shape.capacity.trans sized⟩
  | peek => exact ⟨valid, sized⟩
  | consume count =>
    obtain ⟨after, shape, -⟩ := bufferConsume_spec valid count
    exact ⟨after, shape.capacity.trans sized⟩
  | read wanted =>
    obtain ⟨-, after, shape, -⟩ := bufferRead_spec valid wanted
    exact ⟨after, shape.capacity.trans sized⟩
  | clear => exact ⟨(bufferClear_spec valid).1, sized⟩

private theorem perform_follows (operation : Fifo.Operation UInt8) (holds : Holds capacity buf) :
    contents (bufferPerform buf operation).1 = (Fifo.perform capacity (contents buf) operation).1 := by
  obtain ⟨valid, rfl⟩ := holds
  cases operation with
  | write data =>
    obtain ⟨-, -, stored, -, -⟩ := bufferWrite_spec valid data
    simp only [bufferPerform, Fifo.perform, accepted_contents valid, stored]
  | peek => rfl
  | consume count =>
    obtain ⟨-, -, dropped, -⟩ := bufferConsume_spec valid count
    exact dropped
  | read wanted =>
    obtain ⟨-, -, -, dropped⟩ := bufferRead_spec valid wanted
    exact dropped
  | clear => exact (bufferClear_spec valid).2

private theorem perform_answers (operation : Fifo.Operation UInt8) (holds : Holds capacity buf) :
    (bufferPerform buf operation).2 = (Fifo.perform capacity (contents buf) operation).2 := by
  obtain ⟨valid, rfl⟩ := holds
  cases operation with
  | write data =>
    obtain ⟨-, -, -, written, -⟩ := bufferWrite_spec valid data
    have stored : (data.take (bufferWritable buf)).length = (bufferWrite buf data).written := by
      rw [written, List.length_take, Nat.min_comm]
    simp only [bufferPerform, Fifo.perform, accepted_contents valid, stored, bufferWrite_status]
  | peek wanted => rw [bufferPerform, Fifo.perform, bufferPeek_spec valid]
  | consume count =>
    obtain ⟨-, -, -, dropped⟩ := bufferConsume_spec valid count
    rw [bufferPerform, Fifo.perform, dropped, contents_length valid]
  | read wanted =>
    obtain ⟨shown, -⟩ := bufferRead_spec valid wanted
    rw [bufferPerform, Fifo.perform, shown]
  | clear => rfl

private theorem buffer_refines (capacity : Nat) :
    Machine.Refines bufferPerform (Fifo.perform capacity) (Holds capacity) contents where
  keeps := fun _ operation holds => perform_keeps operation holds
  follows := fun _ operation holds => perform_follows operation holds
  answers := fun _ operation holds => perform_answers operation holds

/-- No sum of a position and a count that the code forms leaves the range of
`size_t` when the capacity is at most half of it. -/
theorem positions_bounded (half : capacity ≤ sizeModulus / 2) (holds : Holds capacity buf) (count : Nat) :
    buf.readPos + min count buf.length < sizeModulus ∧ buf.writePos + 1 < sizeModulus ∧
    buf.length + min count (bufferWritable buf) < sizeModulus := by
  obtain ⟨valid, rfl⟩ := holds
  have reading := valid.reading
  have bounded := valid.bounded
  have writing : buf.writePos < buf.capacity := valid.writing ▸ Nat.mod_lt _ valid.positive
  have room : sizeModulus / 2 * 2 = sizeModulus := rfl
  unfold bufferWritable
  omega

/-- Where the positions of a valid buffer stand. -/
theorem Holds.positions (holds : Holds capacity buf) :
    buf.readPos < capacity ∧ buf.writePos < capacity ∧ buf.length ≤ capacity ∧
    buf.writePos = (buf.readPos + buf.length) % capacity ∧ (contents buf).length = buf.length := by
  obtain ⟨valid, rfl⟩ := holds
  exact ⟨valid.reading, valid.writing ▸ Nat.mod_lt _ valid.positive,
    valid.bounded, valid.writing, contents_length valid⟩

/-- From its initialisation on, the ring buffer is the queue of its contents. -/
theorem buffer_refines_queue {storage : Bytes} {capacity highWater lowWater : Nat} (sized : storage.length = capacity)
    (positive : 0 < capacity) (half : capacity ≤ sizeModulus / 2)
    (high : highWater ≤ capacity) (low : lowWater ≤ highWater)
    (operations : List (Fifo.Operation UInt8)) :
    ∃ buf, bufferInit storage capacity highWater lowWater = .ok buf ∧
      let after := Machine.run bufferPerform buf operations
      let queue := Machine.run (Fifo.perform capacity) [] operations
      contents after.1 = queue.1 ∧ after.2 = queue.2 ∧ after.1.capacity = capacity ∧
      (after.1.readPos < capacity ∧ after.1.writePos < capacity ∧ after.1.length ≤ capacity ∧
        after.1.writePos = (after.1.readPos + after.1.length) % capacity ∧ (contents after.1).length = after.1.length) ∧
      ∀ count, after.1.readPos + min count after.1.length < sizeModulus ∧ after.1.writePos + 1 < sizeModulus ∧
        after.1.length + min count (bufferWritable after.1) < sizeModulus := by
  have built : bufferInit storage capacity highWater lowWater =
      .ok ⟨storage, capacity, 0, 0, 0, highWater, lowWater⟩ := by
    rw [bufferInit, if_neg (by omega), if_neg (by omega)]
  obtain ⟨valid, empty, -, same, -⟩ := bufferInit_spec sized built
  have refines := buffer_refines capacity
  have holds := refines.run_valid operations _ ⟨valid, same⟩
  obtain ⟨view, answers⟩ := refines.run_eq operations _ ⟨valid, same⟩
  rw [empty] at view answers
  exact ⟨_, built, view, answers, holds.2, holds.positions, positions_bounded half holds⟩

/-- Three cells, a write that wraps round and is cut, and a look at the result. -/
theorem buffer_refines_queue_wrapped :
    ∃ buf, bufferInit [0, 0, 0] 3 2 1 = .ok buf ∧
      (Machine.run bufferPerform buf [.write [1, 2], .consume 1, .write [3, 4, 5], .peek 4]).2 =
        (Machine.run (Fifo.perform 3) [] [.write [1, 2], .consume 1, .write [3, 4, 5], .peek 4]).2 := by
  have high : 2 ≤ 3 := by decide
  have low : 1 ≤ 2 := by decide
  obtain ⟨buf, built, -, answers, -⟩ :=
    buffer_refines_queue (show [0, 0, 0].length = 3 from rfl) (by decide) (by decide) high low
      [.write [1, 2], .consume 1, .write [3, 4, 5], .peek 4]
  exact ⟨buf, built, answers⟩

end Sockify.Proofs.BufferRefinement
