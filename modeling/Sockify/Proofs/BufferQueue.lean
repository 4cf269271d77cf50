import Sockify.Buffer
import Sockify.Lib.Circular

/-! The ring buffer is a bounded queue: its contents are the window of the
storage that starts at the read position. -/

namespace Sockify.Proofs.BufferQueue
open Sockify

def contents (buf : Buffer) : Bytes := Circular.window buf.data buf.readPos buf.length

/-- What every buffer operation may rely on after `bufferInit`. -/
structure Valid (buf : Buffer) : Prop where
  storage : buf.data.length = buf.capacity
  positive : 0 < buf.capacity
  reading : buf.readPos < buf.capacity
  bounded : buf.length ≤ buf.capacity
  writing : buf.writePos = (buf.readPos + buf.length) % buf.capacity

structure SameShape (first last : Buffer) : Prop where
  capacity : last.capacity = first.capacity
  highWater : last.highWater = first.highWater
  lowWater : last.lowWater = first.lowWater

theorem SameShape.refl (buf : Buffer) : SameShape buf buf := ⟨rfl, rfl, rfl⟩

@[simp] theorem contents_length {buf : Buffer} (valid : Valid buf) : (contents buf).length = buf.length :=
  Circular.window_length _ _ _ (by rw [valid.storage]; exact valid.bounded)

theorem contents_eq_nil {buf : Buffer} (valid : Valid buf) : contents buf = [] ↔ buf.length = 0 := by
  rw [← List.length_eq_zero_iff, contents_length valid]

theorem bufferInit_spec {storage : Bytes} {capacity highWater lowWater : Nat} {buf : Buffer}
    (sized : storage.length = capacity) (built : bufferInit storage capacity highWater lowWater = .ok buf) :
    Valid buf ∧ contents buf = [] ∧ buf.length = 0 ∧ buf.capacity = capacity ∧ buf.highWater = highWater := by
  unfold bufferInit at built
  split at built
  · cases built
  · split at built
    · cases built
    · cases built
      have positive : 0 < capacity := by omega
      refine ⟨⟨sized, positive, positive, Nat.zero_le _, by simp⟩, ?_, rfl, rfl, rfl⟩
      simp [contents]

private theorem wrapped_succ (position capacity : Nat) (inside : position < capacity) :
    (if position + 1 = capacity then 0 else position + 1) = (position + 1) % capacity := by
  split
  next last => rw [last, Nat.mod_self]
  next => exact (Nat.mod_eq_of_lt (by omega)).symm

/-- Bytes written by the copy loop before the length is updated. -/
private theorem put_all (buf : Buffer) (data : Bytes) (stored : Nat)
    (storage : buf.data.length = buf.capacity) (reading : buf.readPos < buf.capacity)
    (room : stored + data.length ≤ buf.capacity)
    (writing : buf.writePos = (buf.readPos + stored) % buf.capacity) :
    let after := data.foldl bufferPut buf
    Circular.window after.data buf.readPos (stored + data.length) =
      Circular.window buf.data buf.readPos stored ++ data ∧
    after.data.length = buf.capacity ∧ after.writePos = (buf.readPos + (stored + data.length)) % buf.capacity ∧
    after.readPos = buf.readPos ∧ after.length = buf.length ∧ SameShape buf after := by
  induction data generalizing buf stored with
  | nil => exact ⟨by simp, storage, writing, rfl, rfl, .refl _⟩
  | cons byte rest ih =>
    have space : stored < buf.capacity := by simp only [List.length_cons] at room; omega
    have inside : buf.writePos < buf.capacity := by rw [writing]; exact Nat.mod_lt _ (by omega)
    have next : (bufferPut buf byte).writePos = (buf.readPos + (stored + 1)) % buf.capacity := by
      simp only [bufferPut]
      rw [wrapped_succ _ _ inside, writing, Nat.mod_add_mod, Nat.add_assoc]
    have written : Circular.window (bufferPut buf byte).data buf.readPos (stored + 1) =
        Circular.window buf.data buf.readPos stored ++ [byte] := by
      simp only [bufferPut]
      rw [writing, ← storage]
      exact Circular.window_push _ _ _ _ (by omega)
    obtain ⟨window, length, position, same, size, shape⟩ := ih (bufferPut buf byte) (stored + 1)
      (by simpa [bufferPut] using storage) reading
      (by simp only [List.length_cons, bufferPut] at room ⊢; omega) next
    have count : stored + 1 + rest.length = stored + (byte :: rest).length := by simp; omega
    rw [← count]
    refine ⟨?_, length, position, same, size, ⟨shape.capacity, shape.highWater, shape.lowWater⟩⟩
    change Circular.window (rest.foldl bufferPut (bufferPut buf byte)).data buf.readPos _ = _
    simp only [bufferPut] at window written ⊢
    rw [window, written, List.append_assoc]
    rfl

/-- Writing appends the longest prefix that fits and reports its length. -/
theorem bufferWrite_spec {buf : Buffer} (valid : Valid buf) (data : Bytes) :
    Valid (bufferWrite buf data).buffer ∧ SameShape buf (bufferWrite buf data).buffer ∧
    contents (bufferWrite buf data).buffer = contents buf ++ data.take (bufferWritable buf) ∧
    (bufferWrite buf data).written = min data.length (bufferWritable buf) ∧
    ((bufferWrite buf data).status = .ok () ↔ data.length ≤ bufferWritable buf) := by
  have bounded := valid.bounded
  have amount : (if data.length < buf.capacity - buf.length then data.length else buf.capacity - buf.length) =
      min data.length (bufferWritable buf) := minSize_eq _ _
  have size : (data.take (min data.length (bufferWritable buf))).length = min data.length (bufferWritable buf) := by
    rw [List.length_take]; omega
  obtain ⟨window, length, position, same, count, shape⟩ := put_all buf
    (data.take (min data.length (bufferWritable buf))) buf.length valid.storage valid.reading
    (by rw [size]; unfold bufferWritable; omega) valid.writing
  rw [size] at window position
  simp only [bufferWrite, amount]
  refine ⟨⟨?_, ?_, ?_, ?_, ?_⟩, ⟨shape.capacity, shape.highWater, shape.lowWater⟩, ?_, trivial, ?_⟩
  · exact length.trans shape.capacity.symm
  · exact shape.capacity ▸ valid.positive
  · rw [same, shape.capacity]
    exact valid.reading
  · change _ + _ ≤ _
    rw [count, shape.capacity]
    unfold bufferWritable
    omega
  · change _ = (_ + (_ + _)) % _
    rw [position, same, count, shape.capacity]
  · unfold contents
    change Circular.window _ _ (_ + _) = _
    rw [same, count, window, List.take_eq_take_min (l := data) (i := bufferWritable buf), Nat.min_comm]
  · split <;> simp <;> omega

/-- Data that fits is stored whole. -/
theorem bufferWrite_fits {buf : Buffer} (valid : Valid buf) {data : Bytes}
    (fits : data.length ≤ bufferWritable buf) :
    (bufferWrite buf data).status = .ok () ∧ (bufferWrite buf data).written = data.length ∧
    contents (bufferWrite buf data).buffer = contents buf ++ data := by
  obtain ⟨_, _, stored, written, status⟩ := bufferWrite_spec valid data
  refine ⟨status.mpr fits, by omega, ?_⟩
  rw [stored, List.take_of_length_le fits]

private theorem peek_loop {buf : Buffer} (storage : buf.data.length = buf.capacity) (count position : Nat)
    (inside : position < buf.capacity) (fits : count ≤ buf.capacity) :
    bufferPeekLoop buf.data buf.capacity count position = Circular.window buf.data position count := by
  induction count generalizing position with
  | zero => simp [bufferPeekLoop]
  | succ count ih =>
    have within : position < buf.data.length := by omega
    rw [bufferPeekLoop, wrapped_succ _ _ inside, ih _ (Nat.mod_lt _ (by omega)) (by omega),
      Circular.window_succ _ _ _ within (by omega), storage]
    simp [within]

/-- Peeking shows the front of the queue. -/
theorem bufferPeek_spec {buf : Buffer} (valid : Valid buf) (outLen : Nat) :
    bufferPeek buf outLen = (contents buf).take outLen := by
  have bounded := valid.bounded
  have amount : (if outLen < buf.length then outLen else buf.length) = min outLen buf.length := minSize_eq _ _
  simp only [bufferPeek, amount]
  rw [peek_loop valid.storage _ _ valid.reading (by omega), contents, Circular.window_take]

/-- Consuming drops from the front of the queue. -/
theorem bufferConsume_spec {buf : Buffer} (valid : Valid buf) (count : Nat) :
    Valid (bufferConsume buf count).1 ∧ SameShape buf (bufferConsume buf count).1 ∧
    contents (bufferConsume buf count).1 = (contents buf).drop count ∧
    (bufferConsume buf count).2 = min count buf.length := by
  have bounded := valid.bounded
  have positive := valid.positive
  have amount : (if count < buf.length then count else buf.length) = min count buf.length := minSize_eq _ _
  simp only [bufferConsume, amount]
  refine ⟨⟨valid.storage, positive, Nat.mod_lt _ positive, ?_, ?_⟩, ⟨rfl, rfl, rfl⟩, ?_, trivial⟩
  · change buf.length - _ ≤ buf.capacity
    omega
  · change buf.writePos = _
    rw [Nat.mod_add_mod, valid.writing]
    congr 1
    change _ = buf.readPos + _ + (_ - _)
    omega
  · unfold contents
    change Circular.window _ (_ % _) (_ - _) = _
    rw [← valid.storage, Circular.window_mod,
      Circular.window_drop _ _ _ _ (by rw [valid.storage]; exact bounded) (by omega)]
    by_cases short : count ≤ buf.length
    · rw [Nat.min_eq_left short]
    · have all : (Circular.window buf.data buf.readPos buf.length).length ≤ buf.length := by
        rw [Circular.window_length _ _ _ (by rw [valid.storage]; exact bounded)]
      rw [Nat.min_eq_right (by omega), List.drop_eq_nil_of_le all, List.drop_eq_nil_of_le (by omega)]

/-- Reading is peeking and then consuming what was seen. -/
theorem bufferRead_spec {buf : Buffer} (valid : Valid buf) (outLen : Nat) :
    (bufferRead buf outLen).1 = (contents buf).take outLen ∧
    Valid (bufferRead buf outLen).2 ∧ SameShape buf (bufferRead buf outLen).2 ∧
    contents (bufferRead buf outLen).2 = (contents buf).drop outLen := by
  obtain ⟨kept, shape, dropped, _⟩ := bufferConsume_spec valid (bufferPeek buf outLen).length
  refine ⟨bufferPeek_spec valid outLen, kept, shape, ?_⟩
  simp only [bufferRead]
  rw [dropped, bufferPeek_spec valid, List.length_take]
  by_cases short : outLen ≤ (contents buf).length
  · rw [Nat.min_eq_left short]
  · rw [Nat.min_eq_right (by omega), List.drop_length, List.drop_eq_nil_of_le (by omega)]

/-- What is written is no longer free. -/
theorem writable_bufferWrite {buf : Buffer} (valid : Valid buf) {data : Bytes}
    (fits : data.length ≤ bufferWritable buf) :
    bufferWritable (bufferWrite buf data).buffer = bufferWritable buf - data.length := by
  obtain ⟨kept, shape, stored, -, -⟩ := bufferWrite_spec valid data
  have length := congrArg List.length stored
  rw [List.take_of_length_le fits, List.length_append, contents_length kept, contents_length valid] at length
  unfold bufferWritable at fits ⊢
  rw [shape.capacity, length]
  omega

/-- What is consumed is free again. -/
theorem writable_bufferConsume {buf : Buffer} (valid : Valid buf) (count : Nat) :
    bufferWritable buf ≤ bufferWritable (bufferConsume buf count).1 := by
  obtain ⟨kept, shape, dropped, -⟩ := bufferConsume_spec valid count
  have length := congrArg List.length dropped
  rw [List.length_drop, contents_length kept, contents_length valid] at length
  unfold bufferWritable
  rw [shape.capacity, length]
  omega

end Sockify.Proofs.BufferQueue
