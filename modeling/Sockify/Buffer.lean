import Sockify.Core

/-! The fixed-storage ring buffer of `core/buffer.c`. The read and write
positions index the storage modulo its capacity; the length tells a full
buffer from an empty one. -/

namespace Sockify

structure Buffer where
  data : Bytes
  capacity : Nat
  readPos : Nat
  writePos : Nat
  length : Nat
  highWater : Nat
  lowWater : Nat
  deriving DecidableEq

/-- What `sockify_buffer_write` reports: the buffer, `*written`, and the code. -/
structure BufferWritten where
  buffer : Buffer
  written : Nat
  status : Except Err Unit

namespace Buffer

/-- The zeroed structure that `calloc` leaves before `sockify_buffer_init`. -/
def zeroed : Buffer := ⟨[], 0, 0, 0, 0, 0, 0⟩

end Buffer

def bufferInit (storage : Bytes) (capacity highWater lowWater : Nat) : Except Err Buffer :=
  if capacity = 0 then .error .invalid
  else if highWater > capacity ∨ lowWater > highWater then .error .invalid
  else .ok ⟨storage, capacity, 0, 0, 0, highWater, lowWater⟩

def bufferClear (buf : Buffer) : Buffer := { buf with readPos := 0, writePos := 0, length := 0 }

def bufferReadable (buf : Buffer) : Nat := buf.length

def bufferWritable (buf : Buffer) : Nat := buf.capacity - buf.length

def bufferIsHigh (buf : Buffer) : Bool := decide (buf.length ≥ buf.highWater)

/-- One turn of the copy loop of `sockify_buffer_write`. -/
def bufferPut (buf : Buffer) (byte : UInt8) : Buffer :=
  { buf with
    data := buf.data.set buf.writePos byte
    writePos := if buf.writePos + 1 = buf.capacity then 0 else buf.writePos + 1 }

def bufferWrite (buf : Buffer) (data : Bytes) : BufferWritten :=
  let writable := buf.capacity - buf.length
  let toWrite := if data.length < writable then data.length else writable
  let filled := (data.take toWrite).foldl bufferPut buf
  { buffer := { filled with length := filled.length + toWrite }
    written := toWrite
    status := if toWrite < data.length then .error .overflow else .ok () }

/-- The copy loop of `sockify_buffer_peek`: `count` bytes from `pos` on. -/
def bufferPeekLoop (data : Bytes) (capacity : Nat) : Nat → Nat → Bytes
  | 0, _ => []
  | count + 1, pos => data.getD pos 0 :: bufferPeekLoop data capacity count (if pos + 1 = capacity then 0 else pos + 1)

/-- The bytes copied out; their number is `*read_count`. -/
def bufferPeek (buf : Buffer) (outLen : Nat) : Bytes :=
  let toRead := if outLen < buf.length then outLen else buf.length
  bufferPeekLoop buf.data buf.capacity toRead buf.readPos

/-- The loop that subtracts the capacity until the position is below it is the
remainder. The second component is `*consumed`. -/
def bufferConsume (buf : Buffer) (count : Nat) : Buffer × Nat :=
  let toConsume := if count < buf.length then count else buf.length
  ({ buf with readPos := (buf.readPos + toConsume) % buf.capacity, length := buf.length - toConsume }, toConsume)

def bufferRead (buf : Buffer) (outLen : Nat) : Bytes × Buffer :=
  let out := bufferPeek buf outLen
  (out, (bufferConsume buf out.length).1)

end Sockify
