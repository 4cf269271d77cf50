import Sockify.Framing
import Sockify.World

/-! The byte streams of a session, as its record tells them. -/

namespace Sockify.Streams
open Sockify

/-- The bytes that one call took from a side. -/
@[simp] def taken (side : Side) : Io → Bytes
  | .read origin _ _ (.ok bytes) => if origin = side then bytes else []
  | _ => []

/-- The bytes that a side accepted in one call. -/
@[simp] def given (side : Side) : Io → Bytes
  | .write goal _ data (.ok count) => if goal = side then data.take count else []
  | _ => []

@[simp] def answered : Io → Bytes
  | .response bytes => bytes
  | _ => []

@[simp] def framed : Io → List (Nat × Bytes)
  | .frame opcode payload => [(opcode, payload)]
  | _ => []

@[simp] def parsed : Io → Bytes
  | .feed bytes => bytes
  | _ => []

@[simp] def chunk (side : Side) : Io → List Bytes
  | .read origin _ _ (.ok bytes) => if origin = side then [bytes] else []
  | _ => []

/-- All bytes read from a side. -/
def received (side : Side) (log : List Io) : Bytes := log.flatMap (taken side)

/-- The same bytes, read by read. -/
def chunks (side : Side) (log : List Io) : List Bytes := log.flatMap (chunk side)

/-- All bytes that a side has accepted. -/
def delivered (side : Side) (log : List Io) : Bytes := log.flatMap (given side)

/-- The responses to upgrade requests. -/
def responses (log : List Io) : Bytes := log.flatMap answered

/-- The frames placed in the output slot, by opcode and payload. -/
def frames (log : List Io) : List (Nat × Bytes) := log.flatMap framed

/-- All bytes used by the frame parser. -/
def fed (log : List Io) : Bytes := log.flatMap parsed

/-- What the frames of one opcode carry. -/
def payloads (opcode : Nat) (frames : List (Nat × Bytes)) : Bytes :=
  frames.flatMap fun frame => if frame.1 = opcode then frame.2 else []

/-- Frames as bytes on the wire. -/
def wire (frames : List (Nat × Bytes)) : Bytes := frames.flatMap fun frame => Framing.serverFrame frame.1 frame.2

variable {side : Side} {opcode : Nat}

@[simp] theorem received_nil : received side [] = [] := rfl
@[simp] theorem received_cons (io : Io)
    (log : List Io) : received side (io :: log) = taken side io ++ received side log :=
  rfl
@[simp] theorem received_append (first last : List Io) :
    received side (first ++ last) = received side first ++ received side last :=
  List.flatMap_append

@[simp] theorem chunks_nil : chunks side [] = [] := rfl
@[simp] theorem chunks_cons (io : Io) (log : List Io) : chunks side (io :: log) = chunk side io ++ chunks side log :=
  rfl
@[simp] theorem chunks_append (first last : List Io) :
    chunks side (first ++ last) = chunks side first ++ chunks side last :=
  List.flatMap_append

theorem chunks_flatten (log : List Io) : (chunks side log).flatten = received side log := by
  induction log with
  | nil => rfl
  | cons io log ih =>
    rw [chunks_cons, received_cons, List.flatten_append, ih]
    congr 1
    unfold chunk taken
    split
    · split <;> simp
    · rfl

@[simp] theorem delivered_nil : delivered side [] = [] := rfl
@[simp] theorem delivered_cons
    (io : Io) (log : List Io) : delivered side (io :: log) = given side io ++ delivered side log :=
  rfl
@[simp] theorem delivered_append (first last : List Io) :
    delivered side (first ++ last) = delivered side first ++ delivered side last := List.flatMap_append

@[simp] theorem responses_nil : responses [] = [] := rfl
@[simp] theorem responses_cons (io : Io) (log : List Io) : responses (io :: log) = answered io ++ responses log := rfl
@[simp] theorem responses_append (first last : List Io) :
    responses (first ++ last) = responses first ++ responses last :=
  List.flatMap_append

@[simp] theorem frames_nil : frames [] = [] := rfl
@[simp] theorem frames_cons (io : Io) (log : List Io) : frames (io :: log) = framed io ++ frames log := rfl
@[simp] theorem frames_append (first last : List Io) : frames (first ++ last) = frames first ++ frames last :=
  List.flatMap_append

@[simp] theorem fed_nil : fed [] = [] := rfl
@[simp] theorem fed_cons (io : Io) (log : List Io) : fed (io :: log) = parsed io ++ fed log := rfl
@[simp] theorem fed_append (first last : List Io) : fed (first ++ last) = fed first ++ fed last := List.flatMap_append

@[simp] theorem payloads_nil : payloads opcode [] = [] := rfl
@[simp] theorem payloads_cons (frame : Nat × Bytes) (rest : List (Nat × Bytes)) :
    payloads opcode (frame :: rest) = (if frame.1 = opcode then frame.2 else []) ++ payloads opcode rest := rfl
@[simp] theorem payloads_append (first last : List (Nat × Bytes)) :
    payloads opcode (first ++ last) = payloads opcode first ++ payloads opcode last := List.flatMap_append

@[simp] theorem wire_nil : wire [] = [] := rfl
@[simp] theorem wire_cons (frame : Nat × Bytes) (rest : List (Nat × Bytes)) :
    wire (frame :: rest) = Framing.serverFrame frame.1 frame.2 ++ wire rest := rfl
@[simp] theorem wire_append (first last : List (Nat × Bytes)) : wire (first ++ last) = wire first ++ wire last :=
  List.flatMap_append

end Sockify.Streams
