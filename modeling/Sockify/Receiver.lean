import Sockify.Framing

/-! A WebSocket client from the outside, as it follows a byte stream from its
server: it passes the answer to its request by, reads frame after frame, takes
binary messages, and fails the connection over a frame that the protocol does
not allow there. -/

namespace Sockify.Receiver
open Framing

/-- Where a client stands: in the answer, in a header or a payload of which it
has seen a part, or behind the last frame. `begun` is true between the frames of
one message. -/
inductive Reader
  | answer (seen : Bytes)
  | header (begun : Bool) (seen : Bytes)
  | payload (begun : Bool) (opcode remaining : Nat)
  | closed
  | failed
  deriving DecidableEq

/-- Before anything has come. -/
def Reader.fresh : Reader := .answer []

def finOf (seen : Bytes) : Bool := decide (seen.getD 0 0 &&& 0x80 ≠ 0)

/-- A server sends no key. -/
def headerSize (seen : Bytes) : Nat := 2 + extendedLength (seen.getD 1 0)

/-- No reserved bit, and an opcode in its place: a control frame is final, and
the first frame of a message is binary. -/
def AdmitsOpcode (begun : Bool) (seen : Bytes) : Prop :=
  seen.getD 0 0 &&& 0x70 = 0 ∧ opcodeOf seen ∈ [0, 2, 8, 9, 10] ∧
    if 8 ≤ opcodeOf seen then finOf seen = true else opcodeOf seen = 0 ↔ begun = true

/-- No key, and a short control frame. -/
def AdmitsSize (seen : Bytes) : Prop :=
  seen.getD 1 0 &&& 0x80 = 0 ∧ (8 ≤ opcodeOf seen → (seen.getD 1 0 &&& 0x7f).toNat ≤ 125)

/-- A length below 2^63 in its shortest form. -/
def AdmitsLength (seen : Bytes) : Prop :=
  payloadLength seen < 2 ^ 63 ∧ seen.drop 1 = lengthField false (payloadLength seen)

/-- What a client lets pass as the first bytes of a header. -/
def Admits (begun : Bool) (seen : Bytes) : Prop :=
  AdmitsOpcode begun seen ∧ (2 ≤ seen.length → AdmitsSize seen) ∧ (headerSize seen ≤ seen.length → AdmitsLength seen)

instance (begun : Bool) (seen : Bytes) : Decidable (AdmitsOpcode begun seen) :=
  inferInstanceAs (Decidable (_ ∧ _ ∧ ite _ _ _))

instance (seen : Bytes) : Decidable (AdmitsSize seen) := inferInstanceAs (Decidable (_ ∧ _))

instance (seen : Bytes) : Decidable (AdmitsLength seen) := inferInstanceAs (Decidable (_ ∧ _))

instance (begun : Bool) (seen : Bytes) : Decidable (Admits begun seen) := inferInstanceAs (Decidable (_ ∧ _ ∧ _))

/-- Behind a whole frame. -/
def Reader.behind (begun : Bool) (opcode : Nat) : Reader := if opcode = 8 then .closed else .header begun []

/-- Behind a whole header. A control frame comes between the frames of a message. -/
def Reader.entered (begun : Bool) (seen : Bytes) : Reader :=
  let begun := if 8 ≤ opcodeOf seen then begun else !finOf seen
  if payloadLength seen = 0 then behind begun (opcodeOf seen) else .payload begun (opcodeOf seen) (payloadLength seen)

def Reader.step : Reader → UInt8 → Reader
  | .answer seen, byte => if [13, 10, 13, 10] <:+ seen ++ [byte] then .header false [] else .answer (seen ++ [byte])
  | .header begun seen, byte =>
    let seen := seen ++ [byte]
    if ¬ Admits begun seen then .failed
      else if headerSize seen ≤ seen.length then entered begun seen else .header begun seen
  | .payload begun opcode remaining, _ =>
    if remaining = 1 then behind begun opcode else .payload begun opcode (remaining - 1)
  -- Nothing may come behind a CLOSE frame.
  | .closed, _ => .failed
  | .failed, _ => .failed

/-- The message byte that a byte of the stream is, if it is one. -/
def Reader.takes : Reader → UInt8 → Bytes
  | .payload _ opcode _, byte => if 8 ≤ opcode then [] else [byte]
  | _, _ => []

def Reader.advance (reader : Reader) (bytes : Bytes) : Reader := bytes.foldl Reader.step reader

/-- The message bytes in a stream. -/
def Reader.message : Reader → Bytes → Bytes
  | _, [] => []
  | reader, byte :: rest => reader.takes byte ++ (reader.step byte).message rest

/-- What a reader makes of some bytes: what it takes, and where it stands then. -/
structure Reads (reader : Reader) (bytes taken : Bytes) (after : Reader) : Prop where
  stands : reader.advance bytes = after
  took : reader.message bytes = taken

@[simp] theorem Reader.advance_nil (reader : Reader) : reader.advance [] = reader := rfl

@[simp] theorem Reader.advance_cons (reader : Reader) (byte : UInt8) (rest : Bytes) :
    reader.advance (byte :: rest) = (reader.step byte).advance rest := rfl

theorem Reader.advance_append (reader : Reader) (first last : Bytes) :
    reader.advance (first ++ last) = (reader.advance first).advance last := List.foldl_append

theorem Reader.message_append (reader : Reader) (first last : Bytes) :
    reader.message (first ++ last) = reader.message first ++ (reader.advance first).message last := by
  induction first generalizing reader with
  | nil => rfl
  | cons byte rest ih => simp only [List.cons_append, message, ih, advance_cons, List.append_assoc]

theorem Reader.advance_failed (bytes : Bytes) : failed.advance bytes = .failed := by
  induction bytes with
  | nil => rfl
  | cons byte rest ih => exact ih

/-- Who fails does not recover. -/
theorem Reader.advance_early {reader : Reader} {first last : Bytes} (fine : reader.advance (first ++ last) ≠ .failed) :
    reader.advance first ≠ .failed := by
  intro early
  rw [advance_append, early, advance_failed] at fine
  exact fine rfl

namespace Reads
variable {reader middle after : Reader} {first last front back : Bytes}

theorem none (reader : Reader) : Reads reader [] [] reader := ⟨rfl, rfl⟩

theorem one {byte : UInt8} (steps : reader.step byte = after) : Reads reader [byte] (reader.takes byte) after :=
  ⟨steps, List.append_nil _⟩

theorem append (one : Reads reader first front middle) (other : Reads middle last back after) :
    Reads reader (first ++ last) (front ++ back) after := by
  constructor
  · rw [Reader.advance_append, one.stands, other.stands]
  · rw [Reader.message_append, one.took, one.stands, other.took]

end Reads

end Sockify.Receiver
