import Sockify.Core

/-! WebSocket framing from the outside: how a masked frame is laid out in
bytes, and how a receiver that knows nothing of chunks follows a byte stream
through frame headers and payloads. -/

namespace Sockify.Framing

def bigEndian (bytes : Bytes) : Nat := bytes.foldl (fun value byte => value * 256 + byte.toNat) 0

/-- The lowest `count` bytes of a number, the most significant one first. -/
def bigEndianBytes : Nat → Nat → Bytes
  | 0, _ => []
  | count + 1, value => bigEndianBytes count (value / 256) ++ [UInt8.ofNat value]

def headByte (fin : Bool) (opcode : Nat) : UInt8 := UInt8.ofNat ((if fin then 128 else 0) + opcode)

/-- The shortest of the three forms of a length. The mask bit is its first bit. -/
def lengthField (masked : Bool) (length : Nat) : Bytes :=
  let flag := if masked then 128 else 0
  if length ≤ 125 then [UInt8.ofNat (flag + length)]
  else if length ≤ 65535 then UInt8.ofNat (flag + 126) :: bigEndianBytes 2 length
  else UInt8.ofNat (flag + 127) :: bigEndianBytes 8 length

/-- A whole unmasked frame. -/
def serverFrame (opcode : Nat) (payload : Bytes) : Bytes :=
  headByte true opcode :: (lengthField false payload.length ++ payload)

/-- Byte `i` is combined with byte `i mod 4` of the key. -/
def masked (key payload : Bytes) : Bytes := payload.mapIdx fun index byte => byte ^^^ key.getD (index % 4) 0

/-- A frame as a client sends it, with the payload that it stands for. -/
structure ClientFrame where
  fin : Bool
  opcode : Nat
  key : Bytes
  payload : Bytes

namespace ClientFrame

def encode (frame : ClientFrame) : Bytes :=
  headByte frame.fin frame.opcode ::
    (lengthField true frame.payload.length ++ frame.key ++ masked frame.key frame.payload)

def isControl (frame : ClientFrame) : Prop := 8 ≤ frame.opcode

instance (frame : ClientFrame) : Decidable frame.isControl := inferInstanceAs (Decidable (_ ≤ _))

/-- What the grammar asks of a frame by itself. -/
structure WellFormed (frame : ClientFrame) : Prop where
  opcode : frame.opcode ∈ [0, 1, 2, 8, 9, 10]
  key : frame.key.length = 4
  length : frame.payload.length < 2 ^ 63
  control : frame.isControl → frame.fin = true ∧ frame.payload.length ≤ 125

instance (frame : ClientFrame) : Decidable frame.WellFormed :=
  decidable_of_iff (frame.opcode ∈ [0, 1, 2, 8, 9, 10] ∧ frame.key.length = 4 ∧ frame.payload.length < 2 ^ 63 ∧
    (frame.isControl → frame.fin = true ∧ frame.payload.length ≤ 125))
    ⟨fun ⟨opcode, key, length, control⟩ =>
      ⟨opcode, key, length, control⟩, fun formed => ⟨formed.opcode, formed.key, formed.length, formed.control⟩⟩

/-- What the grammar asks of a frame behind others, the last message of which
may be unfinished. -/
def Continues (unfinished : Bool) (frame : ClientFrame) : Prop :=
  frame.isControl ∨ (frame.opcode = 0 ↔ unfinished = true)

instance (unfinished : Bool) (frame : ClientFrame) : Decidable (frame.Continues unfinished) :=
  inferInstanceAs (Decidable (_ ∨ _))

/-- Whether a message is unfinished behind a frame. -/
def leaves (unfinished : Bool) (frame : ClientFrame) : Bool := if frame.isControl then unfinished else !frame.fin

/-- Frames one behind the other, none of which is out of place. -/
def Sequence : Bool → List ClientFrame → Prop
  | _, [] => True
  | unfinished, frame :: rest => frame.WellFormed ∧ frame.Continues unfinished ∧ Sequence (frame.leaves unfinished) rest

instance Sequence.decidable : (unfinished : Bool) → (frames : List ClientFrame) → Decidable (Sequence unfinished frames)
  | _, [] => isTrue trivial
  | unfinished, frame :: rest =>
    have := Sequence.decidable (frame.leaves unfinished) rest
    inferInstanceAs (Decidable (_ ∧ _ ∧ _))

end ClientFrame

/-- The number of extended length bytes that the second header byte announces. -/
def extendedLength (b1 : UInt8) : Nat :=
  if (b1 &&& 0x7f).toNat = 126 then 2 else if (b1 &&& 0x7f).toNat = 127 then 8 else 0

/-- A header is two bytes, an extended length and a four-byte key. -/
def headerLength (seen : Bytes) : Nat := 6 + extendedLength (seen.getD 1 0)

def payloadLength (seen : Bytes) : Nat :=
  if extendedLength (seen.getD 1 0) = 0 then (seen.getD 1 0 &&& 0x7f).toNat
  else bigEndian ((seen.drop 2).take (extendedLength (seen.getD 1 0)))

def opcodeOf (seen : Bytes) : Nat := (seen.getD 0 0 &&& 0x0f).toNat

def keyOf (seen : Bytes) : Bytes := seen.drop (2 + extendedLength (seen.getD 1 0))

/-- Where a receiver stands: in a header of which it has seen some bytes, or in
a payload with bytes remaining. -/
inductive Cursor
  | header (seen : Bytes)
  | payload (opcode : Nat) (key : Bytes) (offset remaining : Nat)
  deriving DecidableEq

/-- What one byte tells the receiver: nothing yet, the end of a frame without
payload, or a payload byte. -/
inductive Signal
  | quiet
  | empty (opcode : Nat)
  | byte (opcode : Nat) (value : UInt8)
  deriving DecidableEq

def complete (seen : Bytes) : Bool := decide (2 ≤ seen.length ∧ seen.length = headerLength seen)

def Cursor.step : Cursor → UInt8 → Cursor
  | .header seen, byte =>
    let seen := seen ++ [byte]
    if complete seen then
      if payloadLength seen = 0 then .header []
      else .payload (opcodeOf seen) (keyOf seen) 0 (payloadLength seen)
    else .header seen
  | .payload opcode key offset remaining, _ =>
    if remaining = 1 then .header [] else .payload opcode key (offset + 1) (remaining - 1)

def Cursor.signal : Cursor → UInt8 → Signal
  | .header seen, byte =>
    let seen := seen ++ [byte]
    if complete seen ∧ payloadLength seen = 0 then .empty (opcodeOf seen) else .quiet
  | .payload opcode key offset _, byte => .byte opcode (byte ^^^ key.getD (offset % 4) 0)

def Cursor.advance (cursor : Cursor) (bytes : Bytes) : Cursor := bytes.foldl Cursor.step cursor

def Cursor.signals : Cursor → Bytes → List Signal
  | _, [] => []
  | cursor, byte :: rest => cursor.signal byte :: (cursor.step byte).signals rest

/-- Before any frame. -/
def start : Cursor := .header []

/-- The payload bytes of TEXT, BINARY and CONTINUATION frames, up to the first
CLOSE frame. -/
def dataOf : List Signal → Bytes
  | [] => []
  | .quiet :: rest => dataOf rest
  | .empty opcode :: rest => if opcode = 8 then [] else dataOf rest
  | .byte opcode value :: rest =>
    if opcode = 8 then [] else if opcode ≤ 2 then value :: dataOf rest else dataOf rest

def Signal.closes : Signal → Bool
  | .quiet => false
  | .empty opcode => opcode == 8
  | .byte opcode _ => opcode == 8

/-- Whether a CLOSE frame has begun to arrive. -/
def closed (signals : List Signal) : Bool := signals.any Signal.closes

@[simp] theorem Cursor.advance_nil (cursor : Cursor) : cursor.advance [] = cursor := rfl

@[simp] theorem Cursor.advance_cons (cursor : Cursor) (byte : UInt8) (rest : Bytes) :
    cursor.advance (byte :: rest) = (cursor.step byte).advance rest := rfl

theorem Cursor.advance_append (cursor : Cursor) (first last : Bytes) :
    cursor.advance (first ++ last) = (cursor.advance first).advance last := List.foldl_append

theorem Cursor.signals_append (cursor : Cursor) (first last : Bytes) :
    cursor.signals (first ++ last) = cursor.signals first ++ (cursor.advance first).signals last := by
  induction first generalizing cursor with
  | nil => rfl
  | cons byte rest ih => simp only [List.cons_append, signals, ih, advance_cons]

@[simp] theorem closed_append (first last : List Signal) :
    closed (first ++ last) = (closed first || closed last) := by simp [closed]

/-- Nothing behind a CLOSE frame counts. -/
theorem dataOf_append (first last : List Signal) :
    dataOf (first ++ last) = dataOf first ++ if closed first then [] else dataOf last := by
  induction first with
  | nil => simp [dataOf, closed]
  | cons signal rest ih =>
    cases signal with
    | quiet => simpa [dataOf, closed, Signal.closes] using ih
    | empty opcode =>
      by_cases closing : opcode = 8
      · simp [dataOf, closed, Signal.closes, closing]
      · simpa [dataOf, closed, Signal.closes, closing] using ih
    | byte opcode value =>
      by_cases closing : opcode = 8
      · simp [dataOf, closed, Signal.closes, closing]
      · by_cases data : opcode ≤ 2
        · simpa [dataOf, closed, Signal.closes, closing, data] using ih
        · simpa [dataOf, closed, Signal.closes, closing, data] using ih

@[simp] theorem dataOf_quiet (count : Nat) : dataOf (List.replicate count .quiet) = [] := by
  induction count with
  | zero => rfl
  | succ count ih => simpa [List.replicate_succ, dataOf] using ih

@[simp] theorem closed_quiet (count : Nat) : closed (List.replicate count .quiet) = false := by
  simp [closed, Signal.closes]

/-- The signals of one delivered piece of a frame. -/
def delivery (opcode : Nat) : Bytes → List Signal
  | [] => [.empty opcode]
  | payload => payload.map (.byte opcode)

theorem dataOf_bytes (opcode : Nat) (payload : Bytes) :
    dataOf (payload.map (.byte opcode)) = if opcode ≤ 2 then payload else [] := by
  induction payload with
  | nil => simp [dataOf]
  | cons byte rest ih =>
    by_cases data : opcode ≤ 2
    · have open_ : opcode ≠ 8 := by omega
      simpa [dataOf, data, open_] using ih
    · simp [dataOf, data] at ih ⊢
      exact fun _ => ih

theorem dataOf_delivery (opcode : Nat) (payload : Bytes) :
    dataOf (delivery opcode payload) = if opcode ≤ 2 then payload else [] := by
  cases payload with
  | nil => by_cases closing : opcode = 8 <;> simp [delivery, dataOf, closing]
  | cons byte rest => exact dataOf_bytes opcode (byte :: rest)

theorem closed_delivery (opcode : Nat) (payload : Bytes) :
    closed (delivery opcode payload) = (opcode == 8) := by
  cases payload with
  | nil => simp [delivery, closed, Signal.closes]
  | cons byte rest =>
    by_cases closing : opcode = 8 <;> simp [delivery, closed, Signal.closes, closing]

end Sockify.Framing
