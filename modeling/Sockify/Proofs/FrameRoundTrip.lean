import Sockify.Proofs.FrameGrammar
import Sockify.Proofs.FrameLayout

/-! The frame writer and the frame parser agree on the format: a written frame,
masked the way a client masks it, is parsed back to what was written. -/

namespace Sockify.Proofs.FrameRoundTrip
open Sockify Framing Driving FrameGrammar FrameLayout ParserSegmentation

/-- A frame with its mask bit set, a key behind its length field, and its
payload combined with the key. -/
def maskFrame (key : Bytes) : Bytes → Bytes
  | first :: second :: rest =>
    first :: (second ||| 0x80) ::
      (rest.take (extendedLength second) ++ key ++ masked key (rest.drop (extendedLength second)))
  | short => short

def headerSize (payload : Bytes) : Nat := if payload.length ≤ 125 then 2 else if payload.length ≤ 65535 then 4 else 10

variable {opcode size : Nat} {payload key : Bytes}

private theorem short_flag (length : Nat) (short : length ≤ 125) :
    UInt8.ofNat length ||| 0x80 = UInt8.ofNat (128 + length) ∧ extendedLength (UInt8.ofNat length) = 0 := by
  have all : ∀ length : Fin 126, UInt8.ofNat length ||| 0x80 = UInt8.ofNat (128 + length) ∧
      extendedLength (UInt8.ofNat length) = 0 := by
    decide +kernel
  exact all ⟨length, by omega⟩

private theorem maskFrame_serverFrame (opcode : Nat) (key payload : Bytes) :
    maskFrame key (serverFrame opcode payload) = ClientFrame.encode ⟨true, opcode, key, payload⟩ := by
  unfold serverFrame ClientFrame.encode lengthField
  simp only
  split
  next short =>
    obtain ⟨flag, plain⟩ := short_flag payload.length short
    simp [maskFrame, flag, plain]
  · split
    next medium =>
      have size := bigEndianBytes_length 2 payload.length
      have form : extendedLength (UInt8.ofNat 126) = 2 := by decide
      simp only [Bool.false_eq_true, if_false,
        Nat.zero_add, List.cons_append, maskFrame, form, List.take_left' size, List.drop_left' size]
      rfl
    next long =>
      have size := bigEndianBytes_length 8 payload.length
      have form : extendedLength (UInt8.ofNat 127) = 8 := by decide
      simp only [Bool.false_eq_true, if_false,
        Nat.zero_add, List.cons_append, maskFrame, form, List.take_left' size, List.drop_left' size]
      rfl

/-- The writer succeeds wherever the frame fits. -/
theorem wsWriteFrame_succeeds (known : validOpcode opcode = true)
    (short : isControlOpcode opcode = true → payload.length ≤ 125) (bounded : payload.length < 2 ^ 63)
    (room : headerSize payload + payload.length ≤ size) :
    ∃ output, wsWriteFrame opcode payload size = .ok output := by
  have small : headerSize payload ≤ 10 := by
    unfold headerSize
    split
    · omega
    · split <;> omega
  have exact_ : (headerSize payload + payload.length) % sizeModulus = headerSize payload + payload.length :=
    Nat.mod_eq_of_lt (by rw [sizeModulus]; omega)
  unfold wsWriteFrame
  rw [if_neg (by simp [known]), if_neg fun ⟨control, long⟩ => absurd (short control) (Nat.not_le.mpr long)]
  change ∃ output, (if size < (headerSize payload + payload.length) % sizeModulus then _ else _) = _
  rw [exact_, if_neg (Nat.not_lt.mpr room)]
  exact ⟨_, rfl⟩

/-- What is written comes back from the parser, whatever the chunks and the
capacities: there is a drive, and every drive delivers the one frame. -/
theorem written_frame_parses (opcode size : Nat) (payload key : Bytes) (sendable : opcode ∈ [1, 2, 8, 9, 10])
    (short : 8 ≤ opcode → payload.length ≤ 125) (bounded : payload.length < 2 ^ 63)
    (room : headerSize payload + payload.length ≤ size) (whole : key.length = 4) :
    ∃ output, wsWriteFrame opcode payload size = .ok output ∧
      ∀ chunks pace, Roomy pace → chunks.flatten = maskFrame key output →
        (∃ driven, Drives pace wsParserInit chunks driven) ∧
        ∀ driven, Drives pace wsParserInit chunks driven →
          driven.failure = none ∧ driven.consumed = (maskFrame key output).length ∧ driven.parser.state = .header1 ∧
          assemble driven.messages = [⟨true, opcode, payload, true⟩] := by
  have all : ∀ opcode ∈ [1, 2, 8, 9, 10], validOpcode opcode = true ∧ opcode ∈ [0, 1, 2, 8, 9, 10] ∧ opcode ≠ 0 := by
    decide
  obtain ⟨known, member, first⟩ := all opcode sendable
  obtain ⟨output, written⟩ :=
    wsWriteFrame_succeeds known (fun control => short (by simpa [isControlOpcode] using control)) bounded room
  refine ⟨output, written, fun chunks pace roomy same =>
    ⟨drives_exist roomy chunks ParserCursor.init_valid, fun driven drives => ?_⟩⟩
  have sequence : ClientFrame.Sequence false [⟨true, opcode, key, payload⟩] :=
    ⟨⟨member, whole, bounded, fun control => ⟨rfl, short control⟩⟩, .inr (by simp [first]), trivial⟩
  have layout : chunks.flatten = [⟨true, opcode, key, payload⟩].flatMap ClientFrame.encode := by
    rw [same, wsWriteFrame_layout written, maskFrame_serverFrame]
    simp
  rw [← same]
  exact drives_sequence roomy drives sequence layout

/-- A frame of 126 bytes, the shortest with an extended length, in single bytes. -/
theorem written_frame_parses_extended : ∃ output, wsWriteFrame 2 (List.replicate 126 7) 130 = .ok output ∧
    ∃ driven, Drives (fun _ => 4096) wsParserInit ((maskFrame [1, 2, 3, 4] output).map fun byte => [byte]) driven ∧
      assemble driven.messages = [⟨true, 2, List.replicate 126 7, true⟩] := by
  obtain ⟨output, written, parses⟩ :=
    written_frame_parses 2 130 (List.replicate 126 7) [1, 2, 3, 4] (by decide) (by decide)
      (by rw [List.length_replicate]; decide) (by simp [headerSize]) rfl
  have wide : leastCapacity ≤ 4096 := by decide
  obtain ⟨⟨driven, drives⟩, delivers⟩ := parses ((maskFrame [1, 2, 3, 4] output).map fun byte => [byte]) (fun _ => 4096)
    (fun _ => wide) (by simp [← List.flatMap_def])
  exact ⟨output, written, driven, drives, (delivers driven drives).2.2.2⟩

end Sockify.Proofs.FrameRoundTrip
