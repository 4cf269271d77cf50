import Sockify.Framing
import Sockify.Ws.Frame

/-! The frame writer produces frames as `Framing` lays them out. -/

namespace Sockify.Proofs.FrameLayout
open Sockify Framing

private theorem low_byte (value : Nat) : UInt8.ofNat (value &&& 0xff) = UInt8.ofNat value := by
  apply UInt8.toNat_inj.mp
  simp [Nat.and_two_pow_sub_one_eq_mod (n := 8)]

private theorem writeBe16_eq (value : Nat) : writeBe16 value = bigEndianBytes 2 value := by
  simp only [writeBe16, bigEndianBytes, low_byte, Nat.shiftRight_eq_div_pow, List.nil_append, List.cons_append]

private theorem writeBe64_eq (value : Nat) : writeBe64 value = bigEndianBytes 8 value := by
  simp only [writeBe64, bigEndianBytes,
    low_byte, Nat.shiftRight_eq_div_pow, Nat.div_div_eq_div_mul, List.nil_append, List.cons_append]

private theorem head_known {opcode : Nat} (known : validOpcode opcode = true) :
    UInt8.ofNat (0x80 ||| opcode &&& 0x0f) = headByte true opcode := by
  simp only [validOpcode, Opcode.continuation, Opcode.text, Opcode.binary, Opcode.close, Opcode.ping, Opcode.pong,
    Bool.or_eq_true, beq_iff_eq] at known
  rcases known with ((((rfl | rfl) | rfl) | rfl) | rfl) | rfl <;> rfl

/-- A written frame is whole, unmasked and final. -/
theorem wsWriteFrame_layout {opcode : Nat} {payload frame : Bytes} {size : Nat}
    (written : wsWriteFrame opcode payload size = .ok frame) :
    frame = serverFrame opcode payload := by
  have known : validOpcode opcode = true := by
    by_contra unknown
    rw [wsWriteFrame, if_pos (by simpa using unknown)] at written
    cases written
  have head := head_known known
  simp only [wsWriteFrame] at written
  repeat' split at written
  all_goals cases written
  next short _ => simp [serverFrame, lengthField, ← head, short]
  next long short _ => simp only [serverFrame, lengthField, head, if_neg long, if_pos short, writeBe16_eq]; rfl
  next long longer _ => simp only [serverFrame, lengthField, head, if_neg long, if_neg longer, writeBe64_eq]; rfl

end Sockify.Proofs.FrameLayout
