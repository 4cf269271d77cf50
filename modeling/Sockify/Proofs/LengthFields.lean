import Sockify.Proofs.FrameGrammar

/-! What a receiver finds in the length field of a frame, masked or not. -/

namespace Sockify.Proofs.LengthFields
open Sockify Framing

variable {masked_ : Bool} {length : Nat} {first : UInt8} {extension : Bytes}

/-- The mask bit is the first bit of a length field, and seven bits follow it. -/
theorem flag_bits (masked_ : Bool) (length : Nat) (small : length ≤ 127) :
    (UInt8.ofNat ((if masked_ then 128 else 0) + length) &&& 0x80 = 0 ↔ masked_ = false) ∧
      (UInt8.ofNat ((if masked_ then 128 else 0) + length) &&& 0x7f).toNat = length := by
  have all : ∀ masked_ : Bool, ∀ length : Fin 128,
      (UInt8.ofNat ((if masked_ then 128 else 0) + length) &&& 0x80 = 0 ↔ masked_ = false) ∧
        (UInt8.ofNat ((if masked_ then 128 else 0) + length) &&& 0x7f).toNat = length := by decide +kernel
  exact all masked_ ⟨length, by omega⟩

/-- A length field taken apart. -/
structure Spelled (masked_ : Bool) (length : Nat) (first : UInt8) (extension : Bytes) : Prop where
  field : lengthField masked_ length = first :: extension
  flag : first &&& 0x80 = 0 ↔ masked_ = false
  size : extendedLength first = extension.length
  short : length ≤ 125 → (first &&& 0x7f).toNat = length
  value : (if extendedLength first = 0 then (first &&& 0x7f).toNat else bigEndian extension) = length

theorem spelled (masked_ : Bool) (bounded : length < 2 ^ 63) :
    ∃ first extension, Spelled masked_ length first extension := by
  by_cases short : length ≤ 125
  · obtain ⟨flag, bits⟩ := flag_bits masked_ length (by omega)
    have none : extendedLength (UInt8.ofNat ((if masked_ then 128 else 0) + length)) = 0 := by
      rw [extendedLength, bits, if_neg (by omega), if_neg (by omega)]
    refine ⟨_, [], by simp [lengthField, short], flag, none, fun _ => bits, ?_⟩
    rw [if_pos none, bits]
  by_cases middle : length ≤ 65535
  · obtain ⟨flag, bits⟩ := flag_bits masked_ 126 (by omega)
    have two : extendedLength (UInt8.ofNat ((if masked_ then 128 else 0) + 126)) = 2 := by
      rw [extendedLength, bits, if_pos rfl]
    refine ⟨_, bigEndianBytes 2 length, ?_, flag, ?_, fun less => absurd less short, ?_⟩
    · rw [lengthField, if_neg short, if_pos middle]
    · rw [two, FrameGrammar.bigEndianBytes_length]
    · rw [two, if_neg (by decide), FrameGrammar.bigEndian_bigEndianBytes 2 length (by omega)]
  · obtain ⟨flag, bits⟩ := flag_bits masked_ 127 (by omega)
    have eight : extendedLength (UInt8.ofNat ((if masked_ then 128 else 0) + 127)) = 8 := by
      rw [extendedLength, bits, if_neg (by decide), if_pos rfl]
    refine ⟨_, bigEndianBytes 8 length, ?_, flag, ?_, fun less => absurd less short, ?_⟩
    · rw [lengthField, if_neg short, if_neg middle]
    · rw [eight, FrameGrammar.bigEndianBytes_length]
    · rw [eight, if_neg (by decide), FrameGrammar.bigEndian_bigEndianBytes 8 length (by omega)]

/-- The length that a receiver reads off a header. -/
theorem Spelled.reads (spells : Spelled masked_ length first extension) (head : UInt8) (tail : Bytes) :
    payloadLength (head :: first :: (extension ++ tail)) = length := by
  have value := spells.value
  simp only [payloadLength, List.getD_cons_succ, List.getD_cons_zero, List.drop_succ_cons, List.drop_zero]
  rwa [spells.size, List.take_left' rfl, ← spells.size]

end Sockify.Proofs.LengthFields
