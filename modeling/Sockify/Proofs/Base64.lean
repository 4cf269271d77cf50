import Sockify.Digest
import Sockify.Lib.Rfc4648

/-! The base64 encoder against the standard's decoder. The loop and its two
tails pack bits differently, so each residue of the length has its own case. -/

namespace Sockify.Proofs.Base64
open Sockify Sockify.Lib

variable {input other output : Bytes} {index size : Nat}

/-- The number of characters for `n` bytes, four for each group begun. -/
def encodedSize (n : Nat) : Nat := 4 * ((n + 2) / 3)

private theorem base64Char_digit (small : index < 64) : Rfc4648.Digit (base64Char index) index := by
  have all : ∀ index : Fin 64, Rfc4648.value (base64Char index) = some index.val := by decide +kernel
  exact ⟨small, all ⟨index, small⟩⟩

/-- Three bytes as one number. -/
theorem triple_value (b0 b1 b2 : UInt8) :
    b0.toNat <<< 16 ||| b1.toNat <<< 8 ||| b2.toNat = b0.toNat * 65536 + b1.toNat * 256 + b2.toNat := by
  have low := b1.toNat_lt
  have last := b2.toNat_lt
  have upper : b0.toNat <<< 16 ||| b1.toNat <<< 8 = b0.toNat <<< 16 + b1.toNat <<< 8 := by
    symm
    apply Nat.shiftLeft_add_eq_or_of_lt
    rw [Nat.shiftLeft_eq]
    omega
  have whole : (b0.toNat * 256 + b1.toNat) <<< 8 ||| b2.toNat = (b0.toNat * 256 + b1.toNat) <<< 8 + b2.toNat := by
    symm
    apply Nat.shiftLeft_add_eq_or_of_lt
    omega
  have shape : b0.toNat <<< 16 + b1.toNat <<< 8 = (b0.toNat * 256 + b1.toNat) <<< 8 := by
    simp only [Nat.shiftLeft_eq]
    omega
  rw [upper, shape, whole, Nat.shiftLeft_eq]
  omega

private theorem pair_value (b0 b1 : UInt8) :
    b0.toNat <<< 16 ||| b1.toNat <<< 8 = b0.toNat * 65536 + b1.toNat * 256 := by
  have value := triple_value b0 b1 0
  simpa using value

private theorem single_value (b0 : UInt8) : b0.toNat <<< 16 = b0.toNat * 65536 := by
  rw [Nat.shiftLeft_eq]

/-- The four digits of a number of 24 bits. -/
theorem base64Chars_eq (triple count : Nat) : base64Chars triple count =
    ([triple / 262144 % 64, triple / 4096 % 64, triple / 64 % 64, triple % 64].take count).map base64Char := by
  have mask (n : Nat) : n &&& 0x3f = n % 64 := Nat.and_two_pow_sub_one_eq_mod n 6
  simp only [base64Chars, Nat.shiftRight_eq_div_pow, mask]

private theorem base64Char_mod (n : Nat) : Rfc4648.Digit (base64Char (n % 64)) (n % 64) :=
  base64Char_digit (Nat.mod_lt n (by decide))

private theorem byte_value {n : Nat} (byte : UInt8) (same : n = byte.toNat) : UInt8.ofNat n = byte := by
  rw [same]
  exact UInt8.ofNat_toNat

/-- What the loop writes decodes to what it read. -/
theorem decode_loop (input : Bytes) : Rfc4648.decode (base64Loop input) = some input := by
  fun_induction base64Loop input with
  | case1 b0 b1 b2 rest later =>
    have h0 := b0.toNat_lt
    have h1 := b1.toNat_lt
    have h2 := b2.toNat_lt
    rw [triple_value, base64Chars_eq]
    simp only [List.take, List.map_cons, List.map_nil, List.cons_append, List.nil_append]
    rw [Rfc4648.decode_group (base64Char_mod _) (base64Char_mod _) (base64Char_mod _) (base64Char_mod _) later]
    rw [Rfc4648.first, byte_value b0 (by omega), Rfc4648.second, byte_value b1 (by omega),
      Rfc4648.third, byte_value b2 (by omega)]
  | case2 b0 b1 =>
    have h0 := b0.toNat_lt
    have h1 := b1.toNat_lt
    rw [pair_value, base64Chars_eq]
    simp only [List.take, List.map_cons, List.map_nil, List.cons_append, List.nil_append]
    have decoded := Rfc4648.decode_two (base64Char_mod ((b0.toNat * 65536 + b1.toNat * 256) / 262144))
      (base64Char_mod ((b0.toNat * 65536 + b1.toNat * 256) / 4096))
        (base64Char_mod ((b0.toNat * 65536 + b1.toNat * 256) / 64)) (by omega)
    rw [Rfc4648.first, byte_value b0 (by omega), Rfc4648.second, byte_value b1 (by omega)] at decoded
    exact decoded
  | case3 b0 =>
    have h0 := b0.toNat_lt
    rw [single_value, base64Chars_eq]
    simp only [List.take, List.map_cons, List.map_nil, List.cons_append, List.nil_append]
    have decoded := Rfc4648.decode_one
      (base64Char_mod (b0.toNat * 65536 / 262144)) (base64Char_mod (b0.toNat * 65536 / 4096)) (by omega)
    rw [Rfc4648.first, byte_value b0 (by omega)] at decoded
    exact decoded
  | case4 => exact Rfc4648.decode_nil

private theorem base64Loop_injective (same : base64Loop input = base64Loop other) : input = other := by
  have decoded := congrArg Rfc4648.decode same
  rw [decode_loop, decode_loop] at decoded
  exact Option.some.inj decoded

theorem base64Loop_length (input : Bytes) : (base64Loop input).length = encodedSize input.length := by
  fun_induction base64Loop input with
  | case1 b0 b1 b2 rest later =>
    rw [List.length_append, later, base64Chars]
    simp only [encodedSize, List.length_cons, List.length_map, List.length_take, List.length_nil]
    omega
  | case2 b0 b1 => simp [base64Chars, encodedSize]
  | case3 b0 => simp [base64Chars, encodedSize]
  | case4 => rfl

/-- The computed size does not wrap for any input that fits in memory. -/
theorem base64Encode_eq (short : input.length < 2 ^ 62) :
    base64Encode input size = if encodedSize input.length + 1 ≤ size then .ok (base64Loop input)
    else .error .overflow := by
  have sum : (input.length + 2) % sizeModulus = input.length + 2 := Nat.mod_eq_of_lt (by rw [sizeModulus]; omega)
  have product : (input.length + 2) / 3 * 4 % sizeModulus = encodedSize input.length := by
    rw [encodedSize, Nat.mul_comm 4]
    exact Nat.mod_eq_of_lt (by rw [sizeModulus]; omega)
  have end_ : (encodedSize input.length + 1) % sizeModulus = encodedSize input.length + 1 :=
    Nat.mod_eq_of_lt (by rw [sizeModulus, encodedSize]; omega)
  simp only [base64Encode, sum, product, end_]
  by_cases fits : encodedSize input.length + 1 ≤ size
  · rw [if_neg (by omega), if_pos fits]
  · rw [if_pos (by omega), if_neg fits]

/-- With room the characters and a NUL are written and the rest of the buffer
is as it was; without room the buffer is untouched. -/
theorem base64EncodeInto_eq (short : input.length < 2 ^ 62) : base64EncodeInto input output =
    if encodedSize input.length + 1 ≤ output.length then
      (.ok (), base64Loop input ++ 0 :: output.drop (encodedSize input.length + 1), encodedSize input.length)
    else (.error .overflow, output, 0) := by
  rw [base64EncodeInto, base64Encode_eq short]
  by_cases fits : encodedSize input.length + 1 ≤ output.length
  · rw [if_pos fits, if_pos fits]
    simp only [base64Loop_length]
  · rw [if_neg fits, if_neg fits]

def written (result : Except Err Unit × Bytes × Nat) : Bytes := result.2.1.take result.2.2

private theorem base64EncodeInto_ok (short : input.length < 2 ^ 62) :
    (base64EncodeInto input output).1 = .ok () ↔ encodedSize input.length + 1 ≤ output.length := by
  rw [base64EncodeInto_eq short]
  split
  next fits => exact ⟨fun _ => fits, fun _ => rfl⟩
  next small => exact ⟨nofun, fun fits => absurd fits small⟩

private theorem written_eq (short : input.length < 2 ^ 62) (ok : (base64EncodeInto input output).1 = .ok ()) :
    written (base64EncodeInto input output) = base64Loop input := by
  have fits := (base64EncodeInto_ok short).mp ok
  rw [base64EncodeInto_eq short, if_pos fits, written]
  simp only
  rw [← base64Loop_length, List.take_left]

/-- The encoder succeeds exactly with room for the characters and the NUL,
what it writes decodes to its input, and a refused call writes nothing. -/
theorem base64_round_trip (input output : Bytes) (short : input.length < 2 ^ 62) :
    ((base64EncodeInto input output).1 = .ok () ↔ encodedSize input.length + 1 ≤ output.length) ∧
    ((base64EncodeInto input output).1 = .ok () →
      (∃ chars, chars.length = encodedSize input.length ∧ base64EncodeInto input output =
        (.ok (), chars ++ 0 :: output.drop (encodedSize input.length + 1), encodedSize input.length)) ∧
      Rfc4648.decode (written (base64EncodeInto input output)) = some input ∧
      ∀ other room, other.length < 2 ^ 62 → (base64EncodeInto other room).1 = .ok () →
        written (base64EncodeInto other room) = written (base64EncodeInto input output) → other = input) ∧
    ((base64EncodeInto input output).1 ≠ .ok () → base64EncodeInto input output = (.error .overflow, output, 0)) := by
  refine ⟨base64EncodeInto_ok short, ?_, ?_⟩
  · intro ok
    have fits := (base64EncodeInto_ok short).mp ok
    refine ⟨⟨base64Loop input, base64Loop_length input, ?_⟩, ?_, ?_⟩
    · rw [base64EncodeInto_eq short, if_pos fits]
    · rw [written_eq short ok]
      exact decode_loop input
    · intro other room small also same
      rw [written_eq short ok, written_eq small also] at same
      exact base64Loop_injective same
  · intro failed
    have small := fun fits => failed ((base64EncodeInto_ok short).mpr fits)
    rw [base64EncodeInto_eq short, if_neg small]

theorem base64_round_trip_foob :
    Rfc4648.decode (written (base64EncodeInto (ascii "foob") (List.replicate 16 0))) = some (ascii "foob") ∧
      base64EncodeInto (ascii "foob") (List.replicate 8 7) = (.error .overflow, List.replicate 8 7, 0) :=
  have room := base64_round_trip (ascii "foob") (List.replicate 16 0) (by decide +kernel)
  have tight := base64_round_trip (ascii "foob") (List.replicate 8 7) (by decide +kernel)
  ⟨(room.2.1 (by decide +kernel)).2.1, tight.2.2 (by decide +kernel)⟩

end Sockify.Proofs.Base64
