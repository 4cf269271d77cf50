import Sockify.Lib.Wrapping
import Sockify.Proofs.Base64
import Sockify.Proofs.FrameRoundTrip

/-! The capacity checks of the frame writer and of the base64 encoder. Both
compute the size they ask for in `size_t`, and compare it there. -/

namespace Sockify.Proofs.OutputSizes
open Sockify Framing FrameLayout FrameGrammar FrameRoundTrip Base64 Sockify.Lib

def askedBase64 (length : Nat) : Nat := (((length + 2) % sizeModulus) / 3 * 4 % sizeModulus + 1) % sizeModulus

/-- A frame with a data opcode is checked with a sum that does not wrap, or with
one that is too large even so. -/
def FrameChecked (opcode length size : Nat) : Prop :=
  validOpcode opcode = true → isControlOpcode opcode = false →
    length + 10 < sizeModulus ∨ size + sizeModulus < length + 10

/-- A text is checked with a product that does not wrap, or with one that is too
large even so. -/
def Base64Checked (length size : Nat) : Prop := length + 3 ≤ 3 * 2 ^ 62 ∨ size < askedBase64 length

variable {opcode size length : Nat} {payload output input chars : Bytes}

private theorem written_length (written : wsWriteFrame opcode payload size = .ok output) :
    output.length = headerSize payload + payload.length := by
  rw [wsWriteFrame_layout written, serverFrame, List.length_cons, List.length_append, lengthField, headerSize]
  split
  · simp
    omega
  · split
    · simp [bigEndianBytes_length]
      omega
    · simp [bigEndianBytes_length]
      omega

/-- The writer, its check by name. -/
theorem wsWriteFrame_checked (known : validOpcode opcode = true)
    (short : isControlOpcode opcode = true → payload.length ≤ 125) :
    (∃ output, wsWriteFrame opcode payload size = .ok output) ↔
    Wrapping.Passes sizeModulus (headerSize payload + payload.length) size := by
  unfold wsWriteFrame
  rw [if_neg (by simp [known]), if_neg fun ⟨control, long⟩ => absurd (short control) (Nat.not_le.mpr long)]
  change (∃ output, (if size < (headerSize payload + payload.length) % sizeModulus then _ else _) = _) ↔ _
  rw [Wrapping.Passes]
  split
  next fails =>
    constructor
    · intro written
      obtain ⟨_, impossible⟩ := written
      cases impossible
    · intro passes
      exact absurd fails passes
  next passes => exact ⟨fun _ => passes, fun _ => ⟨_, rfl⟩⟩

/-- The encoder, its check by name. -/
theorem base64Encode_checked : (∃ chars, base64Encode input size = .ok chars) ↔ ¬ size < askedBase64 input.length := by
  change (∃ chars, (if size < askedBase64 input.length then _ else _) = _) ↔ _
  split
  next fails =>
    constructor
    · intro encoded
      obtain ⟨_, impossible⟩ := encoded
      cases impossible
    · intro passes
      exact absurd fails passes
  next passes => exact ⟨fun _ => passes, fun _ => ⟨_, rfl⟩⟩

/-- What is asked for is the size, as far as the sum in it does not wrap. -/
theorem askedBase64_eq (short : length + 2 < sizeModulus) :
    askedBase64 length = (encodedSize length + 1) % sizeModulus := by
  rw [askedBase64, Nat.mod_eq_of_lt short, Nat.mod_add_mod, encodedSize, Nat.mul_comm 4]

/-- Where the sum of header and payload can be relied on. -/
theorem frame_sum (bounded : payload.length < sizeModulus) :
    (headerSize payload + payload.length < sizeModulus ∨ size < (headerSize payload + payload.length) % sizeModulus) ↔
      payload.length + 10 < sizeModulus ∨ size + sizeModulus < payload.length + 10 := by
  rw [headerSize]
  rw [sizeModulus] at bounded ⊢
  split
  · omega
  · split
    · omega
    · omega

private theorem frame_reliable (bounded : payload.length < sizeModulus) (inside : size < sizeModulus) :
    (∀ output, wsWriteFrame opcode payload size = .ok output → output.length ≤ size) ↔
    FrameChecked opcode payload.length size := by
  by_cases refused : ¬ validOpcode opcode = true ∨ (isControlOpcode opcode = true ∧ payload.length > 125)
  · have nothing : ∀ output, wsWriteFrame opcode payload size ≠ .ok output := by
      intro output written
      rw [wsWriteFrame] at written
      rcases refused with unknown | long
      · rw [if_pos (by simpa using unknown)] at written
        cases written
      · split at written
        · cases written
        · cases written
    constructor
    · intro _ known data
      rcases refused with unknown | ⟨control, -⟩
      · exact absurd known unknown
      · cases control.symm.trans data
    · exact fun _ output written => absurd written (nothing output)
  · obtain ⟨known, short⟩ := not_or.mp refused
    have known := Decidable.not_not.mp known
    have short : isControlOpcode opcode = true → payload.length ≤ 125 :=
      fun control => Nat.le_of_not_lt fun long => short ⟨control, long⟩
    constructor
    · intro fits _ _
      apply (frame_sum bounded).mp
      apply (Wrapping.reliable_iff inside).mp
      intro passes
      obtain ⟨output, written⟩ := (wsWriteFrame_checked known short).mpr passes
      rw [← written_length written]
      exact fits output written
    · intro checked output written
      rw [written_length written]
      apply (Wrapping.reliable_iff inside).mpr _ ((wsWriteFrame_checked known short).mp ⟨output, written⟩)
      apply (frame_sum bounded).mpr
      by_cases control : isControlOpcode opcode = true
      · have few := short control
        rw [sizeModulus]
        omega
      · exact checked known (by simpa using control)

/-- Where the product can be relied on. -/
theorem base64_reliable (bounded : length < sizeModulus) (inside : size < sizeModulus) :
    (¬ size < askedBase64 length → encodedSize length + 1 ≤ size) ↔ Base64Checked length size := by
  have modulus : sizeModulus = 2 ^ 64 := rfl
  rw [Base64Checked]
  by_cases short : length + 2 < sizeModulus
  · rw [askedBase64_eq short]
    have exact_ : encodedSize length + 1 < sizeModulus ↔ length + 3 ≤ 3 * 2 ^ 62 := by
      rw [encodedSize]
      omega
    rw [← exact_]
    exact Wrapping.reliable_iff inside
  · have long : sizeModulus ≤ encodedSize length + 1 := by
      rw [encodedSize]
      omega
    have nothing := Wrapping.not_fits long inside
    constructor
    · intro reliable
      by_cases fails : size < askedBase64 length
      · exact .inr fails
      · exact absurd (reliable fails) nothing
    · intro cases_ passes
      rcases cases_ with few | fails
      · omega
      · exact absurd fails passes

/-- A passed check means room for all that is written exactly where the size
that is asked for has not wrapped, or would be refused even so. -/
theorem output_checks (data : Bytes) (size : Nat) (bounded : data.length < sizeModulus)
    (inside : size < sizeModulus) :
    (∀ opcode, (∀ output, wsWriteFrame opcode data size = .ok output → output.length ≤ size) ↔
    FrameChecked opcode data.length size) ∧
    ((∀ chars, base64Encode data size = .ok chars → 4 * ((data.length + 2) / 3) + 1 ≤ size) ↔
    Base64Checked data.length size) := by
  constructor
  · intro opcode
    exact frame_reliable bounded inside
  · rw [← base64_reliable bounded inside, ← base64Encode_checked, encodedSize]
    exact ⟨fun fits encoded => fits encoded.choose encoded.choose_spec, fun fits chars encoded => fits ⟨chars, encoded⟩⟩

theorem output_checks_small : (∀ output, wsWriteFrame Opcode.ping [1, 2, 3, 4] 9 = .ok output → output.length ≤ 9) ∧
    ∀ chars, base64Encode [1, 2, 3, 4] 9 = .ok chars → 4 * ((([1, 2, 3, 4] : Bytes).length + 2) / 3) + 1 ≤ 9 := by
  obtain ⟨frame, text⟩ := output_checks [1, 2, 3, 4] 9 (by decide) (by decide)
  have framed := (frame Opcode.ping).mpr fun _ _ => .inl (by decide)
  exact ⟨framed, text.mpr (.inl (by decide))⟩

/-- A payload that makes the sum wrap to nothing. -/
theorem frame_wraps (long : payload.length = 2 ^ 64 - 10) :
    ∃ output, wsWriteFrame Opcode.binary payload 0 = .ok output ∧ 0 < output.length := by
  have header : headerSize payload = 10 := by
    rw [headerSize, if_neg (by omega), if_neg (by omega)]
  have passes : Wrapping.Passes sizeModulus (headerSize payload + payload.length) 0 := by
    rw [Wrapping.Passes, header, long, sizeModulus]
    decide
  have data : isControlOpcode Opcode.binary = true → payload.length ≤ 125 := fun control => absurd control (by decide)
  obtain ⟨output, written⟩ := (wsWriteFrame_checked rfl data).mpr passes
  refine ⟨output, written, ?_⟩
  rw [written_length written, header]
  omega

/-- A text that makes the product wrap to nothing. -/
theorem base64_wraps (long : input.length = 3 * 2 ^ 62 - 2) :
    ∃ chars, base64Encode input 1 = .ok chars ∧ 1 < 4 * ((input.length + 2) / 3) + 1 := by
  have passes : ¬ 1 < askedBase64 input.length := by
    rw [askedBase64, long, sizeModulus]
    decide
  obtain ⟨chars, encoded⟩ := base64Encode_checked.mpr passes
  exact ⟨chars, encoded, by omega⟩

/-- A frame of 2^64 bytes that is given no room, and a text of more characters
than that given room for one. -/
theorem output_checks_wrapped : ∃ payload input : Bytes, payload.length = 2 ^ 64 - 10 ∧ input.length = 3 * 2 ^ 62 - 2 ∧
    (∃ output, wsWriteFrame Opcode.binary payload 0 = .ok output ∧ 0 < output.length) ∧
    ∃ chars, base64Encode input 1 = .ok chars ∧ 1 < 4 * ((input.length + 2) / 3) + 1 := by
  obtain ⟨payload, long⟩ : ∃ payload : Bytes, payload.length = 2 ^ 64 - 10 := ⟨_, List.length_replicate (a := 0)⟩
  obtain ⟨input, wide⟩ : ∃ input : Bytes, input.length = 3 * 2 ^ 62 - 2 := ⟨_, List.length_replicate (a := 0)⟩
  exact ⟨payload, input, long, wide, frame_wraps long, base64_wraps wide⟩

end Sockify.Proofs.OutputSizes
