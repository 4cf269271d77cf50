import Mathlib.Data.List.Induction
import Sockify.Proofs.ParserSegmentation

/-! What the parser accepts between two frames is exactly the grammar of client
frames: minimal lengths, known opcodes, whole control frames, and fragments in
their order. -/

namespace Sockify.Proofs.FrameGrammar
open Sockify Framing Driving ParserCursor ParserSegmentation

/-- These bytes lead from one parser to another without an error. -/
def Leads (parser : WsParser) (bytes : Bytes) (messages : List WsMessage) (after : WsParser) : Prop :=
  follow parser bytes = ⟨after, bytes.length, messages, none⟩

/-- These bytes are used up without an error and end between two frames. -/
def Accepts (parser : WsParser) (bytes : Bytes) : Prop :=
  (follow parser bytes).failure = none ∧ (follow parser bytes).parser.state = .header1

variable {parser middle after : WsParser} {byte : UInt8} {first last rest bytes : Bytes}
  {front back : List WsMessage} {fin : Bool}
  {opcode length fragment : Nat} {error : Err}

theorem Leads.nil (parser : WsParser) : Leads parser [] [] parser := rfl

theorem Leads.quiet (fed : feedByte parser byte = ⟨after, 1, .error .again⟩) : Leads parser [byte] [] after :=
  follow_quiet fed []

theorem Leads.append (one : Leads parser first front middle) (other : Leads middle last back after) :
    Leads parser (first ++ last) (front ++ back) after := by
  unfold Leads at *
  rw [follow_append, one, if_pos rfl, other, List.length_append]

theorem Leads.accepts (leads : Leads parser first front middle) :
    Accepts parser (first ++ last) ↔ Accepts middle last := by
  unfold Accepts Leads at *
  rw [follow_append, leads, if_pos rfl]

theorem accepts_nil : Accepts parser [] ↔ parser.state = .header1 := by
  simp [Accepts, follow]

def single : WsParser × Except Err Unit → FeedResult
  | (after, .ok ()) => ⟨after, 1, .error .again⟩
  | (after, .error error) => ⟨after, 1, .error error⟩

private theorem feedByte_header1 (state : parser.state = .header1) (byte : UInt8) :
    feedByte parser byte = single (feedHeader1 parser byte) := by
  simp only [feedByte, wsParserFeed, feedLoop, state]
  split
  next same => rw [same]; rfl
  next same => rw [same]; rfl

private theorem feedByte_header2 (state : parser.state = .header2) (byte : UInt8) :
    feedByte parser byte = single (feedHeader2 parser byte) := by
  simp only [feedByte, wsParserFeed, feedLoop, state]
  split
  next same => rw [same]; rfl
  next same => rw [same]; rfl

private theorem feedByte_extLen (state : parser.state = .extLen) (byte : UInt8) :
    feedByte parser byte = single (feedExtLen parser byte) := by
  simp only [feedByte, wsParserFeed, feedLoop, state]
  split
  next same => rw [same]; rfl
  next same => rw [same]; rfl

/-- A refused byte is the end of it. -/
theorem not_accepts (fed : feedByte parser byte = ⟨after, 1, .error .protocol⟩) : ¬ Accepts parser (byte :: rest) := by
  intro accepts
  rw [Accepts, follow_refused fed (by decide)] at accepts
  cases accepts.1

private theorem feedByte_valid (byte : UInt8) (valid : Valid parser)
    (fine : ∀ error, (feedByte parser byte).outcome = .error error → error = .again) :
    Valid (feedByte parser byte).parser := by
  apply fed_valid _ _ valid
  cases outcome : (feedByte parser byte).outcome with
  | ok msg => exact .inl ⟨msg, outcome⟩
  | error error => exact .inr (by rw [← fine error outcome]; exact outcome)

private theorem follow_valid (bytes : Bytes) (valid : Valid parser)
    (fine : (follow parser bytes).failure = none) : Valid (follow parser bytes).parser := by
  induction bytes generalizing parser with
  | nil => exact valid
  | cons byte rest ih =>
    have kept := feedByte_valid byte valid
    cases fed : feedByte parser byte with
    | mk next used outcome =>
      rw [fed] at kept
      cases outcome with
      | ok msg =>
        rw [follow_piece fed] at fine ⊢
        exact ih (kept nofun) fine
      | error error =>
        by_cases more : error = .again
        · subst more
          rw [follow_quiet fed] at fine ⊢
          exact ih (kept fun _ same => (Except.error.inj same).symm) fine
        · rw [follow_refused fed more] at fine
          cases fine

theorem Leads.valid (leads : Leads parser bytes front after) (valid : Valid parser) : Valid after := by
  have kept := follow_valid bytes valid
  rw [leads] at kept
  exact kept rfl

/-! The first header byte. -/

private theorem head_shape (byte : UInt8) (clear : byte &&& 0x70 = 0) :
    byte = headByte (decide (byte &&& 0x80 ≠ 0)) (byte &&& 0x0f).toNat := by
  have all : ∀ bits : BitVec 8, (⟨bits⟩ : UInt8) &&& 0x70 = 0 →
      (⟨bits⟩ : UInt8) = headByte (decide ((⟨bits⟩ : UInt8) &&& 0x80 ≠ 0)) ((⟨bits⟩ : UInt8) &&& 0x0f).toNat := by
        decide +kernel
  exact all byte.toBitVec clear

private theorem known_cases (known : validOpcode opcode = true) : opcode ∈ [0, 1, 2, 8, 9, 10] := by
  simpa [validOpcode, Opcode.continuation, Opcode.text,
    Opcode.binary, Opcode.close, Opcode.ping, Opcode.pong, or_assoc] using known

private theorem head_fields (known : validOpcode opcode = true) (fin : Bool) :
    headByte fin opcode &&& 0x70 = 0 ∧
    decide (headByte fin opcode &&& 0x80 ≠ 0) = fin ∧ (headByte fin opcode &&& 0x0f).toNat = opcode := by
  have all : ∀ fin, ∀ opcode ∈ [0, 1, 2, 8, 9, 10], headByte fin opcode &&& 0x70 = 0 ∧
      decide (headByte fin opcode &&& 0x80 ≠ 0) = fin ∧ (headByte fin opcode &&& 0x0f).toNat = opcode := by decide
  exact all fin opcode (known_cases known)

structure Headed (fin : Bool) (opcode fragment : Nat) (parser : WsParser) : Prop where
  valid : Valid parser
  state : parser.state = .header2
  fin : parser.fin = fin
  opcode : parser.opcode = opcode
  fragment : parser.fragmentedOpcode = fragment

private theorem header1_leads (valid : Valid parser) (state : parser.state = .header1)
    (known : validOpcode opcode = true) (fin : Bool) :
    ∃ after, Leads parser [headByte fin opcode] [] after ∧ Headed fin opcode parser.fragmentedOpcode after := by
  obtain ⟨clear, final, code⟩ := head_fields known fin
  have fed : feedHeader1 parser (headByte fin opcode) =
      ({ parser with b0 := headByte fin opcode, fin := fin, opcode := opcode, state := .header2 }, .ok ()) := by
    simp only [feedHeader1, final, code, known]
    rw [if_neg (by simp [clear])]
  have follows := feedHeader1_follows valid state fed
  exact ⟨_, .quiet (by rw [feedByte_header1 state, fed]; rfl), follows.valid, rfl, rfl, rfl, rfl⟩

private theorem header1_accepts (state : parser.state = .header1) (accepts : Accepts parser (byte :: rest)) :
    ∃ fin opcode, validOpcode opcode = true ∧ byte = headByte fin opcode := by
  by_cases refused : byte &&& 0x70 ≠ 0 ∨ !validOpcode (byte &&& 0x0f).toNat
  · obtain ⟨after, fed⟩ : ∃ after, feedByte parser byte = ⟨after, 1, .error .protocol⟩ := by
      rw [feedByte_header1 state, feedHeader1, if_pos refused]
      exact ⟨_, rfl⟩
    exact absurd accepts (not_accepts fed)
  · simp only [not_or, ne_eq, Decidable.not_not, Bool.not_eq_true', Bool.not_eq_false] at refused
    exact ⟨_, _, refused.2, head_shape byte refused.1⟩

/-! The length. -/

/-- What the parser asks of a header once its length is known. -/
def Admissible (fin : Bool) (opcode length fragment : Nat) : Prop :=
  if isControlOpcode opcode then fin = true ∧ length ≤ 125 else opcode = 0 ↔ fragment ≠ 0

private theorem validateFrameHeader_iff (parser : WsParser) : validateFrameHeader parser = .ok () ↔
    Admissible parser.fin parser.opcode parser.payloadLen parser.fragmentedOpcode := by
  unfold validateFrameHeader Admissible
  split
  · cases parser.fin <;> simp
  · simp only [Opcode.continuation]
    by_cases continued : parser.opcode = 0 <;> by_cases whole : parser.fragmentedOpcode = 0 <;> simp [continued, whole]

/-- A parser that expects the key of a frame of this length. -/
structure Expects (fin : Bool) (opcode length fragment : Nat) (parser : WsParser) : Prop where
  valid : Valid parser
  state : parser.state = .mask
  fin : parser.fin = fin
  opcode : parser.opcode = opcode
  remaining : parser.payloadRemaining = length
  keyed : parser.maskPos = 0
  fragment : parser.fragmentedOpcode = fragment

private theorem length_fields (length : Nat) (short : length ≤ 127) :
    UInt8.ofNat (128 + length) &&& 0x80 ≠ 0 ∧ (UInt8.ofNat (128 + length) &&& 0x7f).toNat = length := by
  have all : ∀ length : Fin 128, UInt8.ofNat (128 + length) &&& 0x80 ≠ 0 ∧
      (UInt8.ofNat (128 + length) &&& 0x7f).toNat = length := by
    decide +kernel
  exact all ⟨length, by omega⟩

private theorem length_shape (byte : UInt8) (masked_ : byte &&& 0x80 ≠ 0) :
    byte = UInt8.ofNat (128 + (byte &&& 0x7f).toNat) ∧ (byte &&& 0x7f).toNat ≤ 127 := by
  have all : ∀ bits : BitVec 8, (⟨bits⟩ : UInt8) &&& 0x80 ≠ 0 →
      (⟨bits⟩ : UInt8) = UInt8.ofNat (128 + ((⟨bits⟩ : UInt8) &&& 0x7f).toNat) ∧
          ((⟨bits⟩ : UInt8) &&& 0x7f).toNat ≤ 127 := by
        decide +kernel
  exact all byte.toBitVec masked_

private theorem bigEndian_append (bytes : Bytes) (byte : UInt8) :
    bigEndian (bytes ++ [byte]) = bigEndian bytes * 256 + byte.toNat := by
  simp [bigEndian]

theorem bigEndian_bigEndianBytes (count value : Nat) (fits : value < 256 ^ count) :
    bigEndian (bigEndianBytes count value) = value := by
  induction count generalizing value with
  | zero =>
    rw [Nat.pow_zero, Nat.lt_one_iff] at fits
    rw [fits]
    rfl
  | succ count ih =>
    have less : value / 256 < 256 ^ count := by
      rw [Nat.div_lt_iff_lt_mul (by decide)]
      simpa only [Nat.pow_succ] using fits
    rw [bigEndianBytes, bigEndian_append, ih _ less, UInt8.toNat_ofNat']
    omega

theorem bigEndianBytes_length (count value : Nat) : (bigEndianBytes count value).length = count := by
  induction count generalizing value with
  | zero => rfl
  | succ count ih => simp [bigEndianBytes, ih]

private theorem bigEndianBytes_bigEndian (bytes : Bytes) : bigEndianBytes bytes.length (bigEndian bytes) = bytes := by
  induction bytes using List.reverseRecOn with
  | nil => rfl
  | append_singleton front byte ih =>
    have bound := byte.toNat_lt
    have low : UInt8.ofNat (bigEndian front * 256 + byte.toNat) = byte := by
      apply UInt8.toNat_inj.mp
      rw [UInt8.toNat_ofNat']
      omega
    have high : (bigEndian front * 256 + byte.toNat) / 256 = bigEndian front := by omega
    rw [List.length_append, List.length_singleton, bigEndianBytes, bigEndian_append, high, ih, low]

theorem bigEndian_lt (bytes : Bytes) : bigEndian bytes < 256 ^ bytes.length := by
  induction bytes using List.reverseRecOn with
  | nil => simp [bigEndian]
  | append_singleton front byte ih =>
    have bound := byte.toNat_lt
    rw [bigEndian_append, List.length_append, List.length_singleton, Nat.pow_succ]
    omega

def gathered (parser : WsParser) (part : Bytes) : WsParser :=
  { parser with extLenBytes := part ++ parser.extLenBytes.drop part.length, extLenPos := part.length }

private theorem gathered_nil (start : parser.extLenPos = 0) : gathered parser [] = parser := by
  obtain ⟨_, _, _, _, _, _, _, _, _, _, _, _, _, _, _⟩ := parser
  simpa [gathered] using start.symm

private theorem gathered_concat (part : Bytes) (byte : UInt8) (inside : part.length < parser.extLenBytes.length) :
    { gathered parser part with
      extLenBytes := (gathered parser part).extLenBytes.set (gathered parser part).extLenPos byte
      extLenPos := (gathered parser part).extLenPos + 1 } = gathered parser (part ++ [byte]) := by
  simp only [gathered, List.length_append, List.length_singleton, WsParser.mk.injEq, true_and, and_true]
  rw [List.set_append_right _ _ (Nat.le_refl _),
    Nat.sub_self, List.drop_eq_getElem_cons inside, List.set_cons_zero, List.append_assoc]
  rfl

private theorem feedExtLen_gathered (part : Bytes) (byte : UInt8) (inside : part.length < parser.extLenBytes.length) :
    feedExtLen (gathered parser part) byte =
      if (part ++ [byte]).length = parser.extLenNeeded then
        match finishLength (gathered parser (part ++ [byte])) with
        | (after, .error error) => (after, .error error)
        | (after, .ok ()) => ({ after with state := .mask }, .ok ())
      else (gathered parser (part ++ [byte]), .ok ()) := by
  have moved := gathered_concat part byte inside
  simp only [feedExtLen, moved]
  rw [List.length_append, List.length_singleton]
  rfl

/-- The bytes of an extended length but the last. -/
theorem extension_leads (state : parser.state = .extLen) (start : parser.extLenPos = 0) (part : Bytes)
    (short : part.length < parser.extLenNeeded) (few : parser.extLenNeeded ≤ parser.extLenBytes.length) :
    Leads parser part [] (gathered parser part) := by
  induction part using List.reverseRecOn with
  | nil =>
    rw [gathered_nil start]
    exact .nil parser
  | append_singleton front byte ih =>
    have less : front.length < parser.extLenNeeded := by
      rw [List.length_append, List.length_singleton] at short
      omega
    have here : (gathered parser front).state = .extLen := state
    have step : Leads (gathered parser front) [byte] [] (gathered parser (front ++ [byte])) := by
      apply Leads.quiet
      rw [feedByte_extLen here, feedExtLen_gathered front byte (by omega), if_neg (by omega)]
      rfl
    exact (ih less).append step

/-- The last byte of an extended length. -/
theorem extension_last (state : parser.state = .extLen) (part : Bytes) (byte : UInt8)
    (whole : (part ++ [byte]).length = parser.extLenNeeded) (few : parser.extLenNeeded ≤ parser.extLenBytes.length) :
    feedByte (gathered parser part) byte = single
      (match finishLength (gathered parser (part ++ [byte])) with
        | (after, .error error) => (after, .error error)
        | (after, .ok ()) => ({ after with state := .mask }, .ok ())) := by
  have here : (gathered parser part).state = .extLen := state
  have less : part.length < parser.extLenNeeded := by
    rw [List.length_append, List.length_singleton] at whole
    omega
  rw [feedByte_extLen here, feedExtLen_gathered part byte (by omega), if_pos whole]

/-- The least length that each form of an extended length may carry. -/
def least (needed : Nat) : Nat := if needed = 2 then 126 else 65536

def sized (parser : WsParser) (extension : Bytes) : WsParser :=
  { gathered parser extension with payloadLen := bigEndian extension, payloadRemaining := bigEndian extension }

private theorem top_bit (byte : UInt8) : byte &&& 0x80 = 0 ↔ byte.toNat < 128 := by
  have all : ∀ bits : BitVec 8, (⟨bits⟩ : UInt8) &&& 0x80 = 0 ↔ (⟨bits⟩ : UInt8).toNat < 128 := by decide +kernel
  exact all byte.toBitVec

private theorem bigEndian_cons (byte : UInt8) (rest : Bytes) :
    bigEndian (byte :: rest) = byte.toNat * 256 ^ rest.length + bigEndian rest := by
  induction rest using List.reverseRecOn with
  | nil => simp [bigEndian]
  | append_singleton front last ih =>
    rw [← List.cons_append, bigEndian_append, bigEndian_append,
      ih, List.length_append, List.length_singleton, Nat.pow_succ, ← Nat.mul_assoc,
      Nat.add_mul, Nat.add_assoc]

theorem top_bit_set {extension : Bytes} (whole : extension.length = 8) :
    extension.getD 0 0 &&& 0x80 ≠ 0 ↔ 2 ^ 63 ≤ bigEndian extension := by
  cases extension with
  | nil => cases whole
  | cons first rest =>
    have seven : rest.length = 7 := Nat.succ.inj whole
    have low := bigEndian_lt rest
    rw [seven] at low
    rw [List.getD_cons_zero, ne_eq, top_bit, bigEndian_cons, seven]
    omega

private theorem finishLength_gathered {extension : Bytes} (storage : parser.extLenBytes.length = 8)
    (form : parser.extLenNeeded = 2 ∨ parser.extLenNeeded = 8) (whole : extension.length = parser.extLenNeeded) :
    finishLength (gathered parser extension) =
      if bigEndian extension < least parser.extLenNeeded ∨ 2 ^ 63 ≤ bigEndian extension then
        ({ gathered parser extension with payloadLen := bigEndian extension }, .error .protocol)
      else (sized parser extension, validateFrameHeader (sized parser extension)) := by
  have needed : (gathered parser extension).extLenNeeded = parser.extLenNeeded := rfl
  rcases form with two | eight
  · rw [two] at whole
    have small := bigEndian_lt extension
    rw [whole] at small
    have value : readBe16 (gathered parser extension).extLenBytes = bigEndian extension := readBe16_pair _ whole
    have floor : least parser.extLenNeeded = 126 := by rw [two]; rfl
    rw [finishLength, if_pos (needed.trans two), floor]
    simp only [value]
    by_cases short : bigEndian extension < 126
    · rw [if_pos short, if_pos (.inl short)]
    · rw [if_neg short, if_neg (by omega)]
      rfl
  · have floor : least parser.extLenNeeded = 65536 := by rw [eight]; rfl
    have notTwo : (gathered parser extension).extLenNeeded ≠ 2 := by rw [needed, eight]; decide
    rw [eight] at whole
    have stored : (gathered parser extension).extLenBytes = extension := by
      simp only [gathered, whole]
      rw [List.drop_of_length_le (by omega), List.append_nil]
    have value : readBe64 (gathered parser extension).extLenBytes = bigEndian extension := by
      rw [stored]
      exact readBe64_octet whole
    have top : (gathered parser extension).extLenBytes.getD 0 0 &&& 0x80 ≠ 0 ↔ 2 ^ 63 ≤ bigEndian extension := by
      rw [stored]
      exact top_bit_set whole
    rw [finishLength, if_neg notTwo, if_pos (needed.trans eight), floor]
    simp only [value, top]
    by_cases wrong : bigEndian extension < 65536 ∨ 2 ^ 63 ≤ bigEndian extension
    · rw [if_pos wrong, if_pos wrong]
    · rw [if_neg wrong, if_neg wrong]
      rfl

structure Extends (fin : Bool) (opcode needed fragment : Nat) (parser : WsParser) : Prop where
  valid : Valid parser
  state : parser.state = .extLen
  start : parser.extLenPos = 0
  form : needed = 2 ∨ needed = 8
  needed : parser.extLenNeeded = needed
  fin : parser.fin = fin
  opcode : parser.opcode = opcode
  fragment : parser.fragmentedOpcode = fragment

private theorem concat_of_length {bytes : Bytes} {count : Nat} (size : bytes.length = count) (positive : 0 < count) :
    ∃ front last, bytes = front ++ [last] ∧ front.length < count := by
  rcases List.eq_nil_or_concat bytes with rfl | ⟨front, last, rfl⟩
  · simp at size
    omega
  · exact ⟨front, last, by simp, by simp at size; omega⟩

private theorem extension_enters {needed : Nat} {extension : Bytes} (here : Extends fin opcode needed fragment parser)
    (whole : extension.length = needed) (low : least needed ≤ bigEndian extension) (high : bigEndian extension < 2 ^ 63)
    (admissible : Admissible fin opcode (bigEndian extension) fragment) :
    ∃ after, Leads parser extension [] after ∧ Expects fin opcode (bigEndian extension) fragment after := by
  obtain ⟨valid, state, start, form, rfl, rfl, rfl, rfl⟩ := here
  have storage := valid.extension
  have phase := valid.phase
  simp only [Phase, state] at phase
  obtain ⟨-, -, -, keyed, -⟩ := phase
  have let_ : validateFrameHeader (sized parser extension) = .ok () := (validateFrameHeader_iff _).mpr admissible
  have finished : finishLength (gathered parser extension) = (sized parser extension, .ok ()) := by
    rw [finishLength_gathered storage form whole, if_neg (by omega), let_]
  obtain ⟨front, last, shape, short⟩ := concat_of_length whole (by omega)
  have leads := extension_leads state start front short (by omega)
  have final := extension_last state front last (shape ▸ whole) (by omega)
  rw [← shape, finished] at final
  have step : Leads (gathered parser front) [last] [] { sized parser extension with state := .mask } := .quiet final
  have all : Leads parser extension [] { sized parser extension with state := .mask } := by
    rw [shape] at step ⊢
    exact leads.append step
  exact ⟨_, all, all.valid valid, rfl, rfl, rfl, rfl, keyed, rfl⟩

private theorem extension_accepts {needed : Nat} (here : Extends fin opcode needed fragment parser)
    (accepts : Accepts parser bytes) :
    ∃ extension rest, bytes = extension ++ rest ∧ extension.length = needed ∧ least needed ≤ bigEndian extension ∧
      bigEndian extension < 2 ^ 63 ∧ Admissible fin opcode (bigEndian extension) fragment := by
  obtain ⟨valid, state, start, form, rfl, rfl, rfl, rfl⟩ := here
  have storage := valid.extension
  by_cases enough : parser.extLenNeeded ≤ bytes.length
  · have whole : (bytes.take parser.extLenNeeded).length = parser.extLenNeeded := by
      rw [List.length_take]
      omega
    have split : bytes = bytes.take parser.extLenNeeded ++ bytes.drop parser.extLenNeeded :=
      (List.take_append_drop _ _).symm
    generalize bytes.take parser.extLenNeeded = extension at *
    obtain ⟨front, last, shape, short⟩ := concat_of_length whole (by omega)
    have final := extension_last state front last (shape ▸ whole) (by omega)
    rw [← shape, finishLength_gathered storage form whole] at final
    rw [split, shape, List.append_assoc, (extension_leads state start front short (by omega)).accepts] at accepts
    by_cases wrong : bigEndian extension < least parser.extLenNeeded ∨ 2 ^ 63 ≤ bigEndian extension
    · rw [if_pos wrong] at final
      exact absurd accepts (not_accepts final)
    · rw [if_neg wrong] at final
      cases checked : validateFrameHeader (sized parser extension) with
      | ok => exact ⟨extension, _, split, whole, by omega, by omega, (validateFrameHeader_iff _).mp checked⟩
      | error error =>
        rw [checked, validateFrameHeader_error checked] at final
        exact absurd accepts (not_accepts final)
  · have leads := extension_leads state start bytes (by omega) (by omega)
    have rest : Accepts (gathered parser bytes) [] := leads.accepts.mp (by rwa [List.append_nil])
    exact absurd ((accepts_nil.mp rest).symm.trans state) nofun

/-! The second header byte. -/

/-- The second byte of a frame whose length follows. -/
def formByte (needed : Nat) : UInt8 := UInt8.ofNat (128 + if needed = 2 then 126 else 127)

private theorem header2_extends (here : Headed fin opcode fragment parser) (needed : Nat)
    (form : needed = 2 ∨ needed = 8) :
    ∃ after, Leads parser [formByte needed] [] after ∧ Extends fin opcode needed fragment after := by
  obtain ⟨valid, state, rfl, rfl, rfl⟩ := here
  have fields : formByte needed &&& 0x80 ≠ 0 ∧ (formByte needed &&& 0x7f).toNat = if needed = 2 then 126 else 127 := by
    unfold formByte
    exact length_fields _ (by split <;> omega)
  obtain ⟨flag, value⟩ := fields
  generalize formByte needed = byte at *
  have fed : feedHeader2 parser byte = ({ parser with
      b1 := byte, masked := true, payloadLen :=
        if needed = 2 then 126 else 127, extLenNeeded := needed, extLenPos := 0, state := .extLen },
      .ok ()) := by
    rcases form with rfl | rfl <;> simp [feedHeader2, flag, value]
  exact ⟨_, .quiet (by rw [feedByte_header2 state, fed]; rfl),
    (feedHeader2_follows valid state fed).valid, rfl, rfl, form, rfl, rfl, rfl, rfl⟩

private theorem header2_expects (here : Headed fin opcode fragment parser) (short : length ≤ 125)
    (admissible : Admissible fin opcode length fragment) :
    ∃ after, Leads parser [UInt8.ofNat (128 + length)] [] after ∧ Expects fin opcode length fragment after := by
  obtain ⟨valid, state, rfl, rfl, rfl⟩ := here
  have phase := valid.phase
  simp only [Phase, state] at phase
  obtain ⟨-, -, keyed, -⟩ := phase
  obtain ⟨flag, value⟩ := length_fields length (by omega)
  generalize UInt8.ofNat (128 + length) = byte at *
  have let_ : validateFrameHeader
      { parser with b1 := byte, masked := true, payloadLen := length, payloadRemaining := length } = .ok () :=
    (validateFrameHeader_iff _).mpr admissible
  have fed : feedHeader2 parser byte = ({ parser with
      b1 := byte, masked := true, payloadLen := length, payloadRemaining := length, state := .mask }, .ok ()) := by
    simp [feedHeader2, flag, value, let_, show length ≠ 126 by omega, show length ≠ 127 by omega]
  exact ⟨_, .quiet (by rw [feedByte_header2 state, fed]; rfl),
    (feedHeader2_follows valid state fed).valid, rfl, rfl, rfl, rfl, keyed, rfl⟩

private theorem header2_accepts (here : Headed fin opcode fragment parser) (accepts : Accepts parser (byte :: rest)) :
    (∃ length, byte = UInt8.ofNat (128 + length) ∧ length ≤ 125 ∧ Admissible fin opcode length fragment) ∨
    ∃ needed, (needed = 2 ∨ needed = 8) ∧ byte = formByte needed := by
  obtain ⟨valid, state, rfl, rfl, rfl⟩ := here
  by_cases flag : byte &&& 0x80 = 0
  · have fed : ∃ after, feedByte parser byte = ⟨after, 1, .error .protocol⟩ := by
      rw [feedByte_header2 state, feedHeader2, if_pos (by simp [flag])]
      exact ⟨_, rfl⟩
    obtain ⟨after, fed⟩ := fed
    exact absurd accepts (not_accepts fed)
  · obtain ⟨shape, bound⟩ := length_shape byte flag
    generalize value : (byte &&& 0x7f).toNat = length at *
    by_cases short : length ≤ 125
    · cases checked : validateFrameHeader
          { parser with b1 := byte, masked := true, payloadLen := length, payloadRemaining := length } with
      | ok => exact .inl ⟨length, shape, short, (validateFrameHeader_iff _).mp checked⟩
      | error error =>
        cases validateFrameHeader_error checked
        obtain ⟨after, fed⟩ : ∃ after, feedByte parser byte = ⟨after, 1, .error .protocol⟩ := by
          rw [feedByte_header2 state]
          simp [feedHeader2, flag, value, checked, show length ≠ 126 by omega, show length ≠ 127 by omega, single]
        exact absurd accepts (not_accepts fed)
    · right
      by_cases two : length = 126
      · exact ⟨2, .inl rfl, by rw [shape, two]; rfl⟩
      · exact ⟨8, .inr rfl, by rw [shape, show length = 127 by omega]; rfl⟩

/-- The form that a length is written in. -/
theorem lengthField_form {needed : Nat} (form : needed = 2 ∨ needed = 8) (low : least needed ≤ length)
    (high : length < 256 ^ needed) (most : needed = 2 → length ≤ 65535) :
    lengthField true length = formByte needed :: bigEndianBytes needed length := by
  rcases form with rfl | rfl
  · have low : 126 ≤ length := low
    rw [lengthField, if_neg (by omega), if_pos (most rfl)]
    rfl
  · have low : 65536 ≤ length := low
    rw [lengthField, if_neg (by omega), if_neg (by omega)]
    rfl

/-- Any admissible length of a header is accepted in its minimal form. -/
theorem length_leads (here : Headed fin opcode fragment parser) (high : length < 2 ^ 63)
    (admissible : Admissible fin opcode length fragment) :
    ∃ after, Leads parser (lengthField true length) [] after ∧ Expects fin opcode length fragment after := by
  by_cases short : length ≤ 125
  · rw [lengthField, if_pos short]
    exact header2_expects here short admissible
  · obtain ⟨needed, form, low, bound, most⟩ : ∃ needed, (needed = 2 ∨ needed = 8) ∧
          least needed ≤ length ∧ length < 256 ^ needed ∧
        (needed = 2 → length ≤ 65535) := by
      by_cases medium : length ≤ 65535
      · exact ⟨2, .inl rfl, show 126 ≤ length by omega, by omega, fun _ => medium⟩
      · exact ⟨8, .inr rfl, show 65536 ≤ length by omega, by omega, nofun⟩
    obtain ⟨middle, first, extends_⟩ := header2_extends here needed form
    have value : bigEndian (bigEndianBytes needed length) = length := bigEndian_bigEndianBytes _ _ bound
    obtain ⟨after, second, expects⟩ :=
      extension_enters extends_ (bigEndianBytes_length needed length) (by rw [value]; exact low)
        (by rw [value]; exact high) (by rw [value]; exact admissible)
    rw [value] at expects
    rw [lengthField_form form low bound most]
    exact ⟨after, first.append second, expects⟩

/-- Only a minimal length is accepted. -/
theorem length_accepts (here : Headed fin opcode fragment parser) (accepts : Accepts parser bytes) :
    ∃ length rest, bytes = lengthField true length ++ rest ∧ length < 2 ^ 63 ∧
    Admissible fin opcode length fragment := by
  cases bytes with
  | nil => exact absurd ((accepts_nil.mp accepts).symm.trans here.state) nofun
  | cons byte rest =>
    rcases header2_accepts here accepts with ⟨length, rfl, short, admissible⟩ | ⟨needed, form, rfl⟩
    · refine ⟨length, rest, ?_, by omega, admissible⟩
      rw [lengthField, if_pos short]
      rfl
    · obtain ⟨middle, first, extends_⟩ := header2_extends here needed form
      obtain ⟨extension, rest, rfl, whole, low, high, admissible⟩ :=
        extension_accepts extends_ (first.accepts.mp accepts)
      have bound := bigEndian_lt extension
      rw [whole] at bound
      refine ⟨bigEndian extension, rest, ?_, high, admissible⟩
      rw [lengthField_form form low bound (by rintro rfl; omega), ← whole, bigEndianBytes_bigEndian]
      rfl

/-! The masking key. -/

def keyed (parser : WsParser) (part : Bytes) : WsParser :=
  { parser with mask := part ++ parser.mask.drop part.length, maskPos := part.length }

private theorem keyed_nil (start : parser.maskPos = 0) : keyed parser [] = parser := by
  obtain ⟨_, _, _, _, _, _, _, _, _, _, _, _, _, _, _⟩ := parser
  simpa [keyed] using start.symm

private theorem feedMask_keyed (part : Bytes) (byte : UInt8) (inside : part.length < parser.mask.length) :
    feedMask (keyed parser part) byte =
      if (part ++ [byte]).length = 4 then { keyed parser (part ++ [byte]) with state := .payload } else keyed parser
      (part ++ [byte]) := by
  have moved : { keyed parser part with mask := (keyed parser part).mask.set (keyed parser part).maskPos byte
                                        maskPos := (keyed parser part).maskPos + 1 } =
                                            keyed parser (part ++ [byte]) := by
    simp only [keyed, List.length_append, List.length_singleton, WsParser.mk.injEq, true_and, and_true]
    rw [List.set_append_right _ _ (Nat.le_refl _),
      Nat.sub_self, List.drop_eq_getElem_cons inside, List.set_cons_zero, List.append_assoc]
    rfl
  unfold feedMask
  rw [moved]
  rfl

/-- The bytes of a key but the last. -/
theorem key_part_leads (state : parser.state = .mask) (start : parser.maskPos = 0)
    (size : parser.mask.length = 4) (part : Bytes) (short : part.length < 4) :
    Leads parser part [] (keyed parser part) := by
  induction part using List.reverseRecOn with
  | nil =>
    rw [keyed_nil start]
    exact .nil parser
  | append_singleton front byte ih =>
    have less : front.length < 4 := by
      rw [List.length_append, List.length_singleton] at short
      omega
    have here : (keyed parser front).state = .mask := state
    have fed : feedMask (keyed parser front) byte = keyed parser (front ++ [byte]) := by
      rw [feedMask_keyed front byte (by omega), if_neg (by omega)]
    have step : Leads (keyed parser front) [byte] [] (keyed parser (front ++ [byte])) := by
      apply Leads.quiet
      have still : (keyed parser (front ++ [byte])).state ≠ .payload :=
        fun impossible => nomatch state.symm.trans impossible
      simp [feedByte, wsParserFeed, feedLoop, here, fed, still]
    exact (ih less).append step

structure Rests (fragment : Bool) (parser : WsParser) : Prop where
  valid : Valid parser
  state : parser.state = .header1
  fragment : decide (parser.fragmentedOpcode ≠ 0) = fragment

/-- Whether a message is unfinished behind a frame that has been let in. -/
def behind (fin : Bool) (opcode fragment : Nat) : Bool := if isControlOpcode opcode then decide (fragment ≠ 0) else !fin

private theorem clearFrame_rests (extension : parser.extLenBytes.length = 8)
    (key : parser.mask.length = 4) (fragment : Nat) :
    Rests (decide (fragment ≠ 0)) (clearFrame { parser with fragmentedOpcode := fragment }) :=
  ⟨clearFrame_valid extension key, rfl, rfl⟩

theorem resetFrame_rests (extension : parser.extLenBytes.length = 8) (key : parser.mask.length = 4)
    (known : validOpcode parser.opcode = true)
    (let_ : validateFrameHeader parser = .ok ()) :
    ∃ after, resetFrame parser = .ok after ∧ Rests (behind parser.fin parser.opcode parser.fragmentedOpcode) after := by
  have admissible := (validateFrameHeader_iff parser).mp let_
  have known := known_cases known
  have cleared := clearFrame_rests extension key
  have still : Rests (decide (parser.fragmentedOpcode ≠ 0)) (clearFrame parser) := cleared parser.fragmentedOpcode
  unfold Admissible at admissible
  unfold resetFrame behind
  by_cases control : isControlOpcode parser.opcode = true
  · have high : 8 ≤ parser.opcode := by simpa [isControlOpcode] using control
    rw [if_neg (by simp only [Opcode.text, Opcode.binary]; omega),
      if_neg (by simp only [Opcode.continuation]; omega), if_pos control]
    exact ⟨_, rfl, still⟩
  · rw [if_neg control] at admissible ⊢
    by_cases continued : parser.opcode = 0
    · have fragmented := admissible.mp continued
      rw [if_neg (by simp [continued, Opcode.text, Opcode.binary]),
        if_pos (show parser.opcode = Opcode.continuation from continued), if_neg fragmented]
      cases parser.fin with
      | true => exact ⟨_, rfl, cleared 0⟩
      | false => exact ⟨_, rfl, by simpa [fragmented] using still⟩
    · have whole : parser.fragmentedOpcode = 0 := by simpa using (not_congr admissible).mp continued
      have first : parser.opcode = 1 ∨ parser.opcode = 2 := by
        simp only [List.mem_cons, List.not_mem_nil, or_false] at known
        simp only [isControlOpcode, decide_eq_true_eq] at control
        omega
      rw [if_pos (show parser.opcode = Opcode.text ∨ parser.opcode = Opcode.binary from first)]
      cases parser.fin with
      | true => exact ⟨_, rfl, by simpa [whole] using still⟩
      | false =>
        have opened := cleared parser.opcode
        rw [decide_eq_true continued] at opened
        rw [if_pos (show (!false) = true from rfl), if_neg (by simp [whole])]
        exact ⟨_, rfl, opened⟩

structure Carries (fin : Bool) (opcode : Nat) (key : Bytes) (length fragment : Nat) (parser : WsParser) : Prop where
  valid : Valid parser
  state : parser.state = .payload
  fin : parser.fin = fin
  opcode : parser.opcode = opcode
  key : parser.mask = key
  offset : parser.payloadOffset = 0
  remaining : parser.payloadRemaining = length
  fragment : parser.fragmentedOpcode = fragment

/-- The last byte of a key. -/
theorem key_leads {key : Bytes} (here : Expects fin opcode length fragment parser)
    (whole : key.length = 4) :
    if length = 0 then ∃ after, Leads parser key [⟨fin, opcode, [], true⟩] after ∧
    Rests (behind fin opcode fragment) after
    else ∃ after, Leads parser key [] after ∧ Carries fin opcode key length fragment after := by
  obtain ⟨valid, state, rfl, rfl, rfl, start, rfl⟩ := here
  have size := valid.key
  have phase := valid.phase
  simp only [Phase, state] at phase
  obtain ⟨admitted, remaining, -, offset⟩ := phase
  obtain ⟨front, last, rfl, short⟩ := concat_of_length whole (by decide)
  have leads := key_part_leads state start size front short
  have here : (keyed parser front).state = .mask := state
  have fed : feedMask (keyed parser front) last = { keyed parser (front ++ [last]) with state := .payload } := by
    rw [feedMask_keyed front last (by omega), if_pos whole]
  have mask : (keyed parser (front ++ [last])).mask = front ++ [last] := by
    simp only [keyed, whole]
    rw [List.drop_of_length_le (by omega), List.append_nil]
  split
  next empty =>
    obtain ⟨after, reset, rests⟩ := resetFrame_rests
      (show ({ keyed parser (front ++ [last]) with state := .payload } : WsParser).extLenBytes.length =
        8 from valid.extension)
      ((congrArg List.length mask).trans whole) admitted.known admitted.header
    have last_ : feedByte (keyed parser front) last = ⟨after, 1, .ok ⟨parser.fin, parser.opcode, [], true⟩⟩ := by
      have none : parser.payloadRemaining = 0 := empty
      simp only [feedByte, wsParserFeed, feedLoop, here, fed, emitEmptyFrame, reset]
      rw [if_pos ⟨trivial, none⟩]
      rfl
    have step : Leads (keyed parser front) [last] [⟨parser.fin, parser.opcode, [], true⟩] after := follow_piece last_ []
    exact ⟨after, leads.append step, rests⟩
  next some_ =>
    have step : Leads (keyed parser front) [last] [] { keyed parser (front ++ [last]) with state := .payload } := by
      apply Leads.quiet
      have more : parser.payloadRemaining ≠ 0 := some_
      simp only [feedByte, wsParserFeed, feedLoop, here, fed]
      rw [if_neg fun both => more both.2]
    have all := leads.append step
    exact ⟨_, all, all.valid valid, rfl, rfl, rfl, mask, offset, rfl, rfl⟩

private theorem key_accepts (here : Expects fin opcode length fragment parser) (accepts : Accepts parser bytes) :
    ∃ key rest, bytes = key ++ rest ∧ key.length = 4 := by
  by_cases enough : 4 ≤ bytes.length
  · exact ⟨bytes.take 4, bytes.drop 4, (List.take_append_drop _ _).symm, by rw [List.length_take]; omega⟩
  · have leads := key_part_leads here.state here.keyed here.valid.key bytes (by omega)
    have rest : Accepts (keyed parser bytes) [] := leads.accepts.mp (by rwa [List.append_nil])
    exact absurd ((accepts_nil.mp rest).symm.trans here.state) nofun

/-! The payload. -/

private theorem unmask_eq (key : Bytes) (offset : Nat) (bytes : Bytes) :
    unmask key offset bytes = bytes.mapIdx fun index byte => byte ^^^ key.getD ((offset + index) % 4) 0 := by
  induction bytes generalizing offset with
  | nil => rfl
  | cons byte rest ih =>
    have phase : offset &&& 3 = offset % 4 := Nat.and_two_pow_sub_one_eq_mod offset 2
    rw [unmask, ih, List.mapIdx_cons, phase]
    simp only [Nat.add_assoc, Nat.add_comm 1]
    rfl

@[simp] theorem masked_length (key payload : Bytes) : (masked key payload).length = payload.length := by simp [masked]

theorem unmask_masked (key payload : Bytes) : unmask key 0 (masked key payload) = payload := by
  rw [unmask_eq, masked, List.mapIdx_mapIdx]
  apply List.ext_getElem
  · simp
  · intro index _ _
    simp only [List.getElem_mapIdx, Function.comp_apply, Nat.zero_add, UInt8.xor_assoc, UInt8.xor_self, UInt8.xor_zero]

private theorem masked_unmask (key bytes : Bytes) : masked key (unmask key 0 bytes) = bytes := by
  rw [unmask_eq, masked, List.mapIdx_mapIdx]
  apply List.ext_getElem
  · simp
  · intro index _ _
    simp only [List.getElem_mapIdx, Function.comp_apply, Nat.zero_add, UInt8.xor_assoc, UInt8.xor_self, UInt8.xor_zero]

private theorem payload_leads {key bytes : Bytes} (here : Carries fin opcode key length fragment parser)
    (whole : bytes.length = length) (some_ : length ≠ 0) :
    ∃ after pieces, Leads parser bytes pieces after ∧ Pieces ⟨fin, opcode, unmask key 0 bytes, true⟩ pieces ∧
      Rests (behind fin opcode fragment) after := by
  obtain ⟨valid, state, rfl, rfl, rfl, offset, remaining, rfl⟩ := here
  have phase := valid.phase
  simp only [Phase, state] at phase
  obtain ⟨admitted, -, -⟩ := phase
  have ended : parser.payloadRemaining - bytes.length = 0 := by omega
  obtain ⟨after, reset, rests⟩ :=
    resetFrame_rests (show (paidOut parser bytes).extLenBytes.length = 8 from valid.extension)
      valid.key admitted.known admitted.header
  have paid : Paid parser bytes after := by rw [Paid, if_pos ended]; exact reset
  obtain ⟨pieces, followed, made⟩ :=
    follow_part valid state (control_short valid state) (by rintro rfl; exact some_ whole.symm)
      (by omega) paid
  have same : pieceOf parser bytes = ⟨parser.fin, parser.opcode, unmask parser.mask 0 bytes, true⟩ := by
    simp only [pieceOf, prepareMessage, offset, ended, decide_true]
  exact ⟨after, pieces, followed, same ▸ made, rests⟩

private theorem payload_accepts {key : Bytes} (here : Carries fin opcode key length fragment parser)
    (accepts : Accepts parser bytes) :
    length ≤ bytes.length := by
  by_contra short
  have left : bytes.length < parser.payloadRemaining := by rw [here.remaining]; omega
  have some_ : bytes ≠ [] := by
    rintro rfl
    exact absurd ((accepts_nil.mp accepts).symm.trans here.state) nofun
  have paid : Paid parser bytes (paidOut parser bytes) := by rw [Paid, if_neg (by omega)]
  obtain ⟨pieces, followed, -⟩ :=
    follow_part here.valid here.state (control_short here.valid here.state) some_ (by omega) paid
  rw [Accepts, followed] at accepts
  exact absurd (accepts.2.symm.trans here.state) nofun

/-! Whole frames, one behind the other. -/

def message (frame : ClientFrame) : WsMessage := ⟨frame.fin, frame.opcode, frame.payload, true⟩

private theorem known_of_mem (member : opcode ∈ [0, 1, 2, 8, 9, 10]) : validOpcode opcode = true := by
  have all : ∀ opcode ∈ [0, 1, 2, 8, 9, 10], validOpcode opcode = true := by decide
  exact all opcode member

/-- The grammar asks of a frame what the parser asks of its header. -/
theorem admissible_iff (frame : ClientFrame) : Admissible frame.fin frame.opcode frame.payload.length fragment ↔
    (frame.isControl → frame.fin = true ∧ frame.payload.length ≤ 125) ∧ frame.Continues (decide (fragment ≠ 0)) := by
  simp only [Admissible, isControlOpcode, ClientFrame.Continues, ClientFrame.isControl, decide_eq_true_eq]
  by_cases control : 8 ≤ frame.opcode <;> simp [control]

private theorem behind_leaves (frame : ClientFrame) :
    behind frame.fin frame.opcode fragment = frame.leaves (decide (fragment ≠ 0)) := by
  by_cases control : 8 ≤ frame.opcode <;>
    simp [behind, ClientFrame.leaves, ClientFrame.isControl, isControlOpcode, control]

private theorem frame_leads {frame : ClientFrame} {unfinished : Bool} (here : Rests unfinished parser)
    (formed : frame.WellFormed) (continues : frame.Continues unfinished) :
    ∃ after pieces, Leads parser frame.encode pieces after ∧ Pieces (message frame) pieces ∧
      Rests (frame.leaves unfinished) after := by
  obtain ⟨valid, state, rfl⟩ := here
  have admissible := (admissible_iff frame).mpr ⟨formed.control, continues⟩
  obtain ⟨headed, head, atLength⟩ := header1_leads valid state (known_of_mem formed.opcode) frame.fin
  obtain ⟨expecting, size, atKey⟩ := length_leads atLength formed.length admissible
  have key := key_leads atKey formed.key
  rw [← behind_leaves]
  split at key
  next empty =>
    obtain ⟨after, key, rests⟩ := key
    have none : frame.payload = [] := List.length_eq_zero_iff.mp empty
    have layout : frame.encode = [headByte frame.fin frame.opcode] ++
        (lengthField true frame.payload.length ++ frame.key) := by
      simp [ClientFrame.encode, masked, none]
    have only : message frame = ⟨frame.fin, frame.opcode, [], true⟩ := by rw [message, none]
    refine ⟨after, [message frame], ?_, .one _, rests⟩
    rw [layout, only]
    exact head.append (size.append key)
  next some_ =>
    obtain ⟨carrying, key, atPayload⟩ := key
    obtain ⟨after, pieces, payload, made, rests⟩ :=
      payload_leads atPayload (masked_length frame.key frame.payload) some_
    rw [unmask_masked] at made
    have layout : frame.encode = [headByte frame.fin frame.opcode] ++
        (lengthField true frame.payload.length ++ (frame.key ++
        masked frame.key frame.payload)) := by simp [ClientFrame.encode]
    refine ⟨after, pieces, ?_, made, rests⟩
    rw [layout]
    exact head.append (size.append (key.append payload))

private theorem frame_accepts {unfinished : Bool} (here : Rests unfinished parser) (some_ : bytes ≠ [])
    (accepts : Accepts parser bytes) :
    ∃ frame : ClientFrame, ∃ rest, bytes = frame.encode ++ rest ∧ frame.WellFormed ∧ frame.Continues unfinished := by
  obtain ⟨valid, state, rfl⟩ := here
  cases bytes with
  | nil => exact absurd rfl some_
  | cons byte rest =>
    obtain ⟨fin, opcode, known, rfl⟩ := header1_accepts state accepts
    obtain ⟨headed, head, atLength⟩ := header1_leads valid state known fin
    have accepts := head.accepts.mp accepts
    obtain ⟨length, rest, rfl, high, admissible⟩ := length_accepts atLength accepts
    obtain ⟨expecting, size, atKey⟩ := length_leads atLength high admissible
    have accepts := size.accepts.mp accepts
    obtain ⟨key, rest, rfl, whole⟩ := key_accepts atKey accepts
    have enough : length ≤ rest.length := by
      have keyed := key_leads atKey whole
      split at keyed
      · omega
      · obtain ⟨carrying, key, atPayload⟩ := keyed
        exact payload_accepts atPayload (key.accepts.mp accepts)
    have count : (unmask key 0 (rest.take length)).length = length := by
      rw [unmask_length, List.length_take]
      omega
    obtain ⟨control, continues⟩ :=
      (admissible_iff ⟨fin, opcode, key, unmask key 0 (rest.take length)⟩).mp (by rw [count]; exact admissible)
    refine ⟨⟨fin, opcode, key, unmask key 0 (rest.take length)⟩,
      rest.drop length, ?_, ⟨known_cases known, whole, ?_, control⟩, continues⟩
    · simp [ClientFrame.encode, count, masked_unmask]
    · rw [count]
      exact high

private theorem sequence_leads {frames : List ClientFrame} {unfinished : Bool}
    (here : Rests unfinished parser) (sequence : ClientFrame.Sequence unfinished frames) :
    ∃ after messages, Leads parser (frames.flatMap ClientFrame.encode) messages after ∧
      assemble messages = frames.map message ∧
      after.state = .header1 ∧ ∀ msg ∈ messages, ∃ frame ∈ frames, msg.opcode = frame.opcode := by
  induction frames generalizing parser unfinished with
  | nil => exact ⟨parser, [], .nil parser, rfl, here.state, by simp⟩
  | cons frame rest ih =>
    obtain ⟨formed, continues, later⟩ := sequence
    obtain ⟨middle, pieces, first, made, rests⟩ := frame_leads here formed continues
    obtain ⟨after, messages, second, whole, state, opcodes⟩ := ih rests later
    refine ⟨after, pieces ++ messages, first.append second, ?_, state, fun msg member => ?_⟩
    · rw [assemble_pieces made, assemble, whole, List.map_cons]
      cases rest with
      | nil => rfl
      | cons next rest => simp [join, message]
    · rcases List.mem_append.mp member with piece | other
      · exact ⟨frame, List.mem_cons_self, pieces_opcode made msg piece⟩
      · obtain ⟨source, among, same⟩ := opcodes msg other
        exact ⟨source, List.mem_cons_of_mem _ among, same⟩

/-- Frames of these kinds one behind the other, cut off anywhere, are taken. -/
theorem sequence_takes {kind : Nat → Prop} {frames : List ClientFrame} {unfinished : Bool}
    (here : Rests unfinished parser) (sequence : ClientFrame.Sequence unfinished frames)
    (kinds : ∀ frame ∈ frames, kind frame.opcode) (part : bytes <+: frames.flatMap ClientFrame.encode) :
    Takes kind parser bytes := by
  obtain ⟨rest, layout⟩ := part
  obtain ⟨after, messages, leads, -, -, opcodes⟩ := sequence_leads here sequence
  have whole : Takes kind parser (bytes ++ rest) := by
    rw [layout, Takes, leads]
    refine ⟨rfl, fun msg member => ?_⟩
    obtain ⟨frame, among, same⟩ := opcodes msg member
    rw [same]
    exact kinds frame among
  exact whole.first

private theorem sequence_accepts {unfinished : Bool} (here : Rests unfinished parser) (accepts : Accepts parser bytes) :
    ∃ frames, ClientFrame.Sequence unfinished frames ∧ bytes = frames.flatMap ClientFrame.encode := by
  induction size : bytes.length using Nat.strongRecOn generalizing parser unfinished bytes with
  | ind count ih =>
    by_cases none : bytes = []
    · exact ⟨[], trivial, none⟩
    · obtain ⟨frame, rest, rfl, formed, continues⟩ := frame_accepts here none accepts
      obtain ⟨middle, pieces, first, -, rests⟩ := frame_leads here formed continues
      have shorter : rest.length < count := by
        rw [← size, List.length_append, ClientFrame.encode, List.length_cons]
        omega
      obtain ⟨frames, sequence, rfl⟩ := ih rest.length shorter rests (first.accepts.mp accepts) rfl
      exact ⟨frame :: frames, ⟨formed, continues, sequence⟩, rfl⟩

theorem rests_init : Rests false wsParserInit := ⟨init_valid, rfl, rfl⟩

/-- What a drive over a sequence of client frames leaves. -/
theorem drives_sequence {pace : Pace} {chunks : List Bytes} {driven : Driven}
    {frames : List ClientFrame} (roomy : Roomy pace) (drives : Drives pace wsParserInit chunks driven)
    (sequence : ClientFrame.Sequence false frames)
    (layout : chunks.flatten = frames.flatMap ClientFrame.encode) :
    driven.failure = none ∧ driven.consumed = chunks.flatten.length ∧ driven.parser.state = .header1 ∧
      assemble driven.messages = frames.map message := by
  have same := drives_follow drives roomy init_valid
  obtain ⟨after, messages, leads, whole, state, -⟩ := sequence_leads rests_init sequence
  rw [same.failure, same.consumed, same.parser, same.frames, layout, leads]
  exact ⟨rfl, rfl, state, whole⟩

/-- Any chunks can be driven through a fresh parser with any capacities. It uses
up the stream and ends between two frames exactly when the stream is a sequence
of client frames, and then it delivers their contents. -/
theorem parser_accepts_grammar {pace : Pace} (chunks : List Bytes) (roomy : Roomy pace) :
    (∃ driven, Drives pace wsParserInit chunks driven) ∧
    ∀ driven, Drives pace wsParserInit chunks driven →
      (driven.failure = none ∧ driven.consumed = chunks.flatten.length ∧ driven.parser.state = .header1 ↔
        ∃ frames, ClientFrame.Sequence false frames ∧ chunks.flatten = frames.flatMap ClientFrame.encode) ∧
      ∀ frames, ClientFrame.Sequence false frames → chunks.flatten = frames.flatMap ClientFrame.encode →
        assemble driven.messages = frames.map message := by
  refine ⟨drives_exist roomy chunks init_valid, fun driven drives =>
    ⟨⟨fun ⟨fine, _, ended⟩ => ?_, fun ⟨frames, sequence, layout⟩ => ?_⟩, fun frames sequence layout => ?_⟩⟩
  · have same := drives_follow drives roomy init_valid
    exact sequence_accepts rests_init ⟨same.failure ▸ fine, same.parser ▸ ended⟩
  · obtain ⟨fine, consumed, ended, -⟩ := drives_sequence roomy drives sequence layout
    exact ⟨fine, consumed, ended⟩
  · exact (drives_sequence roomy drives sequence layout).2.2.2

/-- A fragment, a ping in between, and the last fragment, in three chunks. -/
theorem parser_accepts_grammar_fragments : ∃ driven, Drives (fun _ => 125) wsParserInit
      [[0x01, 0x81, 1, 2], [3, 4, 0x60, 0x89, 0x80, 1, 2, 3, 4, 0x80, 0x81], [1, 2, 3, 4, 0x61]] driven ∧
    driven.failure = none ∧
    assemble driven.messages = [⟨false, 1, [0x61], true⟩, ⟨true, 9, [], true⟩, ⟨true, 0, [0x60], true⟩] := by
  obtain ⟨⟨driven, drives⟩, accepts⟩ := @parser_accepts_grammar (fun _ => 125)
    [[0x01, 0x81, 1, 2], [3, 4, 0x60, 0x89, 0x80, 1, 2, 3, 4, 0x80, 0x81], [1, 2, 3, 4, 0x61]] (fun _ => Nat.le_refl _)
  obtain ⟨accepted, delivers⟩ := accepts driven drives
  have sequence : ClientFrame.Sequence false
      [⟨false, 1, [1, 2, 3, 4], [0x61]⟩, ⟨true, 9, [1, 2, 3, 4], []⟩, ⟨true, 0, [1, 2, 3, 4], [0x60]⟩] := by decide
  exact ⟨driven, drives, (accepted.mpr ⟨_, sequence, by decide⟩).1, delivers _ sequence (by decide)⟩

end Sockify.Proofs.FrameGrammar
