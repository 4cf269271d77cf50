import Sockify.Framing
import Sockify.Ws.Frame

/-! The chunked frame parser follows the byte-at-a-time receiver of `Framing`:
whatever the cuts between the chunks, its state stands for the receiver's
cursor, and the message of one call is what the receiver signals. -/

namespace Sockify.Proofs.ParserCursor
open Sockify Framing

private theorem or_next_byte (value : Nat) (byte : UInt8) (shift : Nat) :
    value <<< (shift + 8) ||| byte.toNat <<< shift = (value * 256 + byte.toNat) <<< shift := by
  have bound : byte.toNat < 2 ^ 8 := byte.toNat_lt
  have low : value <<< 8 ||| byte.toNat = value * 256 + byte.toNat := by
    rw [← Nat.shiftLeft_add_eq_or_of_lt bound, Nat.shiftLeft_eq]
  rw [← low, Nat.add_comm shift 8, Nat.shiftLeft_add, Nat.shiftLeft_or_distrib]

private theorem readBe16_eq (first second : UInt8) (rest : Bytes) :
    readBe16 (first :: second :: rest) = bigEndian [first, second] := by
  simpa [readBe16, bigEndian] using or_next_byte first.toNat second 0

private theorem readBe64_eq (b0 b1 b2 b3 b4 b5 b6 b7 : UInt8) :
    readBe64 [b0, b1, b2, b3, b4, b5, b6, b7] = bigEndian [b0, b1, b2, b3, b4, b5, b6, b7] := by
  have last :=
    or_next_byte ((((((b0.toNat * 256 + b1.toNat) * 256 + b2.toNat) * 256 + b3.toNat) * 256 + b4.toNat) * 256 +
    b5.toNat) * 256 + b6.toNat) b7 0
  simp only [Nat.shiftLeft_zero] at last
  simp only [readBe64, bigEndian, List.foldl, List.getD_cons_zero, List.getD_cons_succ, Nat.zero_mul, Nat.zero_add,
    or_next_byte _ _ 48, or_next_byte _ _ 40, or_next_byte _ _ 32, or_next_byte _ _ 24, or_next_byte _ _ 16,
    or_next_byte _ _ 8, last]

theorem readBe16_pair {pair : Bytes} (rest : Bytes) (two : pair.length = 2) :
    readBe16 (pair ++ rest) = bigEndian pair := by
  obtain ⟨first, second, rfl⟩ := List.length_eq_two.mp two
  exact readBe16_eq first second rest

theorem readBe64_octet {octet : Bytes} (eight : octet.length = 8) : readBe64 octet = bigEndian octet := by
  match octet, eight with
  | [b0, b1, b2, b3, b4, b5, b6, b7], _ => exact readBe64_eq b0 b1 b2 b3 b4 b5 b6 b7

/-- The header bytes of the current frame that the parser has taken in. -/
def seen (parser : WsParser) : Bytes :=
  match parser.state with
  | .header1 => []
  | .header2 => [parser.b0]
  | .extLen => parser.b0 :: parser.b1 :: parser.extLenBytes.take parser.extLenPos
  | _ => parser.b0 :: parser.b1 :: (parser.extLenBytes.take parser.extLenNeeded ++ parser.mask.take parser.maskPos)

def cursor (parser : WsParser) : Cursor :=
  match parser.state with
  | .payload => .payload parser.opcode parser.mask parser.payloadOffset parser.payloadRemaining
  | _ => .header (seen parser)

/-- The first header byte is decoded and its opcode is one of the six. -/
structure Opened (parser : WsParser) : Prop where
  opcode : parser.opcode = (parser.b0 &&& 0x0f).toNat
  known : validOpcode parser.opcode = true

/-- The length of the frame is decided and the frame has been let in. -/
structure Admitted (parser : WsParser) : Prop extends Opened parser where
  needed : parser.extLenNeeded = extendedLength parser.b1
  length : parser.payloadLen = payloadLength (parser.b0 :: parser.b1 :: parser.extLenBytes.take parser.extLenNeeded)
  header : validateFrameHeader parser = .ok ()

def Phase (parser : WsParser) : Prop :=
  match parser.state with
  | .header1 => parser.extLenNeeded = 0 ∧ parser.maskPos = 0 ∧ parser.payloadOffset = 0
  | .header2 => Opened parser ∧ parser.extLenNeeded = 0 ∧ parser.maskPos = 0 ∧ parser.payloadOffset = 0
  | .extLen => Opened parser ∧ parser.extLenNeeded = extendedLength parser.b1 ∧
      parser.extLenPos < parser.extLenNeeded ∧ parser.maskPos = 0 ∧ parser.payloadOffset = 0
  | .mask =>
    Admitted parser ∧ parser.payloadRemaining = parser.payloadLen ∧ parser.maskPos < 4 ∧ parser.payloadOffset = 0
  | .payload => Admitted parser ∧ 0 < parser.payloadRemaining ∧
      parser.payloadOffset + parser.payloadRemaining = parser.payloadLen

structure Valid (parser : WsParser) : Prop where
  extension : parser.extLenBytes.length = 8
  key : parser.mask.length = 4
  phase : Phase parser

theorem init_valid : Valid wsParserInit := ⟨rfl, rfl, rfl, rfl, rfl⟩

theorem extendedLength_cases (b1 : UInt8) : extendedLength b1 = 0 ∨ extendedLength b1 = 2 ∨ extendedLength b1 = 8 := by
  unfold extendedLength
  split
  · exact .inr (.inl rfl)
  · split
    · exact .inr (.inr rfl)
    · exact .inl rfl

/-- A header byte that does not end the header. -/
private theorem step_short (seen : Bytes) (byte : UInt8)
    (short : (seen ++ [byte]).length < headerLength (seen ++ [byte])) :
    (Cursor.header seen).step byte = .header (seen ++ [byte]) ∧ (Cursor.header seen).signal byte = .quiet := by
  have incomplete : complete (seen ++ [byte]) = false := by
    simp only [complete, decide_eq_false_iff_not]
    omega
  simp [Cursor.step, Cursor.signal, incomplete]

/-- One header byte moves the parser as it moves the receiver, in silence. -/
structure Follows (parser after : WsParser) (byte : UInt8) : Prop where
  valid : Valid after
  cursor : cursor after = (cursor parser).step byte
  quiet : (ParserCursor.cursor parser).signal byte = .quiet
  fragment : after.fragmentedOpcode = parser.fragmentedOpcode

theorem feedHeader1_follows {parser after : WsParser} {byte : UInt8} (valid : Valid parser)
    (state : parser.state = .header1) (fed : feedHeader1 parser byte = (after, .ok ())) :
    Follows parser after byte := by
  have phase := valid.phase
  simp only [Phase, state] at phase
  simp only [feedHeader1] at fed
  split at fed
  · simp at fed
  next known =>
    simp only [Prod.mk.injEq, and_true] at fed
    subst fed
    simp only [not_or, ne_eq, Decidable.not_not, Bool.not_eq_true', Bool.not_eq_false] at known
    obtain ⟨moved, quiet⟩ := step_short [] byte (by simp [headerLength]; omega)
    refine ⟨⟨valid.extension, valid.key, ⟨rfl, known.2⟩, phase⟩, ?_, ?_, rfl⟩
    · simp [cursor, seen, state, moved]
    · simp [cursor, seen, state, quiet]

theorem feedHeader2_follows {parser after : WsParser} {byte : UInt8} (valid : Valid parser)
    (state : parser.state = .header2) (fed : feedHeader2 parser byte = (after, .ok ())) :
    Follows parser after byte := by
  have phase := valid.phase
  simp only [Phase, state] at phase
  obtain ⟨opened, needed, keyed, offset⟩ := phase
  obtain ⟨moved, quiet⟩ := step_short [parser.b0] byte (by simp [headerLength]; omega)
  have here : cursor parser = .header [parser.b0] := by simp [cursor, seen, state]
  simp only [feedHeader2] at fed
  split at fed
  · simp at fed
  · split at fed
    next two =>
      simp only [Prod.mk.injEq, and_true] at fed
      subst fed
      refine ⟨⟨valid.extension, valid.key, ⟨opened.opcode, opened.known⟩, ?_, Nat.two_pos, keyed, offset⟩, ?_, ?_, rfl⟩
      · simp [extendedLength, two]
      · rw [here, moved]
        simp [cursor, seen]
      · rw [here, quiet]
    next notTwo =>
      split at fed
      next eight =>
        simp only [Prod.mk.injEq, and_true] at fed
        subst fed
        refine ⟨⟨valid.extension, valid.key, ⟨opened.opcode, opened.known⟩, ?_, Nat.succ_pos 7, keyed, offset⟩, ?_,
          ?_, rfl⟩
        · simp [extendedLength, eight]
        · rw [here, moved]
          simp [cursor, seen]
        · rw [here, quiet]
      next notEight =>
        split at fed
        · simp at fed
        next admitted =>
          simp only [Prod.mk.injEq, and_true] at fed
          subst fed
          have none : extendedLength byte = 0 := by rw [extendedLength, if_neg notTwo, if_neg notEight]
          refine ⟨⟨valid.extension, valid.key, ⟨⟨opened.opcode, opened.known⟩, ?_, ?_, admitted⟩, rfl, ?_, offset⟩,
            ?_, ?_, rfl⟩
          · simp [needed, none]
          · simp [payloadLength, none]
          · simp [keyed]
          · rw [here, moved]
            simp [cursor, seen, needed, keyed]
          · rw [here, quiet]

private theorem take_set_succ {cells : Bytes} {position : Nat} (value : UInt8) (inside : position < cells.length) :
    (cells.set position value).take (position + 1) = cells.take position ++ [value] := by
  rw [List.take_succ_eq_append_getElem (by simpa using inside), List.take_set_of_le (Nat.le_refl position)]
  simp

/-- What `finish_length` leaves when it lets a frame in. -/
private theorem finishLength_admits {parser after : WsParser} (finished : finishLength parser = (after, .ok ()))
    (opened : Opened parser) (size : parser.extLenBytes.length = 8)
    (needed : parser.extLenNeeded = extendedLength parser.b1) (extended : 0 < parser.extLenNeeded) :
    ∃ length, after = { parser with payloadLen := length, payloadRemaining := length } ∧ Admitted after := by
  obtain ⟨b0, b1, b2, b3, b4, b5, b6, b7, bytes⟩ :
      ∃ b0 b1 b2 b3 b4 b5 b6 b7, parser.extLenBytes = [b0, b1, b2, b3, b4, b5, b6, b7] := by
    match parser.extLenBytes, size with
    | [b0, b1, b2, b3, b4, b5, b6, b7], _ => exact ⟨b0, b1, b2, b3, b4, b5, b6, b7, rfl⟩
  simp only [finishLength] at finished
  split at finished
  next two =>
    split at finished
    · simp at finished
    · simp only [Prod.mk.injEq] at finished
      obtain ⟨rfl, header⟩ := finished
      refine ⟨_, rfl, ⟨⟨opened.opcode, opened.known⟩, needed, ?_, header⟩⟩
      have length : extendedLength parser.b1 = 2 := by rw [← needed, two]
      simp only [bytes, two, payloadLength, readBe16_eq, List.getD_cons_succ, List.getD_cons_zero, length]
      rfl
  · split at finished
    next eight =>
      split at finished
      · simp at finished
      · simp only [Prod.mk.injEq] at finished
        obtain ⟨rfl, header⟩ := finished
        refine ⟨_, rfl, ⟨⟨opened.opcode, opened.known⟩, needed, ?_, header⟩⟩
        have length : extendedLength parser.b1 = 8 := by rw [← needed, eight]
        simp only [bytes, eight, payloadLength, readBe64_eq, List.getD_cons_succ, List.getD_cons_zero, length]
        rfl
    next notTwo notEight =>
      rcases extendedLength_cases parser.b1 with zero | two | eight <;> omega

theorem feedExtLen_follows {parser after : WsParser} {byte : UInt8} (valid : Valid parser)
    (state : parser.state = .extLen) (fed : feedExtLen parser byte = (after, .ok ())) : Follows parser after byte := by
  have phase := valid.phase
  simp only [Phase, state] at phase
  obtain ⟨opened, needed, pending, keyed, offset⟩ := phase
  have few : parser.extLenNeeded ≤ 8 := by
    rcases extendedLength_cases parser.b1 with zero | two | eight <;> omega
  have inside : parser.extLenPos < parser.extLenBytes.length := by rw [valid.extension]; omega
  have taken := take_set_succ byte inside
  have here : cursor parser = .header (parser.b0 :: parser.b1 :: parser.extLenBytes.take parser.extLenPos) := by
    simp [cursor, seen, state]
  obtain ⟨moved, quiet⟩ := step_short (parser.b0 :: parser.b1 :: parser.extLenBytes.take parser.extLenPos)
    byte (by
      simp only [headerLength, List.cons_append, List.getD_cons_succ, List.getD_cons_zero, List.length_cons,
        List.length_append, List.length_take, List.length_nil]
      omega)
  simp only [feedExtLen] at fed
  split at fed
  next full =>
    split at fed
    · simp at fed
    next finished =>
      simp only [Prod.mk.injEq, and_true] at fed
      subst fed
      obtain ⟨length, rfl, admitted⟩ := finishLength_admits finished ⟨opened.opcode, opened.known⟩
        (by simpa using valid.extension) needed (Nat.zero_lt_of_lt pending)
      refine ⟨⟨by simpa using valid.extension, valid.key, ?_⟩, ?_, ?_, rfl⟩
      · refine ⟨⟨⟨admitted.opcode, admitted.known⟩, admitted.needed, admitted.length, admitted.header⟩, rfl, ?_, offset⟩
        simp [keyed]
      · rw [here, moved]
        simp [cursor, seen, keyed, ← full, taken]
      · rw [here, quiet]
  next partly =>
    simp only [Prod.mk.injEq, and_true] at fed
    subst fed
    refine ⟨⟨by simpa using valid.extension, valid.key, ?_⟩, ?_, ?_, rfl⟩
    · simp only [Phase, state] at partly ⊢
      exact ⟨⟨opened.opcode, opened.known⟩, needed, by omega, keyed, offset⟩
    · rw [here, moved]
      simp [cursor, seen, state, taken]
    · rw [here, quiet]

/-- Once the extended length is in, the payload length no longer changes. -/
private theorem payloadLength_settled {b0 b1 : UInt8} {extension : Bytes} (rest : Bytes)
    (full : extension.length = extendedLength b1) :
    payloadLength (b0 :: b1 :: (extension ++ rest)) = payloadLength (b0 :: b1 :: extension) := by
  simp only [payloadLength, List.getD_cons_succ, List.getD_cons_zero, List.drop_succ_cons, List.drop_zero, ← full,
    List.take_left, List.take_length]

/-- The fragmentation check that `reset_frame` makes has been made before. -/
theorem resetFrame_admitted {parser : WsParser} (header : validateFrameHeader parser = .ok ()) :
    ∃ fragmented, resetFrame parser = .ok (clearFrame { parser with fragmentedOpcode := fragmented }) := by
  unfold validateFrameHeader at header
  unfold resetFrame
  split at header
  next control =>
    have high : parser.opcode ≥ 8 := by simpa [isControlOpcode] using control
    rw [if_neg (by simp [Opcode.text, Opcode.binary]; omega), if_neg (by simp [Opcode.continuation]; omega)]
    exact ⟨parser.fragmentedOpcode, rfl⟩
  · split at header
    next continued =>
      split at header
      · cases header
      next fragmented =>
        rw [if_neg (by rw [continued]; decide), if_pos continued, if_neg fragmented]
        split
        · exact ⟨0, rfl⟩
        · exact ⟨parser.fragmentedOpcode, rfl⟩
    next first =>
      split at header
      · cases header
      next whole =>
        rw [if_neg first]
        split
        · split
          · exact ⟨parser.opcode, rfl⟩
          · exact ⟨parser.fragmentedOpcode, rfl⟩
        · exact ⟨parser.fragmentedOpcode, rfl⟩

theorem clearFrame_valid {parser : WsParser}
    (extension : parser.extLenBytes.length = 8) (key : parser.mask.length = 4) :
    Valid (clearFrame parser) := ⟨extension, key, rfl, rfl, rfl⟩

/-- The last step of a frame: an emptied parser behind a finished frame. -/
private theorem resetFrame_finishes (parser : WsParser) (extension : parser.extLenBytes.length = 8)
    (key : parser.mask.length = 4) (header : validateFrameHeader parser = .ok ()) :
    ∃ after, resetFrame parser = .ok after ∧ Valid after ∧ cursor after = start := by
  obtain ⟨fragmented, reset⟩ := resetFrame_admitted header
  exact ⟨_, reset, clearFrame_valid extension key, rfl⟩

/-- The header as it stands when one more byte of the masking key arrives. -/
private theorem mask_header {parser : WsParser} (byte : UInt8) (valid : Valid parser) (state : parser.state = .mask) :
    (seen parser ++ [byte]).length = 3 + extendedLength parser.b1 + parser.maskPos ∧
    headerLength (seen parser ++ [byte]) = 6 + extendedLength parser.b1 ∧
    payloadLength (seen parser ++ [byte]) = parser.payloadLen ∧ opcodeOf (seen parser ++ [byte]) = parser.opcode ∧
    keyOf (seen parser ++ [byte]) = (parser.mask.set parser.maskPos byte).take (parser.maskPos + 1) := by
  have phase := valid.phase
  simp only [Phase, state] at phase
  obtain ⟨admitted, -, keyed, -⟩ := phase
  have inside : parser.maskPos < parser.mask.length := by rw [valid.key]; exact keyed
  have full : (parser.extLenBytes.take parser.extLenNeeded).length = extendedLength parser.b1 := by
    rw [List.length_take, valid.extension, ← admitted.needed]
    rcases extendedLength_cases parser.b1 with zero | two | eight <;> simp only [admitted.needed] <;> omega
  have layout : seen parser ++ [byte] = parser.b0 :: parser.b1 :: (parser.extLenBytes.take parser.extLenNeeded ++
      (parser.mask.set parser.maskPos byte).take (parser.maskPos + 1)) := by
    simp [seen, state, take_set_succ byte inside]
  rw [layout]
  refine ⟨?_, by simp [headerLength], ?_, by simp [opcodeOf, admitted.opcode], ?_⟩
  · simp only [List.length_cons, List.length_append, full, List.length_take, List.length_set, valid.key]
    omega
  · exact (payloadLength_settled _ full).trans admitted.length.symm
  · simp only [keyOf, List.getD_cons_succ,
      List.getD_cons_zero, Nat.add_comm 2, List.drop_succ_cons, ← full, List.drop_left]

/-- A byte of the masking key that does not end a frame. -/
theorem feedMask_follows {parser : WsParser} {byte : UInt8} (valid : Valid parser) (state : parser.state = .mask)
    (unfinished : ¬ ((feedMask parser byte).state = .payload ∧ (feedMask parser byte).payloadRemaining = 0)) :
    Follows parser (feedMask parser byte) byte := by
  have phase := valid.phase
  simp only [Phase, state] at phase
  obtain ⟨admitted, remaining, keyed, offset⟩ := phase
  have inside : parser.maskPos < parser.mask.length := by rw [valid.key]; exact keyed
  have here : cursor parser = .header (seen parser) := by simp [cursor, state]
  obtain ⟨size, header, length, opcode, key⟩ := mask_header byte valid state
  simp only [feedMask] at unfinished ⊢
  split at unfinished
  next last =>
    have nonempty : parser.payloadLen ≠ 0 := by simpa [remaining] using unfinished
    have long : complete (seen parser ++ [byte]) = true := by
      simp only [complete, decide_eq_true_eq, size, header]
      omega
    have whole : (parser.mask.set parser.maskPos byte).take (parser.maskPos + 1) =
        parser.mask.set parser.maskPos byte :=
      List.take_of_length_le (by rw [List.length_set, valid.key]; omega)
    rw [if_pos last]
    refine ⟨⟨valid.extension, by simpa using valid.key, ?_⟩, ?_, ?_, rfl⟩
    · refine ⟨⟨⟨admitted.opcode, admitted.known⟩, admitted.needed, admitted.length, admitted.header⟩, ?_, ?_⟩
      · simp only [remaining]
        omega
      · simp only [offset, remaining, Nat.zero_add]
    · rw [here]
      simp [cursor, Cursor.step, long, length, opcode, key, whole, remaining, offset, nonempty]
    · rw [here]
      simp [Cursor.signal, length, nonempty]
  next more =>
    obtain ⟨moved, quiet⟩ := step_short (seen parser) byte (by rw [size, header]; omega)
    rw [if_neg more]
    refine ⟨⟨valid.extension, by simpa using valid.key, ?_⟩, ?_, ?_, rfl⟩
    · simp only [Phase, state] at more ⊢
      exact ⟨⟨⟨admitted.opcode, admitted.known⟩, admitted.needed, admitted.length, admitted.header⟩,
        remaining, by omega, offset⟩
    · rw [here, moved]
      simp [cursor, seen, state, take_set_succ byte inside]
    · rw [here, quiet]

/-- The last byte of the key of a frame without payload. -/
theorem feedMask_empty {parser : WsParser} {byte : UInt8} (valid : Valid parser) (state : parser.state = .mask)
    (finished : (feedMask parser byte).state = .payload ∧ (feedMask parser byte).payloadRemaining = 0) :
    (cursor parser).step byte = start ∧ (cursor parser).signal byte = .empty parser.opcode ∧
    ∃ after, resetFrame (feedMask parser byte) = .ok after ∧ Valid after ∧ cursor after = start := by
  have phase := valid.phase
  simp only [Phase, state] at phase
  obtain ⟨admitted, remaining, keyed, offset⟩ := phase
  have here : cursor parser = .header (seen parser) := by simp [cursor, state]
  obtain ⟨size, header, length, opcode, -⟩ := mask_header byte valid state
  simp only [feedMask] at finished ⊢
  split at finished
  next last =>
    have nothing : payloadLength (seen parser ++ [byte]) = 0 := by rw [length, ← remaining]; exact finished.2
    have long : complete (seen parser ++ [byte]) = true := by
      simp only [complete, decide_eq_true_eq, size, header]
      omega
    rw [if_pos last, here]
    refine ⟨by simp [Cursor.step, long, nothing, start], by simp [Cursor.signal, long, nothing, opcode], ?_⟩
    exact resetFrame_finishes _ valid.extension (by simpa using valid.key) admitted.header
  next more => simp [state] at finished

@[simp] theorem unmask_length (mask : Bytes) (offset : Nat) (bytes : Bytes) :
    (unmask mask offset bytes).length = bytes.length := by
  induction bytes generalizing offset with
  | nil => rfl
  | cons byte rest ih => simp [unmask, ih]

theorem payload_signals (opcode : Nat) (key : Bytes) (offset remaining : Nat) (bytes : Bytes)
    (fits : bytes.length ≤ remaining) :
    (Cursor.payload opcode key offset remaining).signals bytes = (unmask key offset bytes).map (.byte opcode) := by
  induction bytes generalizing offset remaining with
  | nil => rfl
  | cons byte rest ih =>
    simp only [List.length_cons] at fits
    have phase : offset &&& 3 = offset % 4 := Nat.and_two_pow_sub_one_eq_mod offset 2
    simp only [Cursor.signals, Cursor.signal, unmask, List.map_cons, phase]
    by_cases last : remaining = 1
    · have ended : rest = [] := List.eq_nil_of_length_eq_zero (by omega)
      simp [ended, Cursor.signals, unmask]
    · rw [Cursor.step, if_neg last, ih _ _ (by omega)]

theorem payload_advance (opcode : Nat) (key : Bytes) (offset remaining : Nat) (bytes : Bytes) (left : 0 < remaining)
    (fits : bytes.length ≤ remaining) :
    (Cursor.payload opcode key offset remaining).advance bytes =
      if bytes.length = remaining then start
      else .payload opcode key (offset + bytes.length) (remaining - bytes.length) := by
  induction bytes generalizing offset remaining with
  | nil => simp [Nat.ne_of_lt left]
  | cons byte rest ih =>
    simp only [List.length_cons] at fits
    rw [Cursor.advance_cons, Cursor.step]
    split
    next last =>
      have ended : rest = [] := List.eq_nil_of_length_eq_zero (by omega)
      simp [ended, last, start]
    next more =>
      rw [ih _ _ (by omega) (by omega), List.length_cons]
      by_cases whole : rest.length = remaining - 1
      · rw [if_pos whole, if_pos (by omega)]
      · rw [if_neg whole, if_neg (by omega), Nat.add_assoc, Nat.sub_sub, Nat.add_comm 1]

/-- What a call that delivers a message has made of the bytes it used. -/
structure Delivered (parser : WsParser) (data : Bytes) (capacity : Nat) (after : WsParser) (used : Nat)
    (msg : WsMessage) : Prop where
  valid : Valid after
  cursor : cursor after = (cursor parser).advance (data.take used)
  signals : ∃ silent, (ParserCursor.cursor parser).signals (data.take used) =
    List.replicate silent .quiet ++ delivery msg.opcode msg.payload
  progress : 0 < used ∧ used ≤ data.length
  payload : msg.payload.length ≤ capacity ∧ msg.payload.length ≤ used
  control : isControlOpcode msg.opcode = true → msg.payload.length ≤ 125
  known : validOpcode msg.opcode = true

theorem feedPayload_delivers {parser : WsParser} {capacity : Nat} (pos : Nat) {data : Bytes} (valid : Valid parser)
    (state : parser.state = .payload) (nonempty : data ≠ []) (room : 0 < capacity)
    (fits : ¬ (isControlOpcode parser.opcode = true ∧ parser.payloadRemaining > capacity)) :
    ∃ after msg used, feedPayload capacity parser pos data = ⟨after, pos + used, .ok msg⟩ ∧
      used = min (min data.length capacity) parser.payloadRemaining ∧ msg.opcode = parser.opcode ∧
      msg.payload = unmask parser.mask parser.payloadOffset (data.take used) ∧
      Delivered parser data capacity after used msg := by
  have phase := valid.phase
  simp only [Phase, state] at phase
  obtain ⟨admitted, left, whole⟩ := phase
  have some_ : 0 < data.length := List.length_pos_iff.mpr nonempty
  have here : cursor parser = .payload parser.opcode parser.mask parser.payloadOffset parser.payloadRemaining := by
    simp [cursor, state]
  have amount : (if minSize data.length capacity > parser.payloadRemaining then parser.payloadRemaining
      else minSize data.length capacity) = min (min data.length capacity) parser.payloadRemaining := by
    rw [minSize_eq]
    split <;> omega
  obtain ⟨used, same⟩ : ∃ used, used = min (min data.length capacity) parser.payloadRemaining := ⟨_, rfl⟩
  have size : (data.take used).length = used := by rw [List.length_take]; omega
  have moved := payload_advance parser.opcode parser.mask parser.payloadOffset parser.payloadRemaining
    (data.take used) left (by omega)
  have heard := payload_signals parser.opcode parser.mask parser.payloadOffset parser.payloadRemaining
    (data.take used) (by omega)
  obtain ⟨first, rest, shown⟩ : ∃ first rest, data.take used = first :: rest := by
    cases taken : data.take used with
    | nil => simp only [taken, List.length_nil] at size; omega
    | cons first rest => exact ⟨first, rest, rfl⟩
  have delivered : ∃ silent, (cursor parser).signals (data.take used) =
      List.replicate silent .quiet ++
          delivery parser.opcode (unmask parser.mask parser.payloadOffset (data.take used)) := by
    refine ⟨0, ?_⟩
    rw [here, heard, shown]
    rfl
  have short : isControlOpcode parser.opcode = true → used ≤ 125 := by
    intro control
    have header := admitted.header
    simp only [validateFrameHeader, if_pos control] at header
    split at header
    · cases header
    · omega
  simp only [feedPayload, if_neg (Nat.ne_of_gt room), if_neg fits, amount, ← same]
  by_cases last : parser.payloadRemaining - used = 0
  · obtain ⟨after, reset, cleared, restarted⟩ := resetFrame_finishes
      { parser with payloadOffset := parser.payloadOffset + used, payloadRemaining := parser.payloadRemaining - used }
      valid.extension valid.key admitted.header
    rw [if_pos last, reset]
    refine ⟨after, _, used, rfl, rfl, rfl, rfl, ⟨cleared, ?_, delivered, by omega, ?_, ?_, admitted.known⟩⟩
    · rw [restarted, here, moved, size, if_pos (by omega)]
    · simp only [prepareMessage, unmask_length, size]
      omega
    · simpa only [prepareMessage, unmask_length, size] using short
  · rw [if_neg last]
    refine ⟨_, _, used, rfl, rfl, rfl,
      rfl, ⟨⟨valid.extension, valid.key, ?_⟩, ?_, delivered, by omega, ?_, ?_, admitted.known⟩⟩
    · simp only [Phase, state]
      exact ⟨⟨⟨admitted.opcode, admitted.known⟩, admitted.needed, admitted.length, admitted.header⟩, by omega, by omega⟩
    · rw [here, moved, size, if_neg (by omega)]
      simp [cursor, state]
    · simp only [prepareMessage, unmask_length, size]
      omega
    · simpa only [prepareMessage, unmask_length, size] using short

/-- What a call that asks for more has made of its bytes: it used them all. -/
structure Exhausted (parser : WsParser) (data : Bytes) (after : WsParser) : Prop where
  valid : Valid after
  cursor : cursor after = (cursor parser).advance data
  signals : (ParserCursor.cursor parser).signals data = List.replicate data.length .quiet

theorem Exhausted.behind {parser middle after : WsParser} {byte : UInt8} {rest : Bytes}
    (first : Follows parser middle byte) (later : Exhausted middle rest after) :
    Exhausted parser (byte :: rest) after := by
  refine ⟨later.valid, ?_, ?_⟩
  · rw [later.cursor, first.cursor, Cursor.advance_cons]
  · rw [Cursor.signals, ← first.cursor, later.signals, first.quiet, List.length_cons, List.replicate_succ]

theorem Delivered.behind {parser middle after : WsParser} {byte : UInt8} {rest : Bytes}
    {capacity used : Nat} {msg : WsMessage} (first : Follows parser middle byte)
    (later : Delivered middle rest capacity after used msg) :
    Delivered parser (byte :: rest) capacity after (used + 1) msg := by
  obtain ⟨silent, heard⟩ := later.signals
  have progress := later.progress
  have payload := later.payload
  have advances : 0 < used + 1 ∧ used + 1 ≤ (byte :: rest).length := by
    simp only [List.length_cons]
    omega
  refine ⟨later.valid, ?_, ⟨silent + 1, ?_⟩, advances, by omega, later.control, later.known⟩
  · rw [later.cursor, first.cursor, List.take_succ_cons, Cursor.advance_cons]
  · rw [List.take_succ_cons, Cursor.signals, ← first.cursor, heard, first.quiet, List.replicate_succ, List.cons_append]

/-- The postcondition of one call on a parser that is valid. -/
def Fed (capacity : Nat) (parser : WsParser) (pos : Nat) (data : Bytes) (result : FeedResult) : Prop :=
  match result.outcome with
  | .ok msg => ∃ used, result.used = pos + used ∧ Delivered parser data capacity result.parser used msg
  | .error .again => result.used = pos + data.length ∧ Exhausted parser data result.parser
  | .error _ => True

theorem Fed.behind {capacity pos : Nat} {parser middle : WsParser} {byte : UInt8} {rest : Bytes} {result : FeedResult}
    (first : Follows parser middle byte) (later : Fed capacity middle (pos + 1) rest result) :
    Fed capacity parser pos (byte :: rest) result := by
  unfold Fed at later ⊢
  split
  next outcome =>
    rw [outcome] at later
    obtain ⟨used, total, delivered⟩ := later
    exact ⟨used + 1, by omega, delivered.behind first⟩
  next outcome =>
    rw [outcome] at later
    exact ⟨by simp only [List.length_cons]; omega, later.2.behind first⟩
  · trivial

theorem validateFrameHeader_error {parser : WsParser} {error : Err}
    (failed : validateFrameHeader parser = .error error) :
    error = .protocol := by
  unfold validateFrameHeader at failed
  grind

private theorem finishLength_error {parser after : WsParser} {error : Err}
    (failed : finishLength parser = (after, .error error)) : error = .protocol := by
  simp only [finishLength] at failed
  repeat' split at failed
  all_goals
    simp only [Prod.mk.injEq] at failed
    first
    | exact validateFrameHeader_error failed.2
    | exact (Except.error.inj failed.2).symm

theorem feedHeader1_error {parser after : WsParser} {byte : UInt8} {error : Err}
    (failed : feedHeader1 parser byte = (after, .error error)) : error = .protocol := by
  simp only [feedHeader1] at failed
  split at failed
  · exact (Except.error.inj (Prod.mk.inj failed).2).symm
  · cases (Prod.mk.inj failed).2

theorem feedHeader2_error {parser after : WsParser} {byte : UInt8} {error : Err}
    (failed : feedHeader2 parser byte = (after, .error error)) : error = .protocol := by
  simp only [feedHeader2] at failed
  split at failed
  · exact (Except.error.inj (Prod.mk.inj failed).2).symm
  · split at failed
    · cases (Prod.mk.inj failed).2
    · split at failed
      · cases (Prod.mk.inj failed).2
      · split at failed
        next error refused => exact Except.error.inj (Prod.mk.inj failed).2 ▸ validateFrameHeader_error refused
        · cases (Prod.mk.inj failed).2

theorem feedExtLen_error {parser after : WsParser} {byte : UInt8} {error : Err}
    (failed : feedExtLen parser byte = (after, .error error)) : error = .protocol := by
  simp only [feedExtLen] at failed
  split at failed
  · split at failed
    next error refused => exact Except.error.inj (Prod.mk.inj failed).2 ▸ finishLength_error refused
    · cases (Prod.mk.inj failed).2
  · cases (Prod.mk.inj failed).2

private theorem feedLoop_fed {capacity : Nat} (room : 0 < capacity) (data : Bytes) (parser : WsParser)
    (pos : Nat) (valid : Valid parser) :
    Fed capacity parser pos data (feedLoop capacity parser pos data) := by
  induction data generalizing parser pos with
  | nil => exact ⟨rfl, valid, rfl, rfl⟩
  | cons byte rest ih =>
    unfold feedLoop
    split
    next state =>
      split
      next failed => simp [Fed, feedHeader1_error failed]
      next fed =>
        exact (ih _ _ (feedHeader1_follows valid state fed).valid).behind (feedHeader1_follows valid state fed)
    next state =>
      split
      next failed => simp [Fed, feedHeader2_error failed]
      next fed =>
        exact (ih _ _ (feedHeader2_follows valid state fed).valid).behind (feedHeader2_follows valid state fed)
    next state =>
      split
      next failed => simp [Fed, feedExtLen_error failed]
      next fed => exact (ih _ _ (feedExtLen_follows valid state fed).valid).behind (feedExtLen_follows valid state fed)
    next state =>
      simp only
      split
      next finished =>
        obtain ⟨moved, heard, after, reset, cleared, restarted⟩ := feedMask_empty valid state finished
        have phase := valid.phase
        simp only [Phase, state] at phase
        have opcode : (feedMask parser byte).opcode = parser.opcode := by simp only [feedMask]; split <;> rfl
        simp only [emitEmptyFrame, reset]
        refine ⟨1, rfl, cleared, ?_, ⟨0, ?_⟩, by simp, by simp [prepareMessage], by simp [prepareMessage], ?_⟩
        · simp [restarted, moved]
        · simp [Cursor.signals, heard, delivery, prepareMessage, opcode]
        · simpa [prepareMessage, opcode] using phase.1.known
      next unfinished =>
        exact (ih _ _ (feedMask_follows valid state unfinished).valid).behind (feedMask_follows valid state unfinished)
    next state =>
      by_cases fits : isControlOpcode parser.opcode = true ∧ parser.payloadRemaining > capacity
      · simp [feedPayload, Nat.ne_of_gt room, fits, Fed]
      · obtain ⟨after, msg, used, fed, -, -, -, delivered⟩ :=
          feedPayload_delivers pos valid state (List.cons_ne_nil byte rest) room fits
        rw [fed]
        exact ⟨used, rfl, delivered⟩

/-- One call of `sockify_ws_parser_feed` with room for payload. -/
theorem wsParserFeed_fed {capacity : Nat} (room : 0 < capacity) (data : Bytes)
    {parser : WsParser} (valid : Valid parser) :
    Fed capacity parser 0 data (wsParserFeed parser data capacity) := feedLoop_fed room data parser 0 valid

end Sockify.Proofs.ParserCursor
