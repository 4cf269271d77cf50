import Sockify.Proofs.FrameGrammar

/-! What holds of the parser's fields between any two bytes, whatever calls have
led there, and what follows for its array accesses, its subtraction and the
second fragmentation check. -/

namespace Sockify.Proofs.ParserInvariant
open Sockify Framing Driving ParserCursor ParserSegmentation FrameGrammar

/-- A parser that calls have led to, none of which was refused for more than
want of room. -/
inductive Endured : WsParser → Prop
  | init : Endured wsParserInit
  | fed {parser} (endured : Endured parser) (data : Bytes) (capacity : Nat)
      (fine : ∀ error, (wsParserFeed parser data capacity).outcome = .error error →
      error = .again ∨ error = .overflow) :
      Endured (wsParserFeed parser data capacity).parser

/-- The fields, state by state. -/
structure Consistent (parser : WsParser) : Prop where
  extended : parser.state = .extLen →
    (parser.extLenNeeded = 2 ∨ parser.extLenNeeded = 8) ∧ parser.extLenPos < parser.extLenNeeded
  keyed : parser.state = .mask → parser.maskPos < 4
  paying : parser.state = .payload → 0 < parser.payloadRemaining ∧ parser.maskPos = 4 ∧
    parser.payloadOffset + parser.payloadRemaining = parser.payloadLen ∧ parser.payloadLen < 2 ^ 63
  control : parser.state = .mask ∨ parser.state = .payload → isControlOpcode parser.opcode = true →
    parser.fin = true ∧ parser.payloadLen ≤ 125
  fragment : parser.fragmentedOpcode = 0 ∨
    parser.fragmentedOpcode = Opcode.text ∨ parser.fragmentedOpcode = Opcode.binary

def Finished (parser : WsParser) : Prop := parser.state = .payload ∧ parser.payloadRemaining = 0

/-- One turn of the loop of `sockify_ws_parser_feed`, on a byte and those behind
it: every index is inside its array, no more is subtracted from
`payload_remaining` than it holds, and `reset_frame` does not refuse. -/
structure Guarded (parser : WsParser) (byte : UInt8) (rest : Bytes) : Prop where
  storage : parser.extLenBytes.length = 8 ∧ parser.mask.length = 4
  length : parser.state = .extLen → parser.extLenPos < parser.extLenBytes.length
  key : parser.state = .mask → parser.maskPos < parser.mask.length
  unmasking : ∀ index, (parser.payloadOffset + index) &&& 3 < parser.mask.length
  amount : parser.state = .payload →
    ∀ capacity pos msg, (feedPayload capacity parser pos (byte :: rest)).outcome = .ok msg →
    msg.payload.length ≤ parser.payloadRemaining
  empty : parser.state = .mask →
    Finished (feedMask parser byte) → ∃ after, resetFrame (feedMask parser byte) = .ok after
  last : parser.state = .payload →
    ∀ capacity pos, (feedPayload capacity parser pos (byte :: rest)).outcome ≠ .error .protocol

def passed : WsParser × Except Err Unit → Option WsParser
  | (after, .ok ()) => some after
  | (_, .error _) => none

/-- The parser with which the loop goes on behind a byte, if it does. -/
def onward (parser : WsParser) (byte : UInt8) : Option WsParser :=
  match parser.state with
  | .header1 => passed (feedHeader1 parser byte)
  | .header2 => passed (feedHeader2 parser byte)
  | .extLen => passed (feedExtLen parser byte)
  | .mask =>
    if (feedMask parser byte).state = .payload ∧ (feedMask parser byte).payloadRemaining = 0 then none
    else some (feedMask parser byte)
  | .payload => none

def turns : WsParser → Bytes → List (WsParser × UInt8 × Bytes)
  | _, [] => []
  | parser, byte :: rest =>
    (parser, byte, rest) :: match onward parser byte with
      | some after => turns after rest
      | none => []

variable {parser after : WsParser} {byte : UInt8} {rest data : Bytes}

private theorem passed_some {result : WsParser × Except Err Unit} :
    passed result = some after ↔ result = (after, .ok ()) := by
  obtain ⟨left, outcome⟩ := result
  cases outcome with
  | ok => simp [passed]
  | error => simp [passed]

private theorem feedLoop_onward (goes : onward parser byte = some after) (capacity pos : Nat) :
    feedLoop capacity parser pos (byte :: rest) = feedLoop capacity after (pos + 1) rest := by
  unfold onward at goes
  rw [feedLoop]
  cases state : parser.state with
  | header1 | header2 | extLen =>
    simp only [state] at goes
    simp only [passed_some.mp goes]
  | mask =>
    simp only [state] at goes
    split at goes
    · cases goes
    next unfinished =>
      cases goes
      simp only [if_neg unfinished]
  | payload =>
    simp only [state] at goes
    cases goes

/-- The invariant by which a byte leads to the next one. -/
structure Sane (parser : WsParser) : Prop extends Valid parser where
  entered : parser.state = .payload → parser.maskPos = 4
  bounded : parser.state = .mask ∨ parser.state = .payload → parser.payloadLen < 2 ^ 63
  fragment : parser.fragmentedOpcode = 0 ∨
    parser.fragmentedOpcode = Opcode.text ∨ parser.fragmentedOpcode = Opcode.binary

private theorem sane_init : Sane wsParserInit := ⟨init_valid, nofun, nofun, .inl rfl⟩

theorem Sane.admitted (sane : Sane parser) (known : parser.state = .mask ∨ parser.state = .payload) :
    Admitted parser := by
  have phase := sane.phase
  rcases known with state | state
  · simp only [Phase, state] at phase
    exact phase.1
  · simp only [Phase, state] at phase
    exact phase.1

theorem Sane.consistent (sane : Sane parser) : Consistent parser where
  extended := fun state => by
    have phase := sane.phase
    simp only [Phase, state] at phase
    obtain ⟨-, needed, inside, -⟩ := phase
    refine ⟨?_, inside⟩
    rcases extendedLength_cases parser.b1 with zero | two | eight
    · omega
    · exact .inl (needed.trans two)
    · exact .inr (needed.trans eight)
  keyed := fun state => by
    have phase := sane.phase
    simp only [Phase, state] at phase
    exact phase.2.2.1
  paying := fun state => by
    have phase := sane.phase
    simp only [Phase, state] at phase
    exact ⟨phase.2.1, sane.entered state, phase.2.2, sane.bounded (.inr state)⟩
  control := fun known control => by
    have header := (sane.admitted known).header
    rw [validateFrameHeader, if_pos control] at header
    split at header
    · cases header
    next fine => simpa using fine
  fragment := sane.fragment

/-- A reset leaves no opcode but those of a first fragment. -/
theorem resetFrame_fragment (reset : resetFrame parser = .ok after)
    (before : parser.fragmentedOpcode = 0 ∨ parser.fragmentedOpcode = Opcode.text ∨
      parser.fragmentedOpcode = Opcode.binary) :
    after.fragmentedOpcode = 0 ∨ after.fragmentedOpcode = Opcode.text ∨ after.fragmentedOpcode = Opcode.binary := by
  unfold resetFrame at reset
  split at reset
  next first =>
    split at reset
    · split at reset
      · cases reset
      · cases reset
        exact .inr first
    · cases reset
      exact before
  · split at reset
    · split at reset
      · cases reset
      · split at reset
        · cases reset
          exact .inl rfl
        · cases reset
          exact before
    · cases reset
      exact before

/-- A frame that was let in is reset, and the next header is waited for. -/
theorem resetFrame_sane (admitted : Admitted parser) (extension : parser.extLenBytes.length = 8)
    (key : parser.mask.length = 4)
    (before : parser.fragmentedOpcode = 0 ∨ parser.fragmentedOpcode = Opcode.text ∨
      parser.fragmentedOpcode = Opcode.binary) :
    ∃ after, resetFrame parser = .ok after ∧ Sane after := by
  obtain ⟨after, reset, rests⟩ := resetFrame_rests extension key admitted.known admitted.header
  refine ⟨after, reset, rests.valid, ?_, ?_, resetFrame_fragment reset before⟩
  · intro state
    cases rests.state.symm.trans state
  · intro known
    rcases known with state | state
    · cases rests.state.symm.trans state
    · cases rests.state.symm.trans state

/-- A length that `finish_length` lets in. -/
theorem finishLength_bounded (finished : finishLength parser = (after, .ok ())) (size : parser.extLenBytes.length = 8)
    (form : parser.extLenNeeded = 2 ∨ parser.extLenNeeded = 8) : after.payloadLen < 2 ^ 63 := by
  rw [finishLength] at finished
  split at finished
  next two =>
    simp only at finished
    split at finished
    · cases (Prod.mk.inj finished).2
    · rw [← (Prod.mk.inj finished).1]
      have two : (parser.extLenBytes.take 2).length = 2 := by
        rw [List.length_take, size]
        rfl
      have small := bigEndian_lt (parser.extLenBytes.take 2)
      rw [two] at small
      have value : readBe16 parser.extLenBytes = bigEndian (parser.extLenBytes.take 2) := by
        rw [← readBe16_pair (parser.extLenBytes.drop 2) two, List.take_append_drop]
      simp only [value]
      omega
  next notTwo =>
    rw [if_pos (form.resolve_left notTwo)] at finished
    simp only at finished
    split at finished
    · cases (Prod.mk.inj finished).2
    next fine =>
      rw [← (Prod.mk.inj finished).1]
      have low := (not_or.mp fine).2
      rw [top_bit_set size, Nat.not_le] at low
      exact readBe64_octet size ▸ low

/-- A parser that has taken in a byte of a header, not the last one. -/
theorem follows_sane (follows : Follows parser after byte) (sane : Sane parser)
    (state : after.state = .header2 ∨ after.state = .extLen ∨ (after.state = .mask ∧ after.payloadLen < 2 ^ 63)) :
    Sane after where
  toValid := follows.valid
  entered := fun paying => by
    rcases state with other | other | ⟨other, -⟩
    all_goals cases other.symm.trans paying
  bounded := fun known => by
    rcases state with other | other | ⟨-, bound⟩
    · rcases known with same | same
      all_goals cases other.symm.trans same
    · rcases known with same | same
      all_goals cases other.symm.trans same
    · exact bound
  fragment := follows.fragment ▸ sane.fragment

private theorem feedHeader1_state (fed : feedHeader1 parser byte = (after, .ok ())) : after.state = .header2 := by
  simp only [feedHeader1] at fed
  split at fed
  · cases (Prod.mk.inj fed).2
  · rw [← (Prod.mk.inj fed).1]

private theorem feedHeader2_state (fed : feedHeader2 parser byte = (after, .ok ())) :
    after.state = .extLen ∨ (after.state = .mask ∧ after.payloadLen < 2 ^ 63) := by
  have short : (byte &&& 0x7f).toNat < 2 ^ 63 := Nat.lt_trans (byte &&& 0x7f).toNat_lt (by decide)
  simp only [feedHeader2] at fed
  split at fed
  · cases (Prod.mk.inj fed).2
  · split at fed
    · exact .inl ((Prod.mk.inj fed).1 ▸ rfl)
    · split at fed
      · exact .inl ((Prod.mk.inj fed).1 ▸ rfl)
      · split at fed
        · cases (Prod.mk.inj fed).2
        · exact .inr ((Prod.mk.inj fed).1 ▸ ⟨rfl, short⟩)

private theorem feedExtLen_state (sane : Sane parser) (state : parser.state = .extLen)
    (fed : feedExtLen parser byte = (after, .ok ())) :
    after.state = .extLen ∨ (after.state = .mask ∧ after.payloadLen < 2 ^ 63) := by
  obtain ⟨form, inside⟩ := sane.consistent.extended state
  simp only [feedExtLen] at fed
  split at fed
  next full =>
    split at fed
    · cases (Prod.mk.inj fed).2
    next ended finished =>
      have bound := finishLength_bounded finished (by rw [List.length_set]; exact sane.extension) form
      exact .inr ((Prod.mk.inj fed).1 ▸ ⟨rfl, bound⟩)
  · exact .inl ((Prod.mk.inj fed).1 ▸ state)

private theorem feedMask_sane (sane : Sane parser) (state : parser.state = .mask)
    (unfinished : ¬ Finished (feedMask parser byte)) :
    Sane (feedMask parser byte) := by
  have follows := feedMask_follows sane.toValid state unfinished
  have bound := sane.bounded (.inl state)
  refine ⟨follows.valid, ?_, ?_, follows.fragment ▸ sane.fragment⟩
  · intro paying
    simp only [feedMask] at paying ⊢
    split at paying
    next last => rwa [if_pos last]
    · cases state.symm.trans paying
  · intro _
    simp only [feedMask]
    split
    · exact bound
    · exact bound

/-- Where the loop goes on, the invariant holds again. -/
theorem onward_sane (sane : Sane parser) (goes : onward parser byte = some after) : Sane after := by
  unfold onward at goes
  split at goes
  next state =>
    have fed := passed_some.mp goes
    exact follows_sane (feedHeader1_follows sane.toValid state fed) sane (.inl (feedHeader1_state fed))
  next state =>
    have fed := passed_some.mp goes
    exact follows_sane (feedHeader2_follows sane.toValid state fed) sane (.inr (feedHeader2_state fed))
  next state =>
    have fed := passed_some.mp goes
    exact follows_sane (feedExtLen_follows sane.toValid state fed) sane (.inr (feedExtLen_state sane state fed))
  next state =>
    split at goes
    · cases goes
    next unfinished =>
      cases goes
      exact feedMask_sane sane state unfinished
  · cases goes

/-- The frame that ends with its key. -/
theorem empty_sane (sane : Sane parser) (state : parser.state = .mask) (byte : UInt8) :
    ∃ after, resetFrame (feedMask parser byte) = .ok after ∧ Sane after := by
  obtain ⟨⟨opened, known⟩, needed, length, header⟩ := sane.admitted (.inl state)
  simp only [feedMask]
  split
  · exact resetFrame_sane ⟨⟨opened, known⟩, needed, length, header⟩ sane.extension
      (by rw [List.length_set]; exact sane.key) sane.fragment
  · exact resetFrame_sane ⟨⟨opened, known⟩, needed, length, header⟩ sane.extension
      (by rw [List.length_set]; exact sane.key) sane.fragment

/-- What a turn in the payload leaves, unless it has no room. -/
theorem payload_sane (sane : Sane parser) (state : parser.state = .payload) (capacity pos : Nat) (data : Bytes) :
    feedPayload capacity parser pos data = ⟨parser, pos, .error .overflow⟩ ∨
    ∃ after msg used, feedPayload capacity parser pos data = ⟨after, used, .ok msg⟩ ∧ Sane after ∧
      msg.payload.length ≤ parser.payloadRemaining := by
  by_cases room : capacity = 0
  · left
    rw [feedPayload, if_pos room]
  · by_cases starves : isControlOpcode parser.opcode = true ∧ parser.payloadRemaining > capacity
    · left
      rw [feedPayload, if_neg room, if_pos starves]
    · obtain ⟨after, fed, paid⟩ :=
        feedPayload_part capacity data pos sane.toValid state (Nat.pos_of_ne_zero room) starves
      generalize amount : min (min data.length capacity) parser.payloadRemaining = used at fed paid
      have size : (data.take used).length = used := by
        rw [List.length_take]
        omega
      refine .inr ⟨after, _, _, fed, ?_, ?_⟩
      · obtain ⟨⟨opened, known⟩, needed, length, header⟩ := sane.admitted (.inr state)
        rw [Paid] at paid
        split at paid
        · have admitted : Admitted (paidOut parser (data.take used)) := ⟨⟨opened, known⟩, needed, length, header⟩
          obtain ⟨next, reset, kept⟩ := resetFrame_sane admitted sane.extension sane.key sane.fragment
          rw [paid] at reset
          exact Except.ok.inj reset ▸ kept
        next more =>
          rw [paid]
          have short : (data.take used).length < parser.payloadRemaining := by omega
          exact ⟨paidOut_valid sane.toValid state short, sane.entered, sane.bounded, sane.fragment⟩
      · rw [pieceOf, prepareMessage, unmask_length, size]
        omega

theorem Sane.guarded (sane : Sane parser) (byte : UInt8) (rest : Bytes) : Guarded parser byte rest where
  storage := ⟨sane.extension, sane.key⟩
  length := fun state => by
    have inside := sane.consistent.extended state
    rw [sane.extension]
    omega
  key := fun state => by
    rw [sane.key]
    exact sane.consistent.keyed state
  unmasking := fun index => by
    rw [sane.key]
    have phase : (parser.payloadOffset + index) &&& 3 = (parser.payloadOffset + index) % 4 :=
      Nat.and_two_pow_sub_one_eq_mod _ 2
    omega
  amount := fun state capacity pos msg outcome => by
    rcases payload_sane sane state capacity pos (byte :: rest) with full | ⟨after, sent, used, fed, -, fits⟩
    · rw [full] at outcome
      cases outcome
    · rw [fed] at outcome
      exact Except.ok.inj outcome ▸ fits
  empty := fun state _ => by
    obtain ⟨after, reset, -⟩ := empty_sane sane state byte
    exact ⟨after, reset⟩
  last := fun state capacity pos outcome => by
    rcases payload_sane sane state capacity pos (byte :: rest) with full | ⟨after, sent, used, fed, -⟩
    · rw [full] at outcome
      cases outcome
    · rw [fed] at outcome
      cases outcome

private theorem turns_sane (sane : Sane parser) : ∀ turn ∈ turns parser data, Sane turn.1 := by
  induction data generalizing parser with
  | nil => simp [turns]
  | cons byte rest ih =>
    intro turn member
    rw [turns] at member
    rcases List.mem_cons.mp member with rfl | later
    · exact sane
    · split at later
      next after goes => exact ih (onward_sane sane goes) turn later
      · cases later

private theorem passed_none {result : WsParser × Except Err Unit} (stops : passed result = none) :
    ∃ after error, result = (after, .error error) := by
  obtain ⟨left, outcome⟩ := result
  cases outcome with
  | ok => cases stops
  | error error => exact ⟨left, error, rfl⟩

/-- The last turn: a header that is refused, an empty frame, or a piece of a payload. -/
theorem feedLoop_stops (stops : onward parser byte = none) (capacity pos : Nat) :
    (feedLoop capacity parser pos (byte :: rest)).outcome = .error .protocol ∨
    (parser.state = .mask ∧
    feedLoop capacity parser pos (byte :: rest) = emitEmptyFrame (feedMask parser byte) (pos + 1)) ∨
    (parser.state = .payload ∧
    feedLoop capacity parser pos (byte :: rest) = feedPayload capacity parser pos (byte :: rest)) := by
  unfold onward at stops
  rw [feedLoop]
  cases state : parser.state with
  | header1 =>
    simp only [state] at stops
    obtain ⟨after, error, refused⟩ := passed_none stops
    cases feedHeader1_error refused
    exact .inl (by simp only [refused])
  | header2 =>
    simp only [state] at stops
    obtain ⟨after, error, refused⟩ := passed_none stops
    cases feedHeader2_error refused
    exact .inl (by simp only [refused])
  | extLen =>
    simp only [state] at stops
    obtain ⟨after, error, refused⟩ := passed_none stops
    cases feedExtLen_error refused
    exact .inl (by simp only [refused])
  | mask =>
    simp only [state] at stops
    split at stops
    next finished => exact .inr (.inl ⟨rfl, by simp only [if_pos finished]⟩)
    · cases stops
  | payload => exact .inr (.inr ⟨rfl, rfl⟩)

/-- A call that is not refused for more than want of room keeps the invariant. -/
theorem feedLoop_sane (capacity : Nat) (data : Bytes) (pos : Nat) (sane : Sane parser)
    (fine : ∀ error, (feedLoop capacity parser pos data).outcome = .error error → error = .again ∨ error = .overflow) :
    Sane (feedLoop capacity parser pos data).parser := by
  induction data generalizing parser pos with
  | nil => exact sane
  | cons byte rest ih =>
    cases goes : onward parser byte with
    | some after =>
      rw [feedLoop_onward goes] at fine ⊢
      exact ih (pos + 1) (onward_sane sane goes) fine
    | none =>
      rcases feedLoop_stops goes capacity pos with refused | ⟨state, emitted⟩ | ⟨state, paid⟩
      · rcases fine _ refused with impossible | impossible
        all_goals cases impossible
      · obtain ⟨after, reset, kept⟩ := empty_sane sane state byte
        rw [emitted, emitEmptyFrame, reset]
        exact kept
      · rw [paid]
        rcases payload_sane sane state capacity pos (byte :: rest) with full | ⟨after, msg, used, fed, kept, -⟩
        · rw [full]
          exact sane
        · rw [fed]
          exact kept

private theorem endured_sane (endured : Endured parser) : Sane parser := by
  induction endured with
  | init => exact sane_init
  | fed endured data capacity fine ih => exact feedLoop_sane capacity data 0 ih fine

/-- However the parser has been called, its fields agree; and on every turn that
a further call can take, the indices are in range, nothing underflows, and a
frame is reset without an error. -/
theorem parser_invariant {parser : WsParser} (endured : Endured parser) :
    Consistent parser ∧ ∀ data, ∀ turn ∈ turns parser data, Consistent turn.1 ∧ Guarded turn.1 turn.2.1 turn.2.2 := by
  have sane := endured_sane endured
  refine ⟨sane.consistent, fun data turn member => ?_⟩
  have here := turns_sane sane turn member
  exact ⟨here.consistent, here.guarded _ _⟩

def starved : WsParser := (wsParserFeed wsParserInit [137, 129, 1, 2, 3, 4, 5] 0).parser

theorem parser_invariant_starved : starved.state = .payload ∧ Consistent starved ∧ Guarded starved 5 [] := by
  have refused : (wsParserFeed wsParserInit [137, 129, 1, 2, 3, 4, 5] 0).outcome = .error .overflow := rfl
  have endured : Endured starved := .fed .init _ 0 fun error same => .inr (Except.error.inj (same.symm.trans refused))
  obtain ⟨consistent, turns⟩ := parser_invariant endured
  exact ⟨by decide, consistent, (turns [5] (starved, 5, []) List.mem_cons_self).2⟩

end Sockify.Proofs.ParserInvariant
