import Sockify.Driving
import Sockify.Proofs.ParserCursor

/-! The parser does not depend on how its input is cut, nor on how much payload
it may deliver at once: every drive is the drive that feeds single bytes. -/

namespace Sockify.Proofs.ParserSegmentation
open Sockify Driving ParserCursor

def feedByte (parser : WsParser) (byte : UInt8) : FeedResult := wsParserFeed parser [byte] leastCapacity

/-- The drive that feeds single bytes. -/
def follow : WsParser → Bytes → Driven
  | parser, [] => ⟨parser, 0, [], none⟩
  | parser, byte :: rest =>
    match (feedByte parser byte).outcome with
    | .ok msg =>
      let last := follow (feedByte parser byte).parser rest
      { last with consumed := last.consumed + 1, messages := msg :: last.messages }
    | .error .again =>
      let last := follow (feedByte parser byte).parser rest
      { last with consumed := last.consumed + 1 }
    | .error error => ⟨(feedByte parser byte).parser, 1, [], some error⟩

variable {parser after : WsParser} {byte : UInt8} {rest : Bytes} {msg : WsMessage} {error : Err} {used : Nat}

theorem follow_quiet (fed : feedByte parser byte = ⟨after, used, .error .again⟩) (rest : Bytes) :
    follow parser (byte :: rest) = { follow after rest with consumed := (follow after rest).consumed + 1 } := by
  simp [follow, fed]

theorem follow_piece (fed : feedByte parser byte = ⟨after, used, .ok msg⟩) (rest : Bytes) :
    follow parser (byte :: rest) =
      { follow after rest with
        consumed := (follow after rest).consumed + 1
        messages := msg :: (follow after rest).messages } := by
  simp [follow, fed]

theorem follow_refused (fed : feedByte parser byte = ⟨after, used, .error error⟩)
    (fatal : error ≠ .again) (rest : Bytes) :
    follow parser (byte :: rest) = ⟨after, 1, [], some error⟩ := by
  cases error with
  | again => exact absurd rfl fatal
  | _ => simp [follow, fed]

/-- Following is resumed where it stood. -/
theorem follow_append (first last : Bytes) (parser : WsParser) :
    follow parser (first ++ last) =
      if (follow parser first).failure = none then
        { parser := (follow (follow parser first).parser last).parser
          consumed := (follow parser first).consumed + (follow (follow parser first).parser last).consumed
          messages := (follow parser first).messages ++ (follow (follow parser first).parser last).messages
          failure := (follow (follow parser first).parser last).failure }
      else follow parser first := by
  induction first generalizing parser with
  | nil => simp [follow]
  | cons byte rest ih =>
    cases fed : feedByte parser byte with
    | mk after used outcome =>
      cases outcome with
      | ok msg =>
        rw [List.cons_append, follow_piece fed, follow_piece fed, ih]
        split
        · simp only [Driven.mk.injEq, List.cons_append, true_and, and_true]
          omega
        · rfl
      | error error =>
        by_cases more : error = .again
        · subst more
          rw [List.cons_append, follow_quiet fed, follow_quiet fed, ih]
          split
          · simp only [Driven.mk.injEq, true_and, and_true]
            omega
          · rfl
        · rw [List.cons_append, follow_refused fed more, follow_refused fed more]
          rfl

/-- These pieces, the first ones of them partial, make up this message. -/
inductive Pieces : WsMessage → List WsMessage → Prop
  | one (msg : WsMessage) : Pieces msg [msg]
  | more {piece whole rest} (partial_ : piece.frameComplete = false)
      (same : piece.opcode = whole.opcode) (pieces : Pieces whole rest) :
      Pieces { piece with payload := piece.payload ++ whole.payload, frameComplete := whole.frameComplete }
      (piece :: rest)

theorem assemble_pieces {pieces : List WsMessage} (made : Pieces msg pieces) (rest : List WsMessage) :
    assemble (pieces ++ rest) = assemble (msg :: rest) := by
  induction made with
  | one => rfl
  | @more piece whole later partial_ same made ih =>
    simp only [List.cons_append, assemble, ih]
    cases assemble rest with
    | nil => simp [join, partial_]
    | cons next last =>
      by_cases complete : whole.frameComplete = true
      · simp [join, partial_, complete]
      · simp [join, partial_, complete]

theorem pieces_opcode {pieces : List WsMessage} (made : Pieces msg pieces) :
    ∀ piece ∈ pieces, piece.opcode = msg.opcode := by
  induction made with
  | one =>
    intro piece member
    rw [List.mem_singleton.mp member]
  | @more first whole rest partial_ same made ih =>
    intro piece member
    rcases List.mem_cons.mp member with rfl | later
    · rfl
    · exact (ih piece later).trans same.symm

def paidOut (parser : WsParser) (part : Bytes) : WsParser :=
  { parser with
    payloadOffset := parser.payloadOffset + part.length
    payloadRemaining := parser.payloadRemaining - part.length }

/-- The piece that a part of a payload is delivered as. -/
def pieceOf (parser : WsParser) (part : Bytes) : WsMessage :=
  prepareMessage parser (unmask parser.mask parser.payloadOffset part)
    (decide (parser.payloadRemaining - part.length = 0))

def Paid (parser : WsParser) (part : Bytes) (after : WsParser) : Prop :=
  if parser.payloadRemaining - part.length = 0 then resetFrame (paidOut parser part) = .ok after
  else after = paidOut parser part

theorem Paid.unique {part : Bytes} {first last : WsParser} (one : Paid parser part first)
    (other : Paid parser part last) : first = last := by
  unfold Paid at one other
  split at one
  next ended =>
    rw [if_pos ended, one] at other
    exact Except.ok.inj other
  next more =>
    rw [if_neg more] at other
    exact one.trans other.symm

private theorem paidOut_cons (parser : WsParser) (byte : UInt8) (rest : Bytes) :
    paidOut (paidOut parser [byte]) rest = paidOut parser (byte :: rest) := by
  simp only [paidOut, List.length_cons, List.length_nil, WsParser.mk.injEq, true_and, and_true]
  omega

/-- A call in the payload delivers one piece, however long. -/
theorem feedPayload_part (capacity : Nat) (data : Bytes) (pos : Nat) (valid : Valid parser)
    (state : parser.state = .payload) (room : 0 < capacity)
    (fits : ¬ (isControlOpcode parser.opcode = true ∧ parser.payloadRemaining > capacity)) :
    ∃ after, feedPayload capacity parser pos data =
        ⟨after, pos + min (min data.length capacity) parser.payloadRemaining,
          .ok (pieceOf parser (data.take (min (min data.length capacity) parser.payloadRemaining)))⟩ ∧
      Paid parser (data.take (min (min data.length capacity) parser.payloadRemaining)) after := by
  have phase := valid.phase
  simp only [Phase, state] at phase
  obtain ⟨admitted, left, -⟩ := phase
  have amount : (if minSize data.length capacity > parser.payloadRemaining then parser.payloadRemaining
      else minSize data.length capacity) = min (min data.length capacity) parser.payloadRemaining := by
    rw [minSize_eq]
    split <;> omega
  obtain ⟨used, same⟩ : ∃ used, used = min (min data.length capacity) parser.payloadRemaining := ⟨_, rfl⟩
  have size : (data.take used).length = used := by rw [List.length_take]; omega
  simp only [feedPayload, if_neg (Nat.ne_of_gt room), if_neg fits, amount, ← same, Paid, pieceOf, paidOut, size]
  by_cases last : parser.payloadRemaining - used = 0
  · have header : validateFrameHeader (paidOut parser (data.take used)) = .ok () := admitted.header
    obtain ⟨fragmented, reset⟩ := resetFrame_admitted header
    simp only [paidOut, size] at reset
    rw [if_pos last, reset]
    exact ⟨_, rfl, by rw [if_pos last]⟩
  · rw [if_neg last]
    exact ⟨_, rfl, by rw [if_neg last]⟩

private theorem feedByte_payload (valid : Valid parser) (state : parser.state = .payload)
    (short : isControlOpcode parser.opcode = true → parser.payloadRemaining ≤ leastCapacity) (byte : UInt8) :
    ∃ after, feedByte parser byte = ⟨after, 1, .ok (pieceOf parser [byte])⟩ ∧ Paid parser [byte] after := by
  have phase := valid.phase
  simp only [Phase, state] at phase
  have one : min (min [byte].length leastCapacity) parser.payloadRemaining = 1 := by
    have left := phase.2.1
    simp only [List.length_cons, List.length_nil, leastCapacity]
    omega
  have room : ¬ (isControlOpcode parser.opcode = true ∧ parser.payloadRemaining > leastCapacity) := by
    intro crowded
    have fits := short crowded.1
    omega
  obtain ⟨after, fed, paid⟩ := feedPayload_part leastCapacity [byte] 0 valid state (by decide) room
  rw [one] at fed paid
  refine ⟨after, ?_, paid⟩
  simp only [feedByte, wsParserFeed, feedLoop, state]
  exact fed

/-- A frame that is let in leaves a parser on which the rest of it is let in. -/
theorem paidOut_valid (valid : Valid parser) (state : parser.state = .payload) {part : Bytes}
    (more : part.length < parser.payloadRemaining) : Valid (paidOut parser part) := by
  have phase := valid.phase
  simp only [Phase, state] at phase
  obtain ⟨admitted, left, whole⟩ := phase
  refine ⟨valid.extension, valid.key, ?_⟩
  simp only [Phase, paidOut, state]
  exact ⟨⟨⟨admitted.opcode, admitted.known⟩, admitted.needed, admitted.length, admitted.header⟩, by omega, by omega⟩

theorem follow_part {part : Bytes} (valid : Valid parser) (state : parser.state = .payload)
    (short : isControlOpcode parser.opcode = true → parser.payloadRemaining ≤ leastCapacity) (some_ : part ≠ [])
    (fits : part.length ≤ parser.payloadRemaining) (paid : Paid parser part after) :
    ∃ pieces, follow parser part = ⟨after, part.length, pieces, none⟩ ∧ Pieces (pieceOf parser part) pieces := by
  induction part generalizing parser with
  | nil => exact absurd rfl some_
  | cons byte rest ih =>
    obtain ⟨next, fed, first⟩ := feedByte_payload valid state short byte
    rw [follow_piece fed]
    cases rest with
    | nil =>
      rw [first.unique paid]
      exact ⟨_, rfl, .one _⟩
    | cons second rest =>
      simp only [List.length_cons] at fits
      have more : ¬ parser.payloadRemaining - [byte].length = 0 := by
        simp only [List.length_cons, List.length_nil]; omega
      rw [Paid, if_neg more] at first
      subst first
      have count : (paidOut parser [byte]).payloadRemaining - (second :: rest).length =
          parser.payloadRemaining - (byte :: second :: rest).length := by
        simp only [paidOut, List.length_cons, List.length_nil]
        omega
      have later : Paid (paidOut parser [byte]) (second :: rest) after := by
        rw [Paid, count, paidOut_cons]
        exact paid
      obtain ⟨pieces, followed, made⟩ :=
        ih (paidOut_valid valid state (by simp only [List.length_cons, List.length_nil]; omega)) state
          (fun control => Nat.le_trans (Nat.sub_le _ _) (short control)) (List.cons_ne_nil _ _)
          (by simp only [paidOut, List.length_cons, List.length_nil]; omega) later
      rw [followed]
      refine ⟨_, rfl, ?_⟩
      have whole : pieceOf parser (byte :: second :: rest) =
          { pieceOf parser [byte] with
            payload := (pieceOf parser [byte]).payload ++ (pieceOf (paidOut parser [byte]) (second :: rest)).payload
            frameComplete := (pieceOf (paidOut parser [byte]) (second :: rest)).frameComplete } := by
        simp only [pieceOf, count]
        rfl
      rw [whole]
      exact .more (by simpa [pieceOf, prepareMessage] using more) rfl made

/-- What one call on the bytes from `pos` on has in common with following them. -/
def Followed (parser : WsParser) (pos : Nat) (data : Bytes) (result : FeedResult) : Prop :=
  match result.outcome with
  | .ok msg => ∃ used pieces, result.used = pos + used ∧ 0 < used ∧ used ≤ data.length ∧
      follow parser (data.take used) = ⟨result.parser, used, pieces, none⟩ ∧ Pieces msg pieces
  | .error .again => result.used = pos + data.length ∧ follow parser data = ⟨result.parser, data.length, [], none⟩
  | .error error =>
    ∃ used, result.used = pos + used ∧ used ≤ data.length ∧ follow parser data = ⟨result.parser, used, [], some error⟩

theorem Followed.behind {pos : Nat} {result : FeedResult} (fed : feedByte parser byte = ⟨after, 1, .error .again⟩)
    (later : Followed after (pos + 1) rest result) : Followed parser pos (byte :: rest) result := by
  unfold Followed at later ⊢
  split
  next outcome =>
    rw [outcome] at later
    obtain ⟨count, pieces, total, some_, bounded, followed, made⟩ := later
    refine ⟨count + 1, pieces, by omega, by omega, by simpa using bounded, ?_, made⟩
    rw [List.take_succ_cons, follow_quiet fed, followed]
  next outcome =>
    rw [outcome] at later
    refine ⟨by rw [later.1, List.length_cons]; omega, ?_⟩
    rw [follow_quiet fed, later.2]
    rfl
  next error outcome other =>
    simp only [other] at later
    obtain ⟨count, total, bounded, followed⟩ := later
    refine ⟨count + 1, by omega, by simpa using bounded, ?_⟩
    rw [follow_quiet fed, followed]

private theorem followed_refused {pos : Nat} (fed : feedByte parser byte = ⟨after, 1, .error .protocol⟩)
    (rest : Bytes) :
    Followed parser pos (byte :: rest) ⟨after, pos + 1, .error .protocol⟩ :=
  ⟨1, rfl, by simp, follow_refused fed (by decide) rest⟩

/-- Control frames are short enough for any capacity that a drive uses. -/
theorem control_short (valid : Valid parser) (state : parser.state = .payload)
    (control : isControlOpcode parser.opcode = true) :
    parser.payloadRemaining ≤ leastCapacity := by
  have phase := valid.phase
  simp only [Phase, state] at phase
  obtain ⟨admitted, -, whole⟩ := phase
  have header := admitted.header
  simp only [validateFrameHeader, if_pos control] at header
  split at header
  · cases header
  next fine =>
    rw [leastCapacity]
    omega

/-- A call that stops in front of a control payload it has no room for. -/
structure Starved (capacity : Nat) (parser : WsParser) (pos : Nat) (data : Bytes) (result : FeedResult) : Prop where
  outcome : result.outcome = .error .overflow
  valid : Valid result.parser
  state : result.parser.state = .payload
  control : isControlOpcode result.parser.opcode = true
  long : capacity < result.parser.payloadRemaining
  follows : ∃ used, result.used = pos + used ∧
    used < data.length ∧ follow parser (data.take used) = ⟨result.parser, used, [], none⟩

theorem Starved.behind {capacity pos : Nat} {result : FeedResult}
    (fed : feedByte parser byte = ⟨after, 1, .error .again⟩)
    (later : Starved capacity after (pos + 1) rest result) :
    Starved capacity parser pos (byte :: rest) result := by
  obtain ⟨used, total, inside, followed⟩ := later.follows
  refine { later with follows := ⟨used + 1, by omega, by simpa using inside, ?_⟩ }
  rw [List.take_succ_cons, follow_quiet fed, followed]

private theorem feedLoop_follows {capacity : Nat} (room : 0 < capacity) (data : Bytes)
    (parser : WsParser) (pos : Nat) (valid : Valid parser) :
    Followed parser pos data (feedLoop capacity parser pos data) ∨
    Starved capacity parser pos data (feedLoop capacity parser pos data) := by
  induction data generalizing parser pos with
  | nil => exact .inl ⟨rfl, rfl⟩
  | cons byte rest ih =>
    unfold feedLoop
    split
    next state =>
      split
      next after error failed =>
        cases feedHeader1_error failed
        exact .inl (followed_refused (by simp [feedByte, wsParserFeed, feedLoop, state, failed]) rest)
      next after fed =>
        have single : feedByte parser byte = ⟨after, 1, .error .again⟩ := by
          simp [feedByte, wsParserFeed, feedLoop, state, fed]
        exact (ih after _ (feedHeader1_follows valid state fed).valid).imp (·.behind single) (·.behind single)
    next state =>
      split
      next after error failed =>
        cases feedHeader2_error failed
        exact .inl (followed_refused (by simp [feedByte, wsParserFeed, feedLoop, state, failed]) rest)
      next after fed =>
        have single : feedByte parser byte = ⟨after, 1, .error .again⟩ := by
          simp [feedByte, wsParserFeed, feedLoop, state, fed]
        exact (ih after _ (feedHeader2_follows valid state fed).valid).imp (·.behind single) (·.behind single)
    next state =>
      split
      next after error failed =>
        cases feedExtLen_error failed
        exact .inl (followed_refused (by simp [feedByte, wsParserFeed, feedLoop, state, failed]) rest)
      next after fed =>
        have single : feedByte parser byte = ⟨after, 1, .error .again⟩ := by
          simp [feedByte, wsParserFeed, feedLoop, state, fed]
        exact (ih after _ (feedExtLen_follows valid state fed).valid).imp (·.behind single) (·.behind single)
    next state =>
      simp only
      split
      next finished =>
        obtain ⟨-, -, after, reset, -⟩ := feedMask_empty valid state finished
        simp only [emitEmptyFrame, reset]
        have single : feedByte parser byte = ⟨after, 1, .ok (prepareMessage (feedMask parser byte) [] true)⟩ := by
          simp [feedByte, wsParserFeed, feedLoop, state, finished, emitEmptyFrame, reset]
        exact .inl ⟨1, _, rfl, Nat.one_pos, by simp, by rw [List.take_succ_cons, follow_piece single]; rfl, .one _⟩
      next unfinished =>
        have single : feedByte parser byte = ⟨feedMask parser byte, 1, .error .again⟩ := by
          simp [feedByte, wsParserFeed, feedLoop, state, unfinished]
        exact (ih _ _ (feedMask_follows valid state unfinished).valid).imp (·.behind single) (·.behind single)
    next state =>
      by_cases starves : isControlOpcode parser.opcode = true ∧ parser.payloadRemaining > capacity
      · refine .inr ?_
        rw [feedPayload, if_neg (Nat.ne_of_gt room), if_pos starves]
        exact ⟨rfl, valid, state, starves.1, starves.2, 0, rfl, by simp, rfl⟩
      · have left : 0 < parser.payloadRemaining := by
          have phase := valid.phase
          simp only [Phase, state] at phase
          exact phase.2.1
        obtain ⟨after, fed, paid⟩ := feedPayload_part capacity (byte :: rest) pos valid state room starves
        rw [fed]
        generalize amount : min (min (byte :: rest).length capacity) parser.payloadRemaining = used at *
        have size : ((byte :: rest).take used).length = used := by rw [List.length_take]; omega
        have some_ : 0 < used := by simp only [List.length_cons] at amount; omega
        obtain ⟨pieces, followed, made⟩ := follow_part valid state (control_short valid state)
          (by intro empty; rw [empty] at size; simp at size; omega) (by omega) paid
        rw [size] at followed
        exact .inl ⟨used, pieces, rfl, some_, by omega, followed, made⟩

/-- A call with room for any control frame. -/
theorem feedLoop_followed {capacity : Nat} (room : leastCapacity ≤ capacity) (data : Bytes)
    (parser : WsParser) (pos : Nat) (valid : Valid parser) :
    Followed parser pos data (feedLoop capacity parser pos data) := by
  rcases feedLoop_follows (Nat.lt_of_lt_of_le (by decide) room) data parser pos valid with followed | starved
  · exact followed
  · have short := control_short starved.valid starved.state starved.control
    have long := starved.long
    omega

/-- A call of a drive, as the bytes it uses are followed. -/
theorem wsParserFeed_followed {capacity : Nat} (room : leastCapacity ≤ capacity) (data : Bytes) (valid : Valid parser) :
    Followed parser 0 data (wsParserFeed parser data capacity) := feedLoop_followed room data parser 0 valid

/-- The parser takes these bytes without an error, and for frames of these kinds alone. -/
def Takes (kind : Nat → Prop) (parser : WsParser) (bytes : Bytes) : Prop :=
  (follow parser bytes).failure = none ∧ ∀ msg ∈ (follow parser bytes).messages, kind msg.opcode

section taking
variable {kind : Nat → Prop} {front back later : Bytes}

theorem Takes.first (whole : Takes kind parser (front ++ back)) : Takes kind parser front := by
  obtain ⟨fine, kinds⟩ := whole
  rw [follow_append] at fine kinds
  split at fine
  next going =>
    rw [if_pos going] at kinds
    exact ⟨going, fun msg member => kinds msg (List.mem_append_left _ member)⟩
  next failed => exact absurd fine failed

theorem Takes.last (whole : Takes kind parser (front ++ back)) : Takes kind (follow parser front).parser back := by
  obtain ⟨fine, kinds⟩ := whole
  rw [follow_append] at fine kinds
  split at fine
  next going =>
    rw [if_pos going] at kinds
    exact ⟨fine, fun msg member => kinds msg (List.mem_append_right _ member)⟩
  next failed => exact absurd fine failed

/-- A call on the front of these bytes delivers a piece, or asks for more, or has
no room for a control frame. -/
theorem feed_takes {capacity : Nat} {data : Bytes} {result : FeedResult} (room : 0 < capacity) (valid : Valid parser)
    (takes : Takes kind parser (data ++ later)) (fed : wsParserFeed parser data capacity = result) :
    (∃ msg, result.outcome = .ok msg ∧ kind msg.opcode ∧ Takes kind result.parser (data.drop result.used ++ later)) ∨
    (result.outcome = .error .again ∧ Takes kind result.parser later) ∨
    (result.outcome = .error .overflow ∧ kind result.parser.opcode ∧ isControlOpcode result.parser.opcode = true) := by
  rcases feedLoop_follows room data parser 0 valid with followed | starved
  · rw [← wsParserFeed, fed, Followed] at followed
    split at followed
    next msg outcome =>
      obtain ⟨used, pieces, total, some_, within, follows, made⟩ := followed
      obtain rfl : result.used = used := by omega
      have split : Takes kind parser (data.take result.used ++ (data.drop result.used ++ later)) := by
        rwa [← List.append_assoc, List.take_append_drop]
      refine .inl ⟨msg, outcome, ?_, ?_⟩
      · have front := split.first.2
        rw [follows] at front
        cases made with
        | one => exact front msg (List.mem_singleton.mpr rfl)
        | @more piece whole rest partial_ same made => exact front piece List.mem_cons_self
      · have back := split.last
        rwa [follows] at back
    next outcome =>
      have back := takes.last
      rw [followed.2] at back
      exact .inr (.inl ⟨outcome, back⟩)
    next error outcome other =>
      obtain ⟨used, -, -, follows⟩ := followed
      have fine := takes.first.1
      rw [follows] at fine
      cases fine
  · -- The control payload that does not fit is in the bytes, byte by byte.
    rw [← wsParserFeed, fed] at starved
    obtain ⟨used, total, inside, follows⟩ := starved.follows
    have split : Takes kind parser (data.take used ++ data.drop used) := by
      rw [List.take_append_drop]
      exact takes.first
    have rest := split.last
    rw [follows, List.drop_eq_getElem_cons inside] at rest
    obtain ⟨next, single, -⟩ :=
      feedByte_payload starved.valid starved.state (control_short starved.valid starved.state) data[used]
    have piece := rest.2 (pieceOf result.parser [data[used]]) (by rw [follow_piece single]; exact List.mem_cons_self)
    exact .inr (.inr ⟨starved.outcome, piece, starved.control⟩)

end taking

/-- Two drives that are told apart only by how they were cut. -/
structure Same (first last : Driven) : Prop where
  parser : first.parser = last.parser
  consumed : first.consumed = last.consumed
  frames : assemble first.messages = assemble last.messages
  failure : first.failure = last.failure

theorem drives_follow {pace : Pace} {chunks : List Bytes} {driven : Driven} (drives : Drives pace parser chunks driven)
    (roomy : Roomy pace) (valid : Valid parser) : Same driven (follow parser chunks.flatten) := by
  induction drives with
  | finished => exact ⟨rfl, rfl, rfl, rfl⟩
  | skipped rest ih => exact ih roomy valid
  | @again pace parser chunk chunks after used driven fed rest ih =>
    have kept := wsParserFeed_fed (Nat.lt_of_lt_of_le (by decide) (roomy 0)) chunk valid
    have followed := wsParserFeed_followed (roomy 0) chunk valid
    simp only [fed, Fed, Followed] at kept followed
    obtain ⟨same, all⟩ := followed
    have last := ih roomy.later kept.2.valid
    rw [List.flatten_cons, follow_append, all, if_pos rfl]
    exact ⟨last.parser, by rw [last.consumed, same, Nat.zero_add], by simpa using last.frames, last.failure⟩
  | @delivered pace parser chunk chunks after used msg driven fed rest ih =>
    have kept := wsParserFeed_fed (Nat.lt_of_lt_of_le (by decide) (roomy 0)) chunk valid
    have followed := wsParserFeed_followed (roomy 0) chunk valid
    simp only [fed, Fed, Followed] at kept followed
    obtain ⟨_, -, delivered⟩ := kept
    obtain ⟨count, pieces, same, -, -, front, made⟩ := followed
    rw [Nat.zero_add] at same
    subst same
    have last := ih roomy.later delivered.valid
    have whole : (chunk :: chunks).flatten = chunk.take used ++ (chunk.drop used :: chunks).flatten := by
      rw [List.flatten_cons, List.flatten_cons, ← List.append_assoc, List.take_append_drop]
    rw [whole, follow_append, front, if_pos rfl]
    refine ⟨last.parser, by rw [last.consumed], ?_, last.failure⟩
    rw [assemble_pieces made, assemble, assemble, last.frames]
  | @failed pace parser chunk chunks after used error fed fatal =>
    have followed := wsParserFeed_followed (roomy 0) chunk valid
    simp only [fed, Followed] at followed
    have stopped : ∃ count, used = 0 + count ∧
        count ≤ chunk.length ∧ follow parser chunk = ⟨after, count, [], some error⟩ := by
      cases error with
      | again => exact absurd rfl fatal
      | _ => exact followed
    obtain ⟨count, same, -, all⟩ := stopped
    rw [Nat.zero_add] at same
    subst same
    rw [List.flatten_cons, follow_append, all, if_neg (by simp)]
    exact ⟨rfl, rfl, rfl, rfl⟩

/-- Without room for payload, the parser stops at it or has not come to it. -/
theorem feedLoop_roomless (data : Bytes) (parser : WsParser) (pos : Nat) :
    (feedLoop 0 parser pos data).outcome = .error .overflow ∨
    feedLoop 0 parser pos data = feedLoop 1 parser pos data := by
  induction data generalizing parser pos with
  | nil => exact .inr rfl
  | cons byte rest ih =>
    cases state : parser.state with
    | header1 | header2 | extLen =>
      simp only [feedLoop, state]
      split
      · exact .inr rfl
      · exact ih _ _
    | mask =>
      simp only [feedLoop, state]
      split
      · exact .inr rfl
      · exact ih _ _
    | payload => exact .inl (by simp [feedLoop, state, feedPayload])

theorem fed_valid (capacity : Nat) (data : Bytes) (valid : Valid parser)
    (fine : (∃ msg, (wsParserFeed parser data capacity).outcome = .ok msg) ∨
      (wsParserFeed parser data capacity).outcome = .error .again) :
    Valid (wsParserFeed parser data capacity).parser := by
  have roomy : ∀ size, 0 < size → ((∃ msg, (wsParserFeed parser data size).outcome = .ok msg) ∨
      (wsParserFeed parser data size).outcome = .error .again) → Valid (wsParserFeed parser data size).parser := by
    intro size room fine
    have fed := wsParserFeed_fed room data valid
    rcases fine with ⟨msg, ok⟩ | again
    · simp only [Fed, ok] at fed
      obtain ⟨_, -, delivered⟩ := fed
      exact delivered.valid
    · simp only [Fed, again] at fed
      exact fed.2.valid
  cases capacity with
  | succ capacity => exact roomy _ (Nat.succ_pos _) fine
  | zero =>
    rcases feedLoop_roomless data parser 0 with full | same
    · rw [wsParserFeed, full] at fine
      rcases fine with ⟨_, impossible⟩ | impossible <;> cases impossible
    · rw [wsParserFeed, same] at fine ⊢
      exact roomy 1 Nat.one_pos fine

theorem reached_valid (reached : Reached parser) : Valid parser := by
  induction reached with
  | init => exact init_valid
  | fed _ data capacity fine valid => exact fed_valid capacity data valid fine

/-- Every call uses bytes or ends its chunk: any chunks are driven to their end
or to an error, with any capacities. -/
theorem drives_exist {pace : Pace} (roomy : Roomy pace) (chunks : List Bytes) (valid : Valid parser) :
    ∃ driven, Drives pace parser chunks driven := by
  induction chunks generalizing parser pace with
  | nil => exact ⟨_, .finished _ _⟩
  | cons chunk chunks outer =>
    induction size : chunk.length using Nat.strongRecOn generalizing parser pace chunk with
    | ind count inner =>
      have followed := wsParserFeed_followed (roomy 0) chunk valid
      have kept := fed_valid (pace 0) chunk valid
      cases fed : wsParserFeed parser chunk (pace 0) with
      | mk after used outcome =>
        rw [fed] at followed kept
        cases outcome with
        | ok msg =>
          obtain ⟨_, _, same, some_, bounded, -⟩ := followed
          obtain ⟨driven, rest⟩ := inner (chunk.drop used).length (by rw [List.length_drop]; simp only at same; omega)
            (chunk.drop used) roomy.later (kept (.inl ⟨msg, rfl⟩)) rfl
          exact ⟨_, .delivered fed rest⟩
        | error error =>
          by_cases more : error = .again
          · subst more
            obtain ⟨driven, rest⟩ := outer roomy.later (kept (.inr rfl))
            exact ⟨_, .again fed rest⟩
          · exact ⟨_, .failed fed more⟩

/-- Any chunks can be driven with any capacities, and two drives of the same
bytes, cut and paced in any two ways, agree. -/
theorem drives_agree {parser : WsParser} {chunks cuts : List Bytes} {pace tempo : Pace} (reached : Reached parser)
    (same : chunks.flatten = cuts.flatten) (roomy : Roomy pace) (wide : Roomy tempo) :
    (∃ first, Drives pace parser chunks first) ∧ (∃ last, Drives tempo parser cuts last) ∧
    ∀ first last, Drives pace parser chunks first → Drives tempo parser cuts last →
      first.consumed = last.consumed ∧ first.failure = last.failure ∧ first.parser = last.parser ∧
      assemble first.messages = assemble last.messages := by
  have valid := reached_valid reached
  refine ⟨drives_exist roomy chunks valid, drives_exist wide cuts valid, fun first last one other => ?_⟩
  have whole := drives_follow one roomy valid
  have again := drives_follow other wide valid
  rw [same] at whole
  exact ⟨whole.consumed.trans again.consumed.symm,
    whole.failure.trans again.failure.symm, whole.parser.trans again.parser.symm,
    whole.frames.trans again.frames.symm⟩

/-- A masked frame in one chunk, and in three of which one is empty. -/
theorem drives_agree_cut : ∃ first last, Drives (fun _ => 4096) wsParserInit [[0x82, 0x83, 1, 2, 3, 4, 5, 6, 7]] first ∧
    Drives (fun call => 125 + call) wsParserInit [[0x82, 0x83, 1, 2, 3], [], [4, 5, 6, 7]] last ∧
    assemble first.messages = assemble last.messages := by
  have wide : leastCapacity ≤ 4096 := by decide
  obtain ⟨⟨first, one⟩, ⟨last, other⟩, agree⟩ := @drives_agree wsParserInit [[0x82, 0x83, 1, 2, 3, 4, 5, 6, 7]]
    [[0x82, 0x83, 1, 2, 3], [], [4, 5, 6, 7]] (fun _ => 4096) (fun call => 125 + call) .init rfl (fun _ => wide)
    (fun _ => Nat.le_add_right _ _)
  exact ⟨first, last, one, other, (agree first last one other).2.2.2⟩

end Sockify.Proofs.ParserSegmentation
