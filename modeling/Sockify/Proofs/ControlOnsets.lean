import Sockify.Proofs.ParserSegmentation

/-! Where the bytes of one read come to the payload of a control frame. The
parser delivers a piece of the frame there, and only if it has room for all of
the payload that is still to come. -/

namespace Sockify.Proofs.ControlOnsets
open Sockify Framing Driving ParserCursor

/-- Whether a byte comes to the payload of a frame of this opcode, for the first
time in the frame or in the read, and how much of the payload is then to come. -/
def onset (opcode : Nat) (fresh : Bool) : Cursor → UInt8 → Option Nat
  | .header seen, byte => if (Cursor.header seen).signal byte = .empty opcode then some 0 else none
  | .payload current _ offset remaining, _ =>
    if current = opcode ∧ (fresh = true ∨ offset = 0) then some remaining else none

/-- The frames of this opcode that the bytes come to: for each, the data in
front of it, counted from `stored`, and the payload to come. -/
def onsets (opcode : Nat) : Bool → Nat → Cursor → Bytes → List (Nat × Nat)
  | _, _, _, [] => []
  | fresh, stored, place, byte :: rest =>
    ((onset opcode fresh place byte).map fun need => (stored, need)).toList ++
      onsets opcode false (stored + (dataOf [place.signal byte]).length) (place.step byte) rest

/-- No piece of a frame of this opcode has been cut short within the read. -/
def Settled (opcode : Nat) (fresh : Bool) (place : Cursor) : Prop :=
  fresh = true ∨ ∀ key offset remaining, place = .payload opcode key offset remaining → offset = 0

variable {opcode capacity stored pos : Nat} {fresh : Bool} {place : Cursor} {parser middle : WsParser} {byte : UInt8}
variable {part rest data : Bytes} {result : FeedResult}

theorem settled_start : Settled opcode fresh start := .inr fun _ _ _ impossible => nomatch impossible

theorem onsets_quiet (quiet : place.signal byte = .quiet) :
    onsets opcode fresh stored place (byte :: rest) = onsets opcode false stored (place.step byte) rest := by
  cases place with
  | header seen => simp [onsets, onset, quiet, dataOf]
  | payload => cases quiet

theorem onsets_empty {current : Nat} (ended : place.signal byte = .empty current) :
    onsets opcode fresh stored place (byte :: rest) =
      (if current = opcode then [(stored, 0)] else []) ++ onsets opcode false stored (place.step byte) rest := by
  cases place with
  | header seen =>
    by_cases same : current = opcode
    · simp [onsets, onset, ended, same, dataOf]
    · simp [onsets, onset, ended, same, dataOf]
  | payload => cases ended

private theorem settled_quiet (quiet : place.signal byte = .quiet) : Settled opcode false (place.step byte) := by
  refine .inr fun key offset remaining reached => ?_
  cases place with
  | header seen =>
    simp only [Cursor.step] at reached
    split at reached
    · split at reached
      · cases reached
      · cases reached
        rfl
    · cases reached
  | payload => cases quiet

private theorem dataOf_byte (current : Nat) (value : UInt8) :
    (dataOf [.byte current value]).length = if current ≤ 2 then 1 else 0 := by
  have single := dataOf_bytes current [value]
  rw [List.map_singleton] at single
  rw [single]
  split <;> rfl

theorem onsets_payload {current offset remaining : Nat} {key : Bytes} :
    onsets opcode fresh stored (.payload current key offset remaining) (byte :: rest) =
      (if current = opcode ∧ (fresh = true ∨ offset = 0) then [(stored, remaining)] else []) ++
        onsets opcode false (stored + if current ≤ 2 then 1 else 0)
          ((Cursor.payload current key offset remaining).step byte) rest := by
  rw [onsets, Cursor.signal, dataOf_byte, onset]
  congr 1
  split <;> rfl

/-- A part of a payload. Nothing begins behind its first byte. -/
theorem onsets_part {current offset remaining : Nat} {key : Bytes} (left : 0 < remaining)
    (fits : part.length ≤ remaining) (some_ : part ≠ []) :
    onsets opcode fresh stored (.payload current key offset remaining) (part ++ rest) =
      (if current = opcode ∧ (fresh = true ∨ offset = 0) then [(stored, remaining)] else []) ++
        onsets opcode false (stored + if current ≤ 2 then part.length else 0)
          ((Cursor.payload current key offset remaining).advance part) rest := by
  induction part generalizing fresh stored offset remaining with
  | nil => exact absurd rfl some_
  | cons byte more ih =>
    rw [List.cons_append, onsets_payload, Cursor.advance_cons]
    congr 1
    by_cases ended : more = []
    · rw [ended]
      rfl
    · have count : 0 < more.length := List.length_pos_iff.mpr ended
      rw [List.length_cons] at fits ⊢
      have grows : stored + (if current ≤ 2 then 1 else 0) + (if current ≤ 2 then more.length else 0) =
          stored + if current ≤ 2 then more.length + 1 else 0 := by
        split <;> omega
      have moves : (Cursor.payload current key offset remaining).step byte =
          .payload current key (offset + 1) (remaining - 1) :=
        if_neg (by omega)
      rw [moves, ih (by omega) (by omega) ended, if_neg (by simp), List.nil_append, grows]

/-- What one call has to do with the frames of an opcode. A call that delivers a
piece of one has used up the read or the frame. -/
def Reaches (opcode capacity : Nat) (fresh : Bool) (stored : Nat) (place : Cursor) (pos : Nat)
    (data : Bytes) (result : FeedResult) : Prop :=
  match result.outcome with
  | .ok msg => ∃ used, result.used = pos + used ∧
      if msg.opcode = opcode then (data.drop used = [] ∨ cursor result.parser = start) ∧ ∃ need, need ≤ capacity ∧
        onsets opcode fresh stored place data =
          (stored, need) :: onsets opcode false stored (cursor result.parser) (data.drop used)
      else Settled opcode false (cursor result.parser) ∧ onsets opcode fresh stored place data =
        onsets opcode false (stored + if msg.opcode ≤ 2 then msg.payload.length else 0)
          (cursor result.parser) (data.drop used)
  | .error .again => onsets opcode fresh stored place data = []
  | .error .overflow =>
    result.parser.opcode = opcode → ∃ need rest, capacity < need ∧
      need ≤ leastCapacity ∧ onsets opcode fresh stored place data = (stored, need) :: rest
  | .error _ => True

theorem Reaches.behind (quiet : place.signal byte = .quiet)
    (later : Reaches opcode capacity false stored (place.step byte) (pos + 1) rest result) :
    Reaches opcode capacity fresh stored place pos (byte :: rest) result := by
  unfold Reaches at later ⊢
  rw [onsets_quiet quiet]
  split
  next outcome =>
    rw [outcome] at later
    obtain ⟨used, total, reaches⟩ := later
    exact ⟨used + 1, by omega, reaches⟩
  next outcome => rwa [outcome] at later
  next outcome => rwa [outcome] at later
  · trivial

/-- A call in the payload. -/
theorem feedPayload_reaches (data : Bytes) (valid : Valid parser)
    (control : isControlOpcode opcode = true) (room : 0 < capacity)
    (settled : Settled opcode fresh (cursor parser)) (state : parser.state = .payload)
    (some_ : data ≠ []) :
    Reaches opcode capacity fresh stored (cursor parser) pos data (feedPayload capacity parser pos data) := by
  have phase := valid.phase
  simp only [Phase, state] at phase
  have left := phase.2.1
  have here : cursor parser = .payload parser.opcode parser.mask parser.payloadOffset parser.payloadRemaining := by
    simp [cursor, state]
  have begins : parser.opcode = opcode → parser.opcode = opcode ∧ (fresh = true ∨ parser.payloadOffset = 0) :=
    fun same => ⟨same, settled.imp_right fun early => early _ _ _ (same ▸ here)⟩
  by_cases starves : isControlOpcode parser.opcode = true ∧ parser.payloadRemaining > capacity
  · rw [feedPayload, if_neg (Nat.ne_of_gt room), if_pos starves]
    intro same
    obtain ⟨byte, rest, rfl⟩ := List.exists_cons_of_ne_nil some_
    rw [here, onsets_payload, if_pos (begins same)]
    exact ⟨_, _, starves.2, ParserSegmentation.control_short valid state starves.1, rfl⟩
  · obtain ⟨after, msg, used, fed, amount, kind, payload, delivered⟩ :=
      feedPayload_delivers pos valid state some_ room starves
    rw [fed]
    have count : 0 < data.length := List.length_pos_iff.mpr some_
    have size : (data.take used).length = used := by rw [List.length_take]; omega
    have part : data.take used ≠ [] := List.length_pos_iff.mp (by omega)
    have paid : msg.payload.length = used := by rw [payload, unmask_length, size]
    have place : cursor after = (Cursor.payload
        parser.opcode parser.mask parser.payloadOffset parser.payloadRemaining).advance (data.take used) :=
      here ▸ delivered.cursor
    have onward : onsets opcode fresh stored (cursor parser) data =
        (if parser.opcode = opcode ∧ (fresh = true ∨ parser.payloadOffset = 0)
          then [(stored, parser.payloadRemaining)] else []) ++
          onsets opcode false (stored + if parser.opcode ≤ 2 then used else 0) (cursor after) (data.drop used) := by
      conv_lhs => rw [here, ← List.take_append_drop used data]
      rw [onsets_part left (by omega) part, place, size]
    refine ⟨used, rfl, ?_⟩
    split
    next same =>
      have current : parser.opcode = opcode := kind.symm.trans same
      have short : parser.payloadRemaining ≤ capacity := by
        by_contra long
        exact starves ⟨current ▸ control, by omega⟩
      have high : ¬ parser.opcode ≤ 2 := by
        have eight : 8 ≤ opcode := by simpa [isControlOpcode] using control
        omega
      refine ⟨?_, parser.payloadRemaining, short, ?_⟩
      · rw [place, payload_advance _ _ _ _ _ left (by omega)]
        by_cases whole : data.length ≤ used
        · exact .inl (List.drop_eq_nil_of_le whole)
        · exact .inr (if_pos (by omega))
      · rw [onward, if_pos (begins current), if_neg high]
        rfl
    next other =>
      have current : parser.opcode ≠ opcode := fun same => other (kind.trans same)
      refine ⟨.inr fun key offset remaining reached => ?_, ?_⟩
      · rw [place, payload_advance _ _ _ _ _ left (by omega)] at reached
        split at reached
        · cases reached
        · exact absurd (Cursor.payload.inj reached).1 current
      · rw [onward, if_neg fun both => current both.1, kind, paid]
        rfl

private theorem feedLoop_reaches (control : isControlOpcode opcode = true) (room : 0 < capacity)
    (data : Bytes) (parser : WsParser) (pos : Nat) (valid : Valid parser)
    (settled : Settled opcode fresh (cursor parser)) :
    Reaches opcode capacity fresh stored (cursor parser) pos data (feedLoop capacity parser pos data) := by
  induction data generalizing parser pos fresh with
  | nil => rfl
  | cons byte rest ih =>
    have onward : ∀ {middle : WsParser}, Follows parser middle byte →
        Reaches opcode capacity fresh stored (cursor parser) pos (byte :: rest)
        (feedLoop capacity middle (pos + 1) rest) := by
      intro middle follows
      have later := ih middle (pos + 1) follows.valid (follows.cursor ▸ settled_quiet follows.quiet)
      rw [follows.cursor] at later
      exact later.behind follows.quiet
    unfold feedLoop
    split
    next state =>
      split
      next failed => simp [Reaches, feedHeader1_error failed]
      next fed => exact onward (feedHeader1_follows valid state fed)
    next state =>
      split
      next failed => simp [Reaches, feedHeader2_error failed]
      next fed => exact onward (feedHeader2_follows valid state fed)
    next state =>
      split
      next failed => simp [Reaches, feedExtLen_error failed]
      next fed => exact onward (feedExtLen_follows valid state fed)
    next state =>
      simp only
      split
      next finished =>
        obtain ⟨moved, heard, after, reset, cleared, restarted⟩ := feedMask_empty valid state finished
        have kind : (feedMask parser byte).opcode = parser.opcode := by simp only [feedMask]; split <;> rfl
        simp only [emitEmptyFrame, reset]
        refine ⟨1, rfl, ?_⟩
        rw [onsets_empty heard, moved]
        simp only [prepareMessage, kind,
          restarted, List.drop_one, List.tail_cons, List.length_nil, ite_self, Nat.add_zero]
        split
        next same => exact ⟨.inr trivial, 0, Nat.zero_le _, rfl⟩
        next other => exact ⟨settled_start, rfl⟩
      next unfinished => exact onward (feedMask_follows valid state unfinished)
    next state => exact feedPayload_reaches (byte :: rest) valid control room settled state (List.cons_ne_nil byte rest)

/-- One call of the parser on the bytes of a read. -/
theorem wsParserFeed_reaches (control : isControlOpcode opcode = true) (room : 0 < capacity)
    (data : Bytes) (valid : Valid parser) (settled : Settled opcode fresh (cursor parser)) :
    Reaches opcode capacity fresh stored (cursor parser) 0 data (wsParserFeed parser data capacity) :=
  feedLoop_reaches control room data parser 0 valid settled

end Sockify.Proofs.ControlOnsets
