import Sockify.Proofs.ClientStream
import Sockify.Proofs.ControlPieces
import Sockify.Proofs.LengthFields

/-! What the client means by its frames reaches the target: whatever the keys,
the forms of the lengths, the fragments and the control frames between them,
and however the bytes arrive. -/

namespace Sockify.Proofs.ClientMessages
open Sockify Behaviour Soundness Lifetimes Streams BufferQueue Framing ParserCursor ClientStream

variable {config : Config} {early : Prop} {w after : World} {id : SessionId} {frame : ClientFrame}
  {frames : List ClientFrame} {seen rest : Bytes}

/-! What a receiver is told by a frame. -/

def frameHead (frame : ClientFrame) : Bytes :=
  headByte frame.fin frame.opcode :: (lengthField true frame.payload.length ++ frame.key)

private theorem encode_eq (frame : ClientFrame) : frame.encode = frameHead frame ++ masked frame.key frame.payload := by
  simp [ClientFrame.encode, frameHead]

/-- A receiver knows the end of a header when it comes. -/
theorem complete_iff (formed : frame.WellFormed) (front : seen <+: frameHead frame) :
    complete seen = true ↔ seen = frameHead frame := by
  obtain ⟨first, extension, spells⟩ := LengthFields.spelled true formed.length
  have size : (frameHead frame).length = 6 + extension.length := by
    simp only [frameHead, spells.field, List.length_cons, List.length_append, formed.key]
    omega
  rw [complete, decide_eq_true_eq]
  constructor
  · rintro ⟨two, whole⟩
    apply front.eq_of_length
    obtain ⟨a, behind, rfl⟩ := List.exists_cons_of_length_pos (show 0 < seen.length by omega)
    obtain ⟨b, part, rfl⟩ := List.exists_cons_of_length_pos (show 0 < behind.length by simp at two; omega)
    rw [frameHead, spells.field, List.cons_append, List.cons_prefix_cons, List.cons_prefix_cons] at front
    obtain ⟨-, rfl, -⟩ := front
    rw [whole, size, headerLength, List.getD_cons_succ, List.getD_cons_zero, spells.size]
  · rintro rfl
    refine ⟨by omega, ?_⟩
    rw [size, headerLength, frameHead, spells.field]
    simp [spells.size]

private theorem frameHead_fields (formed : frame.WellFormed) :
    payloadLength (frameHead frame) = frame.payload.length ∧
    opcodeOf (frameHead frame) = frame.opcode ∧ keyOf (frameHead frame) = frame.key := by
  obtain ⟨first, extension, spells⟩ := LengthFields.spelled true formed.length
  have low : frame.opcode ≤ 15 := by
    have known := formed.opcode
    simp only [List.mem_cons, List.not_mem_nil, or_false] at known
    omega
  refine ⟨?_, ControlPieces.headByte_opcode frame.fin low, ?_⟩
  · rw [frameHead, spells.field, List.cons_append]
    exact spells.reads _ _
  · have behind : 2 + extension.length = extension.length + 1 + 1 := by omega
    rw [keyOf, frameHead, spells.field, List.cons_append, List.getD_cons_succ, List.getD_cons_zero, spells.size, behind,
      List.drop_succ_cons, List.drop_succ_cons, List.drop_left]

/-- Before the last byte of a header nothing is told. -/
theorem frameHead_reads (formed : frame.WellFormed) (whole : seen ++ rest = frameHead frame) (some_ : rest ≠ []) :
    (Cursor.header seen).signals rest =
        List.replicate (rest.length - 1) .quiet ++ [if frame.payload.length = 0 then .empty frame.opcode else .quiet] ∧
      (Cursor.header seen).advance rest =
        if frame.payload.length = 0 then start else .payload frame.opcode frame.key 0 frame.payload.length := by
  induction rest generalizing seen with
  | nil => exact absurd rfl some_
  | cons byte more ih =>
    have layout : seen ++ [byte] ++ more = frameHead frame := by rw [← whole, List.append_assoc, List.singleton_append]
    have ends := complete_iff formed ⟨more, layout⟩
    cases more with
    | nil =>
      rw [List.append_nil] at layout
      obtain ⟨length, opcode, key⟩ := frameHead_fields formed
      have full := ends.mpr layout
      rw [layout] at full
      simp [Cursor.signals, Cursor.signal, Cursor.step, layout, full, length, opcode, key, start]
    | cons next more =>
      have part : complete (seen ++ [byte]) = false := by
        rw [← Bool.not_eq_true, ends]
        intro same
        rw [same] at layout
        simp at layout
      obtain ⟨signals, place⟩ := ih layout (by simp)
      have step : (Cursor.header seen).step byte = .header (seen ++ [byte]) := by simp [Cursor.step, part]
      have quiet : (Cursor.header seen).signal byte = .quiet := by simp [Cursor.signal, part]
      rw [Cursor.signals, Cursor.advance_cons, step, quiet, signals, place]
      simp [List.replicate_succ]

/-- A frame tells its payload and nothing else, and the next one begins behind it. -/
theorem frame_reads (formed : frame.WellFormed) :
    (∃ count, start.signals frame.encode = List.replicate count .quiet ++ delivery frame.opcode frame.payload) ∧
      start.advance frame.encode = start := by
  obtain ⟨signals, place⟩ := frameHead_reads formed (List.nil_append _) (List.cons_ne_nil _ _)
  rw [encode_eq, Cursor.signals_append, Cursor.advance_append, start, signals, place]
  by_cases empty : frame.payload.length = 0
  · obtain none := List.eq_nil_of_length_eq_zero empty
    refine ⟨⟨(frameHead frame).length - 1, ?_⟩, ?_⟩
    · simp [none, masked, Cursor.signals, delivery, frameHead]
    · simp [none, masked, start]
  · rw [if_neg empty, if_neg empty,
        payload_signals _ _ _ _ _ (by rw [FrameGrammar.masked_length]), FrameGrammar.unmask_masked,
      payload_advance _ _ _ _ _ (by omega) (by rw [FrameGrammar.masked_length]),
        if_pos (by rw [FrameGrammar.masked_length])]
    refine ⟨⟨(frameHead frame).length, ?_⟩, rfl⟩
    have some_ : 0 < (frameHead frame).length := by simp [frameHead]
    obtain ⟨byte, more, payload⟩ := List.exists_cons_of_length_pos (Nat.pos_of_ne_zero empty)
    obtain ⟨count, same⟩ : ∃ count, (frameHead frame).length = count + 1 := ⟨_, (Nat.sub_add_cancel some_).symm⟩
    rw [same, payload, Nat.add_sub_cancel, List.replicate_succ']
    rfl

/-! Frames one behind the other. -/

/-- What the data frames carry before the first CLOSE frame. -/
def carried : List ClientFrame → Bytes
  | [] => []
  | frame :: rest =>
    if frame.opcode = Opcode.close then [] else (if frame.opcode ≤ 2 then frame.payload else []) ++ carried rest

theorem frames_read (formed : ∀ frame ∈ frames, frame.WellFormed) :
    dataOf (start.signals (frames.flatMap ClientFrame.encode)) = carried frames := by
  induction frames with
  | nil => rfl
  | cons frame rest ih =>
    obtain ⟨⟨count, signals⟩, place⟩ := frame_reads (formed frame List.mem_cons_self)
    rw [List.flatMap_cons, Cursor.signals_append, signals, place, dataOf_append,
      dataOf_append, closed_append, dataOf_quiet, closed_quiet,
      dataOf_delivery, closed_delivery, ih fun frame member => formed frame (List.mem_cons_of_mem _ member), carried]
    by_cases closing : frame.opcode = Opcode.close
    · simp [closing, Opcode.close]
    · simp only [Opcode.close] at closing ⊢
      simp [closing]

/-- What has come so far tells the beginning of what the whole tells. -/
theorem dataOf_prefix (cursor : Cursor) {first whole : Bytes} (front : first <+: whole) :
    dataOf (cursor.signals first) <+: dataOf (cursor.signals whole) := by
  obtain ⟨last, rfl⟩ := front
  rw [Cursor.signals_append, dataOf_append]
  exact List.prefix_append _ _

/-- The last step of a session sends nothing to its target. -/
theorem ends_delivered {m : Moment} {t : Session} {l : List Io} {h : Bytes} (ending : Ends early m ⟨t, l, h⟩) :
    delivered .target l = delivered .target m.log ∧ ∃ more, received .client l = received .client m.log ++ more := by
  rcases ending with client | target
  · cases client <;> exact ⟨by simp, [], by simp⟩
  · cases target <;> exact ⟨by simp, [], by simp⟩

private theorem front_arrives {m : Moment} {s₀ : Session} {l₀ grown : List Io}
    (incoming : Incoming config s₀ l₀ m grown rest) (between : cursor s₀.wsParser = start)
    (formed : ∀ frame ∈ frames, frame.WellFormed)
    (sent : received .client m.log <+: received .client l₀ ++ frames.flatMap ClientFrame.encode) :
    delivered .target m.log <+: delivered .target l₀ ++ contents s₀.clientToTarget ++ carried frames := by
  have bytes := incoming.bytes
  rw [incoming.log, received_append, incoming.reads, List.prefix_append_right_inj] at sent
  have parsed : fed grown <+: frames.flatMap ClientFrame.encode := (List.prefix_append _ _).trans sent
  have told : dataOf (start.signals (fed grown)) <+: carried frames := frames_read formed ▸ dataOf_prefix start parsed
  calc delivered .target m.log
      <+: delivered .target m.log ++ contents m.session.clientToTarget := List.prefix_append _ _
    _ = delivered .target l₀ ++ contents s₀.clientToTarget ++ dataOf (start.signals (fed grown)) := by
      rw [bytes, between]
    _ <+: delivered .target l₀ ++ contents s₀.clientToTarget ++ carried frames :=
      List.prefix_append_right_inj _ |>.mpr told

/-- A client whose parser stands between two frames goes on with any well-formed
frames. Whatever the run, and however much of them has come: what the target
gets behind what it had coming is the beginning of what the frames carry before
the first CLOSE, with the masks taken off; when all of them have come and the
session lives, the target has all of it, but for what the ring buffer holds. -/
theorem client_messages_arrive {config : Config} {w after : World} {id : SessionId} {s : Session}
    {frames : List ClientFrame} (reachable : Reachable config w) (alive : w.session? id = some s)
    (done : s.handshakeDone = true) (between : cursor s.wsParser = start)
    (formed : ∀ frame ∈ frames, frame.WellFormed) (run : Runs (fun _ _ _ => True) w after)
    (sent : received .client (after.log id) <+: received .client (w.log id) ++ frames.flatMap ClientFrame.encode) :
    delivered .target (after.log id) <+: delivered .target (w.log id) ++ contents s.clientToTarget ++ carried frames ∧
    ∀ t, after.session? id = some t →
      received .client (after.log id) = received .client (w.log id) ++ frames.flatMap ClientFrame.encode →
      delivered .target (after.log id) ++ contents t.clientToTarget =
        delivered .target (w.log id) ++ contents s.clientToTarget ++ carried frames := by
  have sound := ((reachable_invariant reachable).lived id s alive).sound
  have fate := reachable_fate reachable alive run
  generalize after.log id = log at *
  cases state : after.session? id with
  | some t =>
    rw [state] at fate
    cases fate with
    | kept path =>
      obtain ⟨grown, rest, incoming⟩ := path_underway sound done path
      refine ⟨front_arrives incoming between formed sent, fun t' same whole => ?_⟩
      obtain rfl := Option.some.inj same
      have log : log = w.log id ++ grown := incoming.log
      rw [log, received_append, List.append_cancel_left_eq] at whole
      have bytes := incoming.bytes
      rwa [← incoming.settled, whole, between, frames_read formed] at bytes
  | none =>
    rw [state] at fate
    cases fate with
    | @released m t log' hand path ending =>
      obtain ⟨grown, rest, incoming⟩ := path_underway sound done path
      obtain ⟨same, more, reads⟩ := ends_delivered ending
      have early : received .client m.log <+: received .client (log' ++ [.release t]) := ⟨more, by simp [reads]⟩
      have front := front_arrives incoming between formed (early.trans sent)
      exact ⟨by simpa [same] using front, fun _ same => (by cases same)⟩

def spokenFrames : List ClientFrame := [⟨true, 2, [1, 2, 3, 4], [9, 11, 9]⟩, ⟨true, 10, [0, 0, 0, 0], []⟩]

def spoken : World :=
  ((opened (sampleConfig 64) true).after
    (.scripted [.ok [130, 131, 1, 2, 3, 4, 8], .error .again] true 0) (.client 0 .reading)).after
    (.scripted [.ok [9, 10, 138, 128, 0, 0, 0, 0], .error .again] true 0) (.client 0 .reading)

theorem client_messages_arrive_spoken :
    ∃ s t, (opened (sampleConfig 64) true).session? 0 = some s ∧ spoken.session? 0 = some t ∧
    delivered .target (spoken.log 0) ++ contents t.clientToTarget =
      delivered .target ((opened (sampleConfig 64) true).log 0) ++ contents s.clientToTarget ++ [9, 11, 9] := by
  have opens : Reachable (sampleConfig 64) (opened (sampleConfig 64) true) :=
    opened_runs trivial trivial (by decide +kernel)
  obtain ⟨run, first, last, ready, whole⟩ : Runs (fun _ _ _ => True) (opened (sampleConfig 64) true) spoken ∧
      (opened (sampleConfig 64) true).session? 0 ≠ none ∧ spoken.session? 0 ≠ none ∧
      (∀ s ∈ (opened (sampleConfig 64) true).session? 0, s.handshakeDone = true ∧ cursor s.wsParser = start) ∧
      received .client (spoken.log 0) =
        received .client ((opened (sampleConfig 64) true).log 0) ++ spokenFrames.flatMap ClientFrame.encode :=
    And.imp_left (Runs.next_of (Runs.next .refl _ _ trivial) trivial) (by decide +kernel)
  obtain ⟨s, alive⟩ := Option.ne_none_iff_exists'.mp first
  obtain ⟨t, still⟩ := Option.ne_none_iff_exists'.mp last
  obtain ⟨done, between⟩ := ready s alive
  have formed : ∀ frame ∈ spokenFrames, frame.WellFormed := by decide
  obtain ⟨-, arrives⟩ := client_messages_arrive opens alive done between formed run (by rw [whole])
  exact ⟨s, t, alive, still, arrives t still whole⟩

end Sockify.Proofs.ClientMessages
