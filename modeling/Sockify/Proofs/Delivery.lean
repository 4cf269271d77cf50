import Sockify.Proofs.AcceptValue
import Sockify.Proofs.ClosingHandshake
import Sockify.Proofs.LengthFields
import Sockify.Proofs.TargetStream
import Sockify.Receiver

/-! A client that is strict about the protocol never fails the connection over
what it receives, and the messages that it takes are the stream of the target. -/

namespace Sockify.Proofs.Delivery
open Sockify Behaviour Framing Receiver Streams Soundness Lifetimes BufferQueue History ClosingHandshake TargetStream

variable {config : Config} {early : Prop} {w : World} {m n : Moment} {seen rest payload : Bytes}
  {opcode length : Nat} {log : List Io}

/-! The answer to the request. -/

/-- Only a line feed closes the header block. -/
theorem answer_step {byte : UInt8} (other : byte ≠ 10) : (Reader.answer seen).step byte = .answer (seen ++ [byte]) := by
  refine if_neg fun ended => other ?_
  obtain ⟨front, same⟩ := ended
  have last := congrArg List.getLast? same
  simpa using last.symm

private theorem answer_runs {bytes : Bytes} (other : ∀ byte ∈ bytes, byte ≠ 10) :
    Reads (.answer seen) bytes [] (.answer (seen ++ bytes)) := by
  induction bytes generalizing seen with
  | nil => simpa using Reads.none _
  | cons byte rest ih =>
    have first : Reads (.answer seen) [byte] [] (.answer (seen ++ [byte])) :=
      .one (answer_step (other byte List.mem_cons_self))
    have later : Reads (.answer (seen ++ [byte])) rest [] (.answer (seen ++ [byte] ++ rest)) :=
      ih fun byte member => other byte (List.mem_cons_of_mem _ member)
    simpa using first.append later

private theorem base64Char_plain (index : Nat) : base64Char (index % 64) ≠ 10 := by
  have all : ∀ index : Fin 64, base64Char index ≠ 10 := by decide
  exact all ⟨index % 64, Nat.mod_lt _ (by decide)⟩

private theorem base64Chars_plain (triple count : Nat) : ∀ byte ∈ base64Chars triple count, byte ≠ 10 := by
  intro byte member
  rw [Base64.base64Chars_eq, List.mem_map] at member
  obtain ⟨index, inside, rfl⟩ := member
  have four := List.mem_of_mem_take inside
  simp only [List.mem_cons, List.not_mem_nil, or_false] at four
  rcases four with rfl | rfl | rfl | rfl <;> exact base64Char_plain _

private theorem base64Loop_plain (input : Bytes) : ∀ byte ∈ base64Loop input, byte ≠ 10 := by
  induction input using base64Loop.induct with
  | case1 b0 b1 b2 rest ih =>
    intro byte member
    rcases List.mem_append.mp member with first | later
    · exact base64Chars_plain _ _ byte first
    · exact ih byte later
  | case2 b0 b1 =>
    intro byte member
    rcases List.mem_append.mp member with first | pad
    · exact base64Chars_plain _ _ byte first
    · simp_all
  | case3 b0 =>
    intro byte member
    rcases List.mem_append.mp member with first | pad
    · exact base64Chars_plain _ _ byte first
    · simp_all
  | case4 => simp [base64Loop]

private theorem prefix_read : Reads .fresh responsePrefix [] (.answer responsePrefix) :=
  ⟨by decide +kernel, by decide +kernel⟩

/-- The answer ends where its header block does. -/
theorem switching_read {value : Bytes} (some_ : value ≠ []) (plain : ∀ byte ∈ value, byte ≠ 10) :
    Reads .fresh (UpgradeDecision.switching value) [] (.header false []) := by
  obtain ⟨front, last, rfl⟩ := (List.eq_nil_or_concat' value).resolve_left some_
  have apart : last ≠ 10 := plain last (by simp)
  have inside : ¬ [13, 10, 13, 10] <:+ responsePrefix ++ (front ++ [last]) ++ [13] ++ [10] := by
    rw [← List.reverse_prefix]
    simpa [List.cons_prefix_cons] using fun same => absurd same.symm apart
  have first : (Reader.answer (responsePrefix ++ (front ++ [last]) ++ [13])).step 10 =
      .answer (responsePrefix ++ (front ++ [last]) ++ [13] ++ [10]) := if_neg inside
  have whole : (Reader.answer (responsePrefix ++ (front ++ [last]) ++ [13] ++ [10] ++ [13])).step 10 =
      .header false [] :=
    if_pos ⟨responsePrefix ++ (front ++ [last]), by simp⟩
  have suffix : responseSuffix = [13] ++ [10] ++ [13] ++ [10] := by decide
  rw [UpgradeDecision.switching, suffix]
  have line := (Reads.one (answer_step (by decide))).append (Reads.one first)
  exact (prefix_read.append (answer_runs plain)).append
    ((line.append (Reads.one (answer_step (by decide)))).append (Reads.one whole))

/-! A frame. -/

/-- What the frames of this server are like: a final binary frame, or a short
control frame. -/
def Sendable (opcode length : Nat) : Prop :=
  (opcode = Opcode.binary ∧ length ≤ ioChunk) ∨ ((opcode = Opcode.close ∨ opcode = Opcode.pong) ∧ length ≤ 125)

theorem Sendable.known (sendable : Sendable opcode length) : opcode = 2 ∨ opcode = 8 ∨ opcode = 10 := by
  rcases sendable with ⟨binary, -⟩ | ⟨close | pong, -⟩
  · exact .inl binary
  · exact .inr (.inl close)
  · exact .inr (.inr pong)

theorem Sendable.short (sendable : Sendable opcode length) (control : 8 ≤ opcode) : length ≤ 125 := by
  rcases sendable with ⟨rfl, -⟩ | ⟨-, short⟩
  · exact absurd control (by decide)
  · exact short

theorem Sendable.bounded (sendable : Sendable opcode length) : length < 2 ^ 63 := by
  rcases sendable with ⟨-, chunk⟩ | ⟨-, short⟩
  · exact Nat.lt_of_le_of_lt chunk (by decide)
  · omega

def frameHead (opcode length : Nat) : Bytes := headByte true opcode :: lengthField false length

private theorem head_admitted (sendable : Sendable opcode length) (more : Bytes) :
    AdmitsOpcode false (headByte true opcode :: more) ∧
    opcodeOf (headByte true opcode :: more) = opcode := by
  simp only [AdmitsOpcode, opcodeOf, finOf, List.getD_cons_zero]
  rcases sendable.known with rfl | rfl | rfl <;> decide

/-- A client lets the header of a frame pass, byte by byte, and knows its end. -/
theorem frameHead_admitted (sendable : Sendable opcode length)
    (front : seen <+: frameHead opcode length) (some_ : seen ≠ []) :
    Admits false seen ∧ (headerSize seen ≤ seen.length ↔ seen = frameHead opcode length) := by
  obtain ⟨first, extension, spells⟩ := LengthFields.spelled false sendable.bounded
  rw [frameHead, spells.field] at front ⊢
  cases seen with
  | nil => exact absurd rfl some_
  | cons head tail =>
    obtain ⟨rfl, inside⟩ := List.cons_prefix_cons.mp front
    obtain ⟨admitted, known⟩ := head_admitted sendable tail
    cases tail with
    | nil =>
      have waits : ¬ headerSize [headByte true opcode] ≤ 1 := by
        rw [headerSize]
        omega
      exact ⟨⟨admitted, fun two => absurd two (by simp), fun whole => absurd whole waits⟩,
        ⟨fun whole => absurd whole waits, by simp⟩⟩
    | cons byte part =>
      obtain ⟨rfl, behind⟩ := List.cons_prefix_cons.mp inside
      have size : headerSize (headByte true opcode :: byte :: part) = 2 + extension.length := by
        rw [headerSize, List.getD_cons_succ, List.getD_cons_zero, spells.size]
      have whole : headerSize (headByte true opcode :: byte :: part) ≤
          (headByte true opcode :: byte :: part).length ↔ part = extension := by
        rw [size, List.length_cons, List.length_cons]
        refine ⟨fun long => behind.eq_of_length_le (by omega), ?_⟩
        rintro rfl
        omega
      refine ⟨⟨admitted, fun _ => ⟨spells.flag.mpr rfl, fun control => ?_⟩, fun complete => ?_⟩, whole.trans (by simp)⟩
      · rw [known] at control
        have short := sendable.short control
        rw [List.getD_cons_succ, List.getD_cons_zero, spells.short short]
        exact short
      · obtain rfl := whole.mp complete
        have reads := spells.reads (headByte true opcode) []
        rw [List.append_nil] at reads
        rw [AdmitsLength, reads]
        exact ⟨sendable.bounded, spells.field.symm⟩

private theorem frameHead_entered (sendable : Sendable opcode length) : Reader.entered false (frameHead opcode length) =
    if length = 0 then .behind false opcode else .payload false opcode length := by
  obtain ⟨first, extension, spells⟩ := LengthFields.spelled false sendable.bounded
  obtain ⟨admitted, known⟩ := head_admitted sendable (first :: extension)
  have final : finOf (headByte true opcode :: first :: extension) = true := by
    rw [finOf, List.getD_cons_zero]
    rcases sendable.known with rfl | rfl | rfl <;> decide
  have reads := spells.reads (headByte true opcode) []
  rw [List.append_nil] at reads
  rw [frameHead, spells.field, Reader.entered, known, reads, final]
  simp

private theorem frameHead_read (sendable : Sendable opcode length)
    (whole : seen ++ rest = frameHead opcode length) (some_ : rest ≠ []) :
    Reads (.header false seen) rest [] (.entered false (frameHead opcode length)) := by
  induction rest generalizing seen with
  | nil => exact absurd rfl some_
  | cons byte more ih =>
    have layout : seen ++ [byte] ++ more = frameHead opcode length := by
      rw [← whole, List.append_assoc, List.singleton_append]
    obtain ⟨admitted, complete⟩ := frameHead_admitted sendable ⟨more, layout⟩ (by simp)
    cases more with
    | nil =>
      rw [List.append_nil] at layout
      have step : (Reader.header false seen).step byte = .entered false (frameHead opcode length) := by
        rw [Reader.step, if_neg (not_not.mpr admitted), if_pos (complete.mpr layout), layout]
      exact .one step
    | cons next more =>
      have step : (Reader.header false seen).step byte = .header false (seen ++ [byte]) := by
        rw [Reader.step, if_neg (not_not.mpr admitted), if_neg]
        intro past
        rw [complete.mp past] at layout
        simp at layout
      exact (Reads.one step).append (ih layout (by simp))

private theorem payload_read (some_ : payload ≠ []) :
    Reads (.payload false opcode payload.length) payload
      (if 8 ≤ opcode then [] else payload) (.behind false opcode) := by
  induction payload with
  | nil => exact absurd rfl some_
  | cons byte more ih =>
    cases more with
    | nil =>
      have step : (Reader.payload false opcode 1).step byte = .behind false opcode := rfl
      exact .one step
    | cons next more =>
      have step : (Reader.payload false opcode (byte :: next :: more).length).step byte =
          .payload false opcode (next :: more).length := by
        rw [Reader.step, if_neg (by simp)]
        rfl
      have both := (Reads.one step).append (ih (by simp))
      by_cases control : 8 ≤ opcode <;> simpa [Reader.takes, control] using both

/-- A client takes a frame as a whole. -/
theorem frame_read (sendable : Sendable opcode payload.length) :
    Reads (.header false []) (serverFrame opcode payload) (if 8 ≤ opcode then [] else payload)
      (.behind false opcode) := by
  have front := frameHead_read sendable (List.nil_append _) (List.cons_ne_nil _ _)
  rw [frameHead_entered sendable] at front
  have layout : serverFrame opcode payload = frameHead opcode payload.length ++ payload := by
    simp [serverFrame, frameHead]
  rw [layout]
  cases payload with
  | nil => simpa using front
  | cons byte more =>
    rw [if_neg (by simp)] at front
    exact front.append (payload_read (by simp))

/-! All frames of a session. -/

theorem control_short {frame : Bytes} {size : Nat} (written : wsWriteFrame opcode payload size = .ok frame)
    (control : isControlOpcode opcode = true) : payload.length ≤ 125 := by
  by_contra long
  rw [wsWriteFrame] at written
  split at written
  · cases written
  · rw [if_pos ⟨control, by omega⟩] at written
    cases written

def AllSendable (log : List Io) : Prop := ∀ frame ∈ frames log, Sendable frame.1 frame.2.length

theorem AllSendable.placed (all : AllSendable log) {log' : List Io} (sendable : Sendable opcode payload.length)
    (logged : frames log' = frames log ++ [(opcode, payload)]) : AllSendable log' := by
  intro frame member
  rw [logged, List.mem_append, List.mem_singleton] at member
  rcases member with old | rfl
  · exact all frame old
  · exact sendable

theorem AllSendable.still (all : AllSendable log) {log' : List Io} (logged : frames log' = frames log) :
    AllSendable log' := by
  rw [AllSendable, logged]
  exact all

private theorem sendable_acts (sound : Sound config m.session) (all : AllSendable m.log)
    (act : Acts config early m n) : AllSendable n.log := by
  rcases act with ⟨_, ⟨-, reads⟩ | ⟨-, writes⟩ | secures⟩ | target
  · cases reads with
    | handled result msg done open_ room fed delivered effect =>
      cases effect with
      | ponged frame ping idle written => exact all.placed (.inr ⟨.inr rfl, control_short written rfl⟩) (by simp)
      | closeAnswered frame close idle written =>
        exact all.placed (.inr ⟨.inl rfl, control_short written rfl⟩) (by simp)
      | _ => exact all.still (by simp)
    | _ => exact all.still (by simp)
  · cases writes with
    | closeAnswered frame pending idle written =>
      exact all.placed (.inr ⟨.inl rfl, control_short written rfl⟩) (by simp)
    | @framed s l h frame open_ settled done idle some_ written =>
      have sendable : Sendable Opcode.binary
          (bufferRead s.targetToClient (minSize ioChunk (bufferReadable s.targetToClient))).1.length := by
        obtain ⟨out, -⟩ :=
          bufferRead_spec sound.targetToClient.valid (minSize ioChunk (bufferReadable s.targetToClient))
        refine .inl ⟨rfl, ?_⟩
        rw [out, List.length_take, minSize_eq]
        omega
      exact all.placed sendable (by simp)
    | _ => exact all.still (by simp)
  · cases secures <;> exact all.still (by simp)
  · cases target <;> exact all.still (by simp)

def Rests (log : List Io) (reader : Reader) : Prop :=
  (CloseSent log ∧ reader = .closed) ∨ (¬ CloseSent log ∧ reader = .header false [])

theorem frames_read (orderly : Justified Orderly log) (all : AllSendable log) :
    ∃ after, Reads (.header false []) (wire (frames log)) (payloads Opcode.binary (frames log)) after ∧
    Rests log after := by
  induction log using List.reverseRecOn with
  | nil => exact ⟨_, .none _, .inr ⟨by simp [CloseSent], rfl⟩⟩
  | append_singleton log io ih =>
    obtain ⟨before, good⟩ := orderly.last
    obtain ⟨after, reads, rests⟩ := ih before fun frame member => all frame (by simp [member])
    cases io with
    | frame opcode payload =>
      obtain ⟨unsent, -⟩ := good
      obtain rfl : after = .header false [] := (rests.resolve_left fun closed => unsent closed.1).2
      have sendable : Sendable opcode payload.length := all (opcode, payload) (by simp)
      refine ⟨.behind false opcode, ?_, ?_⟩
      · have both := reads.append (frame_read sendable)
        rcases sendable.known with rfl | rfl | rfl <;> simpa [Opcode.binary] using both
      · rcases sendable.known with rfl | rfl | rfl
        · exact .inr ⟨by simpa [CloseSent, Opcode.close] using unsent, rfl⟩
        · exact .inl ⟨⟨payload, by simp [Opcode.close]⟩, rfl⟩
        · exact .inr ⟨by simpa [CloseSent, Opcode.close] using unsent, rfl⟩
    | _ => exact ⟨after, by simpa using reads, by simpa [Rests, CloseSent] using rests⟩

/-- What is on its way to the client is as it has to be. -/
structure Conveyed (config : Config) (m : Moment) : Prop where
  outgoing : Outgoing config m
  answering : Answering m
  sendable : AllSendable m.log

private theorem conveyed_created {s : Session} (created : Creation.Created config s) : Conveyed config ⟨s, [], []⟩ :=
  ⟨outgoing_created created, answering_created created, fun frame member => absurd member (by simp)⟩

private theorem conveyed_acts (conveyed : Conveyed config m) (act : Acts config early m n) : Conveyed config n :=
  ⟨outgoing_acts conveyed.outgoing act, answering_acts conveyed.outgoing.sound conveyed.answering act,
    sendable_acts conveyed.outgoing.sound conveyed.sendable act⟩

/-- The answer to a granted request. -/
theorem granted_read {request response : Bytes} {consumed : Nat}
    (granted : wsBuildHandshakeResponse request 256 = .ok (response, consumed)) :
    Reads .fresh response [] (.header false []) := by
  obtain ⟨-, header, is⟩ := AcceptValue.granted_header granted
  obtain ⟨first, fields, layout⟩ := is.layout
  obtain ⟨key, last⟩ := (AcceptValue.granted_valid granted is layout).lastKey
  rw [AcceptValue.granted_response granted is layout last]
  have size := UpgradeDecision.accept_length (cString key)
  exact switching_read (List.ne_nil_of_length_pos (by omega)) (base64Loop_plain _)

/-- What a client makes of what it has received and of what is left in the slot. -/
theorem Conveyed.read (conveyed : Conveyed config m) :
    ∃ after, Reads .fresh (delivered .client m.log ++ m.session.unsent) (payloads Opcode.binary (frames m.log)) after ∧
      if m.session.handshakeDone = true then Rests m.log after else after = .fresh := by
  have bytes := conveyed.outgoing.bytes
  cases done : m.session.handshakeDone with
  | false =>
    obtain ⟨none, silent, -⟩ := conveyed.outgoing.early done
    rw [bytes, none, silent]
    exact ⟨_, .none _, rfl⟩
  | true =>
    obtain ⟨request, consumed, -, granted⟩ := conveyed.outgoing.late done
    obtain ⟨after, reads, rests⟩ := frames_read conveyed.answering.log conveyed.sendable
    rw [bytes]
    exact ⟨after, (granted_read granted).append reads, rests⟩

/-- The client does not fail, and takes nothing but what the target sent. -/
def Taken (log : List Io) : Prop :=
  Reader.fresh.advance (delivered .client log) ≠ .failed ∧
    Reader.fresh.message (delivered .client log) <+: received .target log

theorem Conveyed.taken (conveyed : Conveyed config m) : Taken m.log := by
  obtain ⟨after, reads, rests⟩ := conveyed.read
  have fine : Reader.fresh.advance (delivered .client m.log ++ m.session.unsent) ≠ .failed := by
    rw [reads.stands]
    split at rests
    · rcases rests with ⟨-, rfl⟩ | ⟨-, rfl⟩ <;> nofun
    · subst rests
      nofun
  refine ⟨Reader.advance_early fine, ?_⟩
  have took := reads.took
  rw [Reader.message_append] at took
  rw [← conveyed.outgoing.origin, ← took, List.append_assoc]
  exact List.prefix_append _ _

/-- The end of a session brings nothing to its client. -/
theorem taken_ends (taken : Taken m.log) (ending : Ends early m n) : Taken (n.log ++ [.release n.session]) := by
  have same : delivered .client (n.log ++ [.release n.session]) = delivered .client m.log := by
    rcases ending with client | target
    · cases client <;> simp
    · cases target <;> simp
  have more : received .target m.log <+: received .target (n.log ++ [.release n.session]) := by
    rcases ending with client | target
    · cases client <;> simp
    · cases target <;> simp
  rw [Taken, same]
  exact ⟨taken.1, taken.2.trans more⟩

/-- Whatever has been sent to a client so far, a client that is strict about the
protocol has not failed the connection over it, and the messages that it has
taken are the beginning of what was read from the target. While the session
lives, what is left in the output slot and what the ring buffer holds complete
them; behind the slot the client is between two frames, or, if a CLOSE frame has
been placed, behind that. -/
theorem client_follows {config : Config} {w : World} (reachable : Reachable config w) (id : SessionId) :
    (Reader.fresh.advance (delivered .client (w.log id)) ≠ .failed ∧
      Reader.fresh.message (delivered .client (w.log id)) <+: received .target (w.log id)) ∧
    ∀ s, w.session? id = some s →
      Reader.fresh.message (delivered .client (w.log id) ++ s.unsent) ++
      contents s.targetToClient = received .target (w.log id) ∧
      (s.handshakeDone = true →
      Rests (w.log id) (Reader.fresh.advance (delivered .client (w.log id) ++ s.unsent))) := by
  have inv := reachable_invariant reachable
  refine ⟨inv.every_log (Conveyed config) Taken
    (fun _ => conveyed_created) (fun _ _ => conveyed_acts) (fun _ => Conveyed.taken)
    (fun _ _ conveyed => taken_ends conveyed.taken) ⟨nofun, by simp [Reader.message]⟩
      (fun s => ⟨nofun, by simp [Reader.message]⟩) id, ?_⟩
  intro s alive
  obtain ⟨first, created, path⟩ := (inv.lived id s alive).path
  have conveyed : Conveyed config ⟨s, w.log id, []⟩ :=
    path_keeps _ (fun _ _ => conveyed_acts) (conveyed_created created) path
  obtain ⟨after, reads, rests⟩ := conveyed.read
  refine ⟨?_, fun done => ?_⟩
  · rw [reads.took]
    exact conveyed.outgoing.origin
  · rw [reads.stands]
    exact (if_pos done).mp rests

def brought : World :=
  (relayed.after (.scripted [] true 4096) (.client 0 .writing)).after (.scripted [] true 3) (.client 0 .writing)

theorem client_follows_brought :
    ∃ s, brought.session? 0 = some s ∧ Reader.fresh.message (delivered .client (brought.log 0)) = [1, 2, 3] ∧
    Reader.fresh.message (delivered .client (brought.log 0) ++ s.unsent) ++ contents s.targetToClient = [1, 2, 3] := by
  obtain ⟨reachable, present, message, read⟩ : Reachable (sampleConfig 64) brought ∧ brought.session? 0 ≠ none ∧
      Reader.fresh.message (delivered .client (brought.log 0)) = [1, 2, 3] ∧
          received .target (brought.log 0) = [1, 2, 3] :=
    And.imp_left (Runs.next_of (Runs.next_of (Runs.next_of (opened_runs trivial trivial) trivial) trivial) trivial)
      (by decide +kernel)
  obtain ⟨s, alive⟩ := Option.ne_none_iff_exists'.mp present
  obtain ⟨-, live⟩ := client_follows reachable 0
  exact ⟨s, alive, message, read ▸ (live s alive).1⟩

end Sockify.Proofs.Delivery
