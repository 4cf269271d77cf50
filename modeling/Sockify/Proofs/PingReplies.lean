import Sockify.Proofs.ClientReads
import Sockify.Proofs.ControlOnsets
import Sockify.Proofs.PipelinedFrames

/-! PINGs among the data that an upgraded session reads. Each piece of a PING is
answered through the one output slot, so the session outlives a read only if the
read comes to at most one PING, finds the slot idle, and has room for the rest
of the payload. -/

namespace Sockify.Proofs.PingReplies
open Sockify Stateful Behaviour Framing Streams Driving BufferQueue SessionLogic SessionSteps Soundness
  Simulation Lifetimes
open ParserCursor ParserSegmentation FrameGrammar ClientStream Absorption ClientReads ControlOnsets PipelinedFrames

def DataOrPing (opcode : Nat) : Prop := IsData opcode ∨ opcode = Opcode.ping

instance (opcode : Nat) : Decidable (DataOrPing opcode) := inferInstanceAs (Decidable (_ ∨ _))

/-- The PINGs of one read can be answered, given whether the slot is idle and
how much room there is for data. -/
def Answered (idle : Bool) (room : Nat) : List (Nat × Nat) → Prop
  | [] => True
  | [(stored, need)] => idle = true ∧ stored + need ≤ room
  | _ => False

/-- The PINGs of read after read can be answered. -/
def Answerable : Bool → Nat → Cursor → List Bytes → Prop
  | _, _, _, [] => True
  | idle, room, place, bytes :: rest =>
    Answered idle room (onsets Opcode.ping true 0 place bytes) ∧
      Answerable (idle && (onsets Opcode.ping true 0 place bytes).isEmpty)
        (room - (dataOf (place.signals bytes)).length) (place.advance bytes) rest

instance (idle : Bool) (room : Nat) : (pings : List (Nat × Nat)) → Decidable (Answered idle room pings)
  | [] => isTrue trivial
  | [(_, _)] => inferInstanceAs (Decidable (_ ∧ _))
  | _ :: _ :: _ => isFalse id

instance Answerable.decidable : (idle : Bool) → (room : Nat) →
    (place : Cursor) → (reads : List Bytes) → Decidable (Answerable idle room place reads)
  | _, _, _, [] => isTrue trivial
  | idle, room, place, bytes :: rest =>
    have := Answerable.decidable (idle && (onsets Opcode.ping true 0 place bytes).isEmpty)
      (room - (dataOf (place.signals bytes)).length)
      (place.advance bytes) rest
    inferInstanceAs (Decidable (_ ∧ _))

variable {config : Config} {site : Site} {x y : Own} {env : Env} {w : World} {id : SessionId}
  {s t u : Session} {data bytes later : Bytes}
variable {entries : List Io} {room stored : Nat} {fresh : Bool} {pings : List (Nat × Nat)}

private theorem answered_busy : Answered false room pings ↔ pings = [] := by
  cases pings with
  | nil => simp [Answered]
  | cons first rest =>
    cases rest with
    | nil => simp [Answered]
    | cons => simp [Answered]

/-- The first PING takes the slot. -/
theorem answered_cons {idle : Bool} {need : Nat} :
    Answered idle room ((stored, need) :: pings) ↔ idle = true ∧ stored + need ≤ room ∧ pings = [] := by
  cases pings with
  | nil => simp [Answered]
  | cons => simp [Answered]

inductive Replies (config : Config) (later : Bytes) (s : Session) (data : Bytes)
    (pings : List (Nat × Nat)) (room : Nat) (outcome : Absorbed) : Prop
  | answers {t : Session} {entries : List Io} (answered : Answered (decide (Idle s)) room pings)
      (kept : outcome = .kept t entries (.ok ())) (stored : Stored s data t)
      (slot : Idle t ↔ Idle s ∧ pings = [])
      (sound : Sound config t) (done : t.handshakeDone = true) (onward : Takes DataOrPing t.wsParser later)
  | loses (unanswered : ¬ Answered (decide (Idle s)) room pings)
      (lost : outcome = .lost ∨ ∃ t entries error, outcome = .kept t entries (.error error) ∧ error ≠ .again)

theorem Replies.behind {outcome : Absorbed} {front back : Bytes} (entries : List Io)
    (replies : Replies config later t back pings room outcome) (stored : Stored s front t)
    (slot : Idle t ↔ Idle s) :
    Replies config later s (front ++ back) pings room (outcome.behind entries) := by
  have same : decide (Idle t) = decide (Idle s) := decide_eq_decide.mpr slot
  cases replies with
  | answers answered kept more idle sound done onward =>
    rw [kept]
    exact .answers (same ▸ answered) rfl (stored.trans more) (by rw [idle, slot]) sound done onward
  | loses unanswered lost =>
    refine .loses (same ▸ unanswered) ?_
    rcases lost with rfl | ⟨u, more, error, rfl, other⟩
    · exact .inl rfl
    · exact .inr ⟨u, _, error, rfl, other⟩

/-- A PING that is answered, and what follows it. -/
theorem Replies.pong {outcome : Absorbed} {front back : Bytes} {need : Nat} (entries : List Io)
    (replies : Replies config later t back pings room outcome) (before : Stored s front t)
    (idle : Idle s) (busy : ¬ Idle t) (fits : stored + need ≤ room) :
    Replies config later s (front ++ back) ((stored, need) :: pings) room (outcome.behind entries) := by
  have taken : decide (Idle t) = false := decide_eq_false busy
  cases replies with
  | answers answered kept more slot sound done onward =>
    rw [taken, answered_busy] at answered
    rw [kept]
    refine .answers (answered_cons.mpr ⟨decide_eq_true idle, fits, answered⟩)
      rfl (before.trans more) ?_ sound done onward
    simp [slot, busy]
  | loses unanswered lost =>
    rw [taken, answered_busy] at unanswered
    refine .loses (fun answered => unanswered (answered_cons.mp answered).2.2) ?_
    rcases lost with rfl | ⟨u, more, error, rfl, other⟩
    · exact .inl rfl
    · exact .inr ⟨u, _, error, rfl, other⟩

/-- The session behind a piece of a PING. -/
theorem stored_pong {msg : WsMessage} {capacity used : Nat} {after : WsParser} (open_ : s.closing = .no)
    (delivers : Delivered s.wsParser data capacity after used msg) (ping : msg.opcode = Opcode.ping) (frame : Bytes) :
    Stored s (data.take used) (fill { s with wsParser := after } frame) := by
  obtain ⟨silent, signals⟩ := delivers.signals
  have heard : dataOf ((cursor s.wsParser).signals (data.take used)) = [] := by
    rw [signals, dataOf_append, dataOf_quiet, closed_quiet, dataOf_delivery, ping]
    rfl
  refine ⟨open_, delivers.cursor, ?_, ?_, ?_⟩
  · rw [signals, closed_append, closed_quiet, closed_delivery, ping]
    rfl
  · rw [heard, List.append_nil]
    rfl
  · rw [heard]
    rfl

private theorem absorb_answers (fuel : Nat) (enough : data.length < fuel) (sound : Sound config s)
    (done : s.handshakeDone = true) (open_ : s.closing = .no)
    (takes : Takes DataOrPing s.wsParser (data ++ later))
    (settled : data ≠ [] → Settled Opcode.ping fresh (cursor s.wsParser))
    (short : data.length ≤ bufferWritable s.clientToTarget)
    (count : stored + bufferWritable s.clientToTarget = room) :
    Replies config later s data (onsets Opcode.ping fresh stored (cursor s.wsParser) data) room
      (absorb fuel s data) := by
  induction fuel generalizing s data fresh stored with
  | zero => omega
  | succ fuel ih =>
    by_cases empty : data = []
    · rw [absorb_settled fuel (.inl empty), empty]
      rw [empty] at takes
      exact .answers trivial rfl (.refl open_) (by simp [onsets]) sound done takes
    · have some_ : 0 < data.length := List.length_pos_iff.mpr empty
      have capacity : payloadCapacity s = min ioChunk (bufferWritable s.clientToTarget) := minSize_eq _ _
      have full : payloadCapacity s ≠ 0 := by
        rw [capacity, ioChunk]
        omega
      have positive := Nat.pos_of_ne_zero full
      obtain ⟨result, fed⟩ : ∃ result, wsParserFeed s.wsParser data (payloadCapacity s) = result := ⟨_, rfl⟩
      have spec := wsParserFeed_fed positive data sound.parser
      have reaches : Reaches Opcode.ping (payloadCapacity s) fresh stored
          (cursor s.wsParser) 0 data (wsParserFeed s.wsParser data (payloadCapacity s)) :=
        wsParserFeed_reaches rfl positive data sound.parser (settled empty)
      rw [fed] at spec reaches
      unfold Fed at spec
      unfold Reaches at reaches
      rcases feed_takes positive sound.parser takes fed
        with ⟨msg, outcome, kind, takes⟩ | ⟨outcome, takes⟩ | ⟨outcome, kind, control⟩
      · obtain ⟨progress, within, fitting⟩ := delivered_fits sound full fed outcome
        rw [outcome] at spec reaches
        obtain ⟨used, total, delivers⟩ := spec
        obtain rfl : result.used = used := by omega
        obtain ⟨used, total, reaches⟩ := reaches
        obtain rfl : result.used = used := by omega
        have parsed := sound_parsed sound done full fed (.inr ⟨msg, outcome⟩)
        have fewer : (data.drop result.used).length < fuel := by rw [List.length_drop]; omega
        split at reaches
        next ping =>
          obtain ⟨ends, need, fits, onward⟩ := reaches
          rw [onward]
          by_cases idle : Idle s
          · have small : msg.payload.length ≤ 125 := fitting.control (by simp [isControlOpcode, ping, Opcode.ping])
            obtain ⟨frame, written⟩ := control_fits Opcode.pong rfl sound.capacity small
            have effect : Handled { s with wsParser := result.parser } msg _ _ := .ponged frame ping idle written
            obtain ⟨kept, still⟩ := sound_handled parsed done open_ effect
            have busy : ¬ Idle (fill { s with wsParser := result.parser } frame) := by
              have bytes := frame_nonempty written
              exact fun same => absurd same (Nat.ne_of_gt bytes)
            have onset : data.drop result.used ≠ [] → Settled Opcode.ping false (cursor result.parser) := by
              intro more
              rw [ends.resolve_left more]
              exact settled_start
            have rest := ih fewer kept still open_ takes onset
              (by rw [List.length_drop]; exact Nat.le_trans (Nat.sub_le _ _) short) count
            rw [absorb_message fuel empty open_ full fed outcome (handled_absorbs effect)]
            have roomy : stored + need ≤ room := by omega
            have whole := rest.pong [.feed (data.take result.used), .frame Opcode.pong msg.payload]
              (stored_pong open_ delivers ping frame) idle busy roomy
            rwa [List.take_append_drop] at whole
          · rw [absorb_lost fuel empty open_ full fed outcome (busy_ping_lost ping idle)]
            exact .loses (fun answered => idle (of_decide_eq_true (answered_cons.mp answered).1)) (.inl rfl)
        next notPing =>
          obtain ⟨onset, onward⟩ := reaches
          have kind := kind.resolve_right notPing
          have low : msg.opcode ≤ 2 := (isData_iff _).mp kind
          have fits : msg.payload.length ≤ bufferWritable s.clientToTarget := fitting.data
          have effect : Handled { s with wsParser := result.parser } msg _ _ := .stored kind fits
          obtain ⟨kept, still⟩ := sound_handled parsed done open_ effect
          have paid := delivers.payload.2
          have less := writable_bufferWrite sound.clientToTarget.valid fits
          have rest :=
            ih fewer kept still open_ takes (fun _ => onset) (by rw [List.length_drop]; simp only [less]; omega)
              (show stored + msg.payload.length + _ = room by simp only [less]; omega)
          rw [onward, if_pos low, absorb_message fuel empty open_ full fed outcome (handled_absorbs effect)]
          have before := stored_piece sound open_ delivers kind fits
          have whole :=
            rest.behind [.feed (data.take result.used), .store .client msg.payload msg.payload.length] before Iff.rfl
          rwa [List.take_append_drop] at whole
      · rw [outcome] at spec reaches
        obtain ⟨used, exhausted⟩ := spec
        have all : result.used = data.length := by omega
        have none_ : onsets Opcode.ping fresh stored (cursor s.wsParser) data = [] := reaches
        rw [none_, absorb_again fuel empty open_ full fed outcome, all, List.take_length, List.drop_length]
        have ended : ([] : Bytes) ≠ [] → Settled Opcode.ping false (cursor result.parser) := absurd rfl
        have rest := ih (show ([] : Bytes).length < fuel by rw [List.length_nil]; omega)
          (sound_parsed sound done full fed (.inl outcome)) done open_
          takes ended (Nat.zero_le _) count
        have whole := rest.behind [.feed data] (stored_quiet open_ exhausted) Iff.rfl
        rwa [List.append_nil] at whole
      · rw [outcome] at reaches
        have ping : result.parser.opcode = Opcode.ping := by
          refine kind.resolve_left fun data => ?_
          rw [isData_iff] at data
          have high : 8 ≤ result.parser.opcode := by simpa [isControlOpcode] using control
          omega
        obtain ⟨need, rest, long, small, onward⟩ := reaches ping
        rw [onward, absorb_refused fuel empty open_ full fed outcome (by decide)]
        refine .loses (fun answered => ?_) (.inr ⟨_, _, _, rfl, by decide⟩)
        have fits := (answered_cons.mp answered).2.1
        rw [capacity, ioChunk] at long
        rw [leastCapacity] at small
        omega

/-- A read of data and PINGs, and those that come after it. -/
theorem read_answers {time : Int} {more : List Bytes} (sound : Sound config s)
    (done : s.handshakeDone = true) (open_ : s.closing = .no) (fits : bytes.length ≤ readLimit s)
    (takes : Takes DataOrPing s.wsParser (bytes ++ later)) {outcome : Absorbed}
    (absorbed : absorb (bytes.length + 1) { s with lastActivityAt := time } bytes = outcome) :
    (∃ t entries, outcome = .kept t entries (.ok ()) ∧
      Sound config t ∧ t.handshakeDone = true ∧ Takes DataOrPing t.wsParser later ∧
      (Answerable (decide (Idle s)) (bufferWritable s.clientToTarget) (cursor s.wsParser) (bytes :: more) ↔
        Answerable (decide (Idle t)) (bufferWritable t.clientToTarget) (cursor t.wsParser) more)) ∨
    (¬ Answerable (decide (Idle s)) (bufferWritable s.clientToTarget) (cursor s.wsParser) (bytes :: more) ∧
      (outcome = .lost ∨ ∃ t entries error, outcome = .kept t entries (.error error) ∧ error ≠ .again)) := by
  have touched : Sound config { s with lastActivityAt := time } := { sound with }
  have short : bytes.length ≤ bufferWritable s.clientToTarget := by
    rw [readLimit, if_pos done, minSize_eq] at fits
    omega
  have replies :=
    absorb_answers _ (Nat.lt_succ_self _) touched done open_ takes (fun _ => .inl rfl) short (Nat.zero_add _)
  rw [absorbed] at replies
  cases replies with
  | @answers t entries answered kept stored slot sound done onward =>
    refine .inl ⟨t, entries, kept, sound, done, onward, ?_⟩
    have room : bufferWritable s.clientToTarget - (dataOf ((cursor s.wsParser).signals bytes)).length =
        bufferWritable t.clientToTarget :=
      Nat.sub_eq_of_eq_add stored.room.symm
    have idle : (decide (Idle s) && (onsets Opcode.ping true 0 (cursor s.wsParser) bytes).isEmpty) =
        decide (Idle t) := by
      rw [decide_eq_decide.mpr slot, Bool.decide_and]
      cases onsets Opcode.ping true 0 (cursor s.wsParser) bytes with
      | nil => rfl
      | cons => rfl
    rw [Answerable, room, idle, stored.place]
    exact and_iff_right answered
  | loses unanswered lost => exact .inr ⟨fun answerable => unanswered answerable.1, lost⟩

/-- Reads that have been absorbed were answered. -/
theorem absorbs_answers {reads : List Bytes} (more : List Bytes) (later : Bytes)
    (absorbs : Absorbs s reads t entries) (sound : Sound config s) (done : s.handshakeDone = true)
    (takes : Takes DataOrPing s.wsParser (reads.flatten ++ later)) :
    Sound config t ∧ t.handshakeDone = true ∧ Takes DataOrPing t.wsParser later ∧
      (Answerable (decide (Idle s)) (bufferWritable s.clientToTarget) (cursor s.wsParser) (reads ++ more) ↔
        Answerable (decide (Idle t)) (bufferWritable t.clientToTarget) (cursor t.wsParser) more) := by
  induction absorbs with
  | none => exact ⟨sound, done, takes, Iff.rfl⟩
  | read time open_ nonempty fits absorbed fine onward ih =>
    rw [List.flatten_cons, List.append_assoc] at takes
    rcases read_answers sound done open_ fits takes absorbed
      with ⟨u, entries, kept, sound, done, takes, same⟩ | ⟨-, lost⟩
    · obtain ⟨rfl, rfl, rfl⟩ := Absorbed.kept.inj kept
      obtain ⟨sound, done, takes, rest⟩ := ih sound done takes
      exact ⟨sound, done, takes, same.trans rest⟩
    · rcases lost with impossible | ⟨u, entries, error, kept, other⟩
      · cases impossible
      · obtain ⟨-, -, rfl⟩ := Absorbed.kept.inj kept
        rcases fine with impossible | again
        · cases impossible
        · exact absurd (Except.error.inj again) other

private theorem spoils_unanswered {last : Bytes} (spoils : Spoils s last entries)
    (sound : Sound config s) (done : s.handshakeDone = true) (takes : Takes DataOrPing s.wsParser last) :
    ¬ Answerable (decide (Idle s)) (bufferWritable s.clientToTarget) (cursor s.wsParser) [last] := by
  obtain ⟨open_, -, fits, -, time, lost⟩ := spoils
  rcases read_answers sound done open_ fits
    (List.append_nil last ▸ takes) rfl with ⟨t, entries, kept, -⟩ | ⟨unanswered, -⟩
  · rw [kept] at lost
    rcases lost with impossible | ⟨u, error, impossible, -⟩
    · cases impossible
    · cases impossible
  · exact unanswered

def readBy (env : Env) (id : SessionId) (w : World) : World := (sessionReadClient env id w.begin).2

/-- Reading from the client fails only when nothing is there. -/
def healthy : Io → Bool
  | .read .client _ _ (.error error) => error == .again
  | _ => true

/-- A session that is sent data and PINGs outlives a call of `session_read_client`
exactly when the PINGs of each read can be answered. -/
theorem pings_answered {config : Config} {w : World} {id : SessionId} {s : Session} {env : Env}
    {grown : List Io} (reachable : Reachable config w) (alive : w.session? id = some s)
    (done : s.handshakeDone = true) (log : (readBy env id w).log id = w.log id ++ grown)
    (fine : ∀ entry ∈ grown, healthy entry = true)
    (conforming : Takes DataOrPing s.wsParser (received .client grown)) :
    (∃ t, (readBy env id w).session? id = some t) ↔
      Answerable (decide (Idle s)) (bufferWritable s.clientToTarget) (cursor s.wsParser) (chunks .client grown) := by
  have inv := reachable_invariant reachable
  have sound := (inv.lived id s alive).sound
  have reads : ∀ site : Site, site.id = id → site.world.config = config → Sound site.world.config s →
      Yields site (fun _ => Releases ⟨s, w.log id, w.interest id, 0⟩) (sessionReadClient env id)
        (fun _ => Returns config ⟨s, w.log id, w.interest id, 0⟩) ⟨s, w.log id, w.interest id, 0⟩ := by
    rintro site rfl rfl sound
    exact sessionReadClient_absorbs env sound done
  have runs : (sessionReadClient env id w.begin).2 = readBy env id w := rfl
  rcases session_left inv alive runs fun site same configured _ =>
    reads site same configured with ⟨y, returns, lives, mine⟩ | ⟨y, releases, gone, mine⟩
  · obtain ⟨reads, entries, last, absorbs, logged, ending⟩ := returns.log
    obtain rfl : grown = entries ++ last := List.append_cancel_left (log.symm.trans (mine.trans logged))
    have silent : chunks .client last = [] := by
      rcases ending with rfl | ⟨limit, rfl⟩
      · rfl
      · rfl
    rw [← chunks_flatten, chunks_append, silent, List.append_nil, absorbs.chunks] at conforming
    obtain ⟨-, -, -, answers⟩ := absorbs_answers [] [] absorbs sound done (by rwa [List.append_nil])
    rw [chunks_append, silent, absorbs.chunks, answers]
    exact iff_of_true ⟨y.session, lives⟩ trivial
  · rw [gone]
    refine iff_of_false (by simp) ?_
    cases releases with
    | @failed reads entries limit error absorbs other logged =>
      rw [logged, List.append_assoc, log] at mine
      have same := List.append_cancel_left mine
      have again := fine (.read .client y.session.clientTransport limit (.error error)) (by simp [same])
      exact absurd (eq_of_beq again) other
    | @spoiled reads entries t last more absorbs spoils logged =>
      rw [logged, List.append_assoc, log] at mine
      have read : chunks .client grown = reads ++ [last] := by
        rw [List.append_cancel_left mine]
        simp [absorbs.chunks, spoils.silent]
      rw [← chunks_flatten, read, List.flatten_append] at conforming
      obtain ⟨sound, done, takes, answers⟩ := absorbs_answers [last] _ absorbs sound done conforming
      rw [read, answers]
      exact spoils_unanswered spoils sound done (by simpa using takes)

def flushed : World := (opened (sampleConfig 64) true).after (.scripted [] true 4096) (.client 0 .writing)

def oneRead (bytes : Bytes) : Env := .scripted [.ok bytes] true 0

def pinged : Bytes := [137, 129, 0, 0, 0, 0, 7, 130, 129, 0, 0, 0, 0, 9]

theorem pings_answered_flushed : ∃ t, (readBy (oneRead pinged) 0 flushed).session? 0 = some t := by
  let grown := ((readBy (oneRead pinged) 0 flushed).log 0).drop (flushed.log 0).length
  obtain ⟨reachable, present, state, log, fine, read⟩ : Reachable (sampleConfig 64) flushed ∧
      flushed.session? 0 ≠ none ∧
      (∀ s ∈ flushed.session? 0, s.handshakeDone = true ∧
        Idle s ∧ bufferWritable s.clientToTarget = 64 ∧ s.wsParser = wsParserInit) ∧
      (readBy (oneRead pinged) 0 flushed).log 0 = flushed.log 0 ++ grown ∧ (∀ entry ∈ grown, healthy entry = true) ∧
      chunks .client grown = [pinged] :=
    And.imp_left (Runs.next_of (opened_runs trivial trivial) trivial) (by decide +kernel)
  obtain ⟨s, alive⟩ := Option.ne_none_iff_exists'.mp present
  obtain ⟨done, idle, room, parser⟩ := state s alive
  have bytes : received .client grown = pinged := by rw [← chunks_flatten, read, List.flatten_singleton]
  have takes : Takes DataOrPing s.wsParser (received .client grown) := by
    rw [parser, bytes]
    have sequence : ClientFrame.Sequence false [⟨true, 9, [0, 0, 0, 0], [7]⟩, ⟨true, 2, [0, 0, 0, 0], [9]⟩] := by decide
    exact sequence_takes rests_init sequence (by decide) (by decide)
  apply (pings_answered reachable alive done log fine takes).mpr
  rw [read, room, parser, decide_eq_true idle]
  decide +kernel

def hasty : World := readBy (oneRead [137, 128, 0, 0, 0, 0]) 0 (opened (sampleConfig 64) true)

theorem ping_kills :
    (sampleConfig 64).Accepted ∧ Reachable (sampleConfig 64) (opened (sampleConfig 64) true) ∧
    ∃ s frames grown, (opened (sampleConfig 64) true).session? 0 = some s ∧
      (s.handshakeDone = true ∧ s.closing = .no ∧ s.wsParser = wsParserInit) ∧
      ClientFrame.Sequence false frames ∧
      (∀ frame ∈ frames, DataOrPing frame.opcode) ∧ hasty.log 0 = (opened (sampleConfig 64) true).log 0 ++ grown ∧
      (∀ entry ∈ grown, healthy entry = true) ∧
      received .client grown = frames.flatMap ClientFrame.encode ∧ hasty.session? 0 = none := by
  let frames : List ClientFrame := [⟨true, 9, [0, 0, 0, 0], []⟩]
  let grown := (hasty.log 0).drop ((opened (sampleConfig 64) true).log 0).length
  obtain ⟨reachable, present, fresh, events⟩ : Reachable (sampleConfig 64) (opened (sampleConfig 64) true) ∧
      (opened (sampleConfig 64) true).session? 0 ≠ none ∧
      (∀ s ∈ (opened (sampleConfig 64) true).session? 0, s.handshakeDone = true ∧
        s.closing = .no ∧ s.wsParser = wsParserInit) ∧
      hasty.log 0 = (opened (sampleConfig 64) true).log 0 ++ grown ∧ (∀ entry ∈ grown, healthy entry = true) ∧
      received .client grown = frames.flatMap ClientFrame.encode ∧ hasty.session? 0 = none :=
    And.imp_left (opened_runs trivial trivial) (by decide +kernel)
  obtain ⟨s, alive⟩ := Option.ne_none_iff_exists'.mp present
  exact ⟨by decide, reachable, s, frames, grown, alive, fresh s alive, by decide, by decide, events⟩

end Sockify.Proofs.PingReplies
