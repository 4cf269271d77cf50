import Sockify.Proofs.Absorption
import Sockify.Proofs.ClientStream
import Sockify.Proofs.FrameGrammar
import Sockify.Proofs.UpgradeRuns

/-! The bytes behind an accepted upgrade request, when they are data frames.
They are parsed until the ring buffer is full; what is left then is dropped. -/

namespace Sockify.Proofs.PipelinedFrames
open Sockify Stateful Behaviour SessionLogic SessionSteps Soundness Simulation Lifetimes Streams
  BufferQueue Framing Driving
open ParserCursor ParserSegmentation FrameGrammar ClientStream Absorption

/-- The parser takes these bytes without an error, and for data alone. -/
def DataOnly (parser : WsParser) (bytes : Bytes) : Prop :=
  (follow parser bytes).failure = none ∧ ∀ msg ∈ (follow parser bytes).messages, IsData msg.opcode

def DataFrames (bytes : Bytes) : Prop :=
  ∃ frames : List ClientFrame, ClientFrame.Sequence false frames ∧ (∀ frame ∈ frames, frame.opcode ≤ 2) ∧
    bytes <+: frames.flatMap ClientFrame.encode

variable {config : Config} {parser after : WsParser} {site : Site} {x y : Own} {env : Env} {w : World}
  {id : SessionId} {s t u : Session} {front back part data : Bytes} {result : FeedResult}

private theorem dataOnly_iff : DataOnly parser data ↔ Takes IsData parser data := Iff.rfl

private theorem dataFrames_only (frames : DataFrames data) : DataOnly wsParserInit data := by
  obtain ⟨frames, sequence, low, part⟩ := frames
  exact dataOnly_iff.mpr
    (sequence_takes rests_init sequence (fun frame member => (isData_iff _).mpr (low frame member)) part)

/-- A call on data alone delivers data, or asks for more. -/
theorem feed_data {capacity : Nat} (room : 0 < capacity) (valid : Valid parser)
    (only : DataOnly parser data) (fed : wsParserFeed parser data capacity = result) :
    (∃ msg, result.outcome = .ok msg ∧ IsData msg.opcode ∧ DataOnly result.parser (data.drop result.used)) ∨
    result.outcome = .error .again := by
  rcases feed_takes room valid (List.append_nil data ▸ dataOnly_iff.mp only) fed
    with delivered | ⟨outcome, -⟩ | ⟨-, kind, control⟩
  · rw [List.append_nil] at delivered
    exact .inl delivered
  · exact .inr outcome
  · rw [isData_iff] at kind
    have high : 8 ≤ result.parser.opcode := by simpa [isControlOpcode] using control
    omega

/-- A session that has taken in a part of its client's bytes, all of it data. -/
structure Stored (s : Session) (part : Bytes) (t : Session) : Prop where
  open_ : t.closing = .no
  place : cursor t.wsParser = (cursor s.wsParser).advance part
  unclosed : closed ((cursor s.wsParser).signals part) = false
  bytes : contents t.clientToTarget = contents s.clientToTarget ++ dataOf ((cursor s.wsParser).signals part)
  room : bufferWritable t.clientToTarget + (dataOf ((cursor s.wsParser).signals part)).length =
    bufferWritable s.clientToTarget

theorem Stored.refl (open_ : s.closing = .no) : Stored s [] s :=
  ⟨open_, rfl, rfl, (List.append_nil _).symm, Nat.add_zero _⟩

theorem Stored.trans (one : Stored s front t) (other : Stored t back u) : Stored s (front ++ back) u := by
  obtain ⟨-, place, unclosed, bytes, room⟩ := one
  obtain ⟨open_, place', unclosed', bytes', room'⟩ := other
  rw [place] at place' unclosed' bytes' room'
  refine ⟨open_, ?_, ?_, ?_, ?_⟩
  · rw [place', Cursor.advance_append]
  · rw [Cursor.signals_append, closed_append, unclosed, unclosed', Bool.or_false]
  · rw [bytes', bytes, dataOf_fed front unclosed, List.append_assoc]
  · rw [dataOf_fed front unclosed, List.length_append]
    omega

/-- How far data goes: to its end, all but the last byte leaving room, or to
where there is no room left. -/
inductive Taken (s : Session) (data : Bytes) : Absorbed → Prop
  | whole {t entries} (fed : fed entries = data) (stored : Stored s data t)
      (room : data ≠ [] →
      (dataOf ((cursor s.wsParser).signals data.dropLast)).length < bufferWritable s.clientToTarget) :
      Taken s data (.kept t entries (.ok ()))
  | cut {t entries first last} (layout : data = first ++ last)
      (some_ : last ≠ []) (fed : fed entries = first) (stored : Stored s first t)
      (full : bufferWritable t.clientToTarget = 0) : Taken s data (.kept t entries (.error .again))

theorem Taken.behind {outcome : Absorbed} {entries : List Io} (stored : Stored s front t)
    (fed : Streams.fed entries = front)
    (before : 0 < bufferWritable s.clientToTarget →
      back = [] → (dataOf ((cursor s.wsParser).signals front.dropLast)).length < bufferWritable s.clientToTarget)
    (positive : 0 < bufferWritable s.clientToTarget) (taken : Taken t back outcome) :
    Taken s (front ++ back) (outcome.behind entries) := by
  cases taken with
  | whole later rest room =>
    refine .whole (by rw [fed_append, fed, later]) (stored.trans rest) fun _ => ?_
    by_cases empty : back = []
    · rw [empty, List.append_nil]
      exact before positive empty
    · have less := room empty
      have total := stored.room
      rw [List.dropLast_append_of_ne_nil empty, dataOf_fed front stored.unclosed, List.length_append, ← stored.place]
      omega
  | @cut _ _ middle end_ layout some_ later rest full =>
    refine .cut (by rw [layout, List.append_assoc]) some_ (by rw [fed_append, fed, later]) (stored.trans rest) full

private theorem signals_dropLast (place : Cursor) (bytes : Bytes) :
    place.signals bytes.dropLast = (place.signals bytes).dropLast := by
  induction bytes generalizing place with
  | nil => rfl
  | cons byte rest ih =>
    cases rest with
    | nil => rfl
    | cons next rest => exact congrArg (place.signal byte :: ·) (ih (place.step byte))

/-- Of one delivered piece, all but the last byte is less than what there is room for. -/
theorem delivery_dropLast (silent opcode room : Nat) (payload : Bytes) (fits : payload.length ≤ room)
    (positive : 0 < room) :
    (dataOf (List.replicate silent Signal.quiet ++ delivery opcode payload).dropLast).length < room := by
  cases payload with
  | nil =>
    rw [delivery, List.dropLast_concat, dataOf_quiet]
    exact positive
  | cons byte rest =>
    have shape : delivery opcode (byte :: rest) = (byte :: rest).map (.byte opcode) := rfl
    rw [shape, List.dropLast_append_of_ne_nil (by simp),
      dataOf_append, dataOf_quiet, closed_quiet, ← List.map_dropLast, dataOf_bytes]
    simp only [List.nil_append, if_neg Bool.false_ne_true, List.length_cons] at fits ⊢
    split
    · rw [List.length_dropLast, List.length_cons]
      omega
    · exact positive

/-- The session behind a piece of a data frame. -/
theorem stored_piece {msg : WsMessage} {capacity used : Nat} (sound : Sound config s)
    (open_ : s.closing = .no) (delivers : Delivered s.wsParser data capacity after used msg)
    (kind : IsData msg.opcode) (fits : msg.payload.length ≤ bufferWritable s.clientToTarget) :
    Stored s (data.take used)
      { s with wsParser := after, clientToTarget := (bufferWrite s.clientToTarget msg.payload).buffer } := by
  obtain ⟨silent, signals⟩ := delivers.signals
  have low : msg.opcode ≤ 2 := (isData_iff _).mp kind
  have heard : dataOf ((cursor s.wsParser).signals (data.take used)) = msg.payload := by
    rw [signals, dataOf_append, dataOf_quiet, closed_quiet, dataOf_delivery, if_pos low]
    rfl
  refine ⟨open_, delivers.cursor, ?_, ?_, ?_⟩
  · rw [signals, closed_append, closed_quiet, closed_delivery]
    simp only [Bool.false_or, beq_eq_false_iff_ne]
    omega
  · rw [heard]
    exact (bufferWrite_fits sound.clientToTarget.valid fits).2.2
  · rw [heard]
    simp only [writable_bufferWrite sound.clientToTarget.valid fits]
    omega

/-- The session behind bytes that the parser only takes in. -/
theorem stored_quiet (open_ : s.closing = .no) (exhausted : Exhausted s.wsParser data after) :
    Stored s data { s with wsParser := after } := by
  refine ⟨open_, exhausted.cursor, ?_, ?_, ?_⟩
  · rw [exhausted.signals, closed_quiet]
  · rw [exhausted.signals, dataOf_quiet, List.append_nil]
  · rw [exhausted.signals, dataOf_quiet]
    rfl

/-- What a session makes of data alone. -/
theorem absorb_data (fuel : Nat) (enough : data.length < fuel) (sound : Sound config s) (done : s.handshakeDone = true)
    (open_ : s.closing = .no) (only : DataOnly s.wsParser data) : Taken s data (absorb fuel s data) := by
  induction fuel generalizing s data with
  | zero => omega
  | succ fuel ih =>
    by_cases empty : data = []
    · rw [absorb_settled fuel (.inl empty), empty]
      exact .whole rfl (.refl open_) (absurd rfl)
    · by_cases full : payloadCapacity s = 0
      · rw [absorb_full fuel empty open_ full]
        refine .cut (List.nil_append data).symm empty rfl (.refl open_) ?_
        rw [payloadCapacity, minSize_eq, ioChunk] at full
        omega
      · have positive : 0 < bufferWritable s.clientToTarget := by
          rw [payloadCapacity, minSize_eq] at full
          omega
        have some_ : 0 < data.length := List.length_pos_iff.mpr empty
        obtain ⟨result, fed⟩ : ∃ result, wsParserFeed s.wsParser data (payloadCapacity s) = result := ⟨_, rfl⟩
        have spec := wsParserFeed_fed (Nat.pos_of_ne_zero full) data sound.parser
        rw [fed, Fed] at spec
        rcases feed_data (Nat.pos_of_ne_zero full) sound.parser only fed with ⟨msg, outcome, kind, later⟩ | outcome
        · obtain ⟨progress, within, fitting⟩ := delivered_fits sound full fed outcome
          rw [outcome] at spec
          obtain ⟨used, total, delivers⟩ := spec
          obtain rfl : result.used = used := by omega
          obtain ⟨silent, signals⟩ := delivers.signals
          have fits : msg.payload.length ≤ bufferWritable s.clientToTarget := fitting.data
          obtain ⟨kept, still⟩ :=
            sound_handled (sound_parsed sound done full fed (.inr ⟨msg, outcome⟩)) done open_ (.stored kind fits)
          rw [absorb_message fuel empty open_ full fed outcome (handled_absorbs (.stored kind fits))]
          have stored := stored_piece sound open_ delivers kind fits
          have rest :=
            ih (show (data.drop result.used).length < fuel by rw [List.length_drop]; omega) kept still open_ later
          have parses : Streams.fed (.feed (data.take result.used) ::
              [.store .client msg.payload msg.payload.length]) = data.take result.used := by
            simp
          have less : (dataOf ((cursor s.wsParser).signals (data.take result.used).dropLast)).length <
              bufferWritable s.clientToTarget := by
            rw [signals_dropLast, signals]
            exact delivery_dropLast _ _ _ _ fits positive
          have whole := rest.behind stored parses (fun _ _ => less) positive
          rwa [List.take_append_drop] at whole
        · rw [outcome] at spec
          obtain ⟨used, exhausted⟩ := spec
          have all : result.used = data.length := by omega
          rw [absorb_again fuel empty open_ full fed outcome, all, List.take_length, List.drop_length]
          have stored := stored_quiet open_ exhausted
          have rest := ih (show ([] : Bytes).length < fuel by rw [List.length_nil]; omega)
            (sound_parsed sound done full fed (.inl outcome)) done open_
            ⟨rfl, by simp [follow]⟩
          have less : (dataOf ((cursor s.wsParser).signals data.dropLast)).length <
              bufferWritable s.clientToTarget := by
            rw [signals_dropLast, exhausted.signals, List.dropLast_replicate, dataOf_quiet]
            exact positive
          have parses : Streams.fed [.feed data] = data := by simp
          have whole := rest.behind stored parses (fun _ _ => less) positive
          rwa [List.append_nil] at whole

/-- A new session's bytes behind its request have all been parsed, once and in
order: they are accounted for in the record, their data is in the ring buffer,
and the parser stands behind them. -/
structure Parsed (before : List Io) (bytes : Bytes) (log : List Io) (t : Session) : Prop where
  fed : ∃ grown, log = before ++ grown ∧ fed grown = bytes
  stored : contents t.clientToTarget = dataOf (start.signals bytes)
  place : cursor t.wsParser = start.advance bytes

/-- Data that leaves room for its last byte. -/
def Roomy (config : Config) (bytes : Bytes) : Prop :=
  (dataOf (start.signals bytes.dropLast)).length < sessionBufferSize config

instance (config : Config) (bytes : Bytes) : Decidable (Roomy config bytes) := inferInstanceAs (Decidable (_ < _))

/-- A session that waits for its request has an empty buffer and a new parser. -/
theorem early_room (sound : Sound config s) (unfinished : s.handshakeDone = false) :
    contents s.clientToTarget = [] ∧
    bufferWritable s.clientToTarget = sessionBufferSize config ∧ cursor s.wsParser = start := by
  obtain ⟨-, -, -, parser, ⟨empty, -⟩, -⟩ := sound.early unfinished
  refine ⟨(contents_eq_nil sound.clientToTarget.valid).mpr empty, ?_, by rw [parser]; rfl⟩
  rw [bufferWritable, empty, sound.clientToTarget.capacity, Nat.sub_zero]

/-- Data that is taken from the start is parsed whole exactly when it is roomy. -/
theorem taken_parsed {entries log : List Io} {rc : Except Err Unit} {bytes : Bytes}
    (taken : Taken s bytes (.kept t entries rc)) (empty : contents s.clientToTarget = [])
    (room : bufferWritable s.clientToTarget = sessionBufferSize config)
    (place : cursor s.wsParser = start) (positive : 0 < sessionBufferSize config)
    (same : u.clientToTarget = t.clientToTarget ∧ u.wsParser = t.wsParser) (before : List Io)
    (logged : ∃ grown, log = before ++ grown ∧ Streams.fed grown = Streams.fed entries) :
    Parsed before bytes log u ↔ Roomy config bytes := by
  obtain ⟨grown, rfl, parses⟩ := logged
  rw [Roomy]
  cases taken with
  | whole fed stored less =>
    rw [place, room] at less
    refine ⟨fun _ => ?_, fun _ => ⟨⟨grown, rfl, parses.trans fed⟩, ?_, ?_⟩⟩
    · by_cases nothing : bytes = []
      · rw [nothing]
        exact positive
      · exact less nothing
    · rw [same.1, stored.bytes, empty, place, List.nil_append]
    · rw [same.2, stored.place, place]
  | @cut _ _ front back layout some_ fed stored full =>
    have total := stored.room
    have unclosed := stored.unclosed
    rw [full, room, place, Nat.zero_add] at total
    rw [place] at unclosed
    constructor
    · intro ⟨⟨other, same, whole⟩, _, _⟩
      rw [← List.append_cancel_left same, parses, fed] at whole
      have lengths := congrArg List.length (whole.trans layout)
      have some_ := List.length_pos_iff.mpr some_
      rw [List.length_append] at lengths
      omega
    · intro roomy
      rw [layout, List.dropLast_append_of_ne_nil some_, dataOf_fed front unclosed, List.length_append] at roomy
      omega

private theorem handshakeRest_takes {consumed : Nat} {bytes : Bytes}
    (behind : x.session.handshake.drop consumed = bytes) (sound : Sound site.world.config x.session)
    (done : x.session.handshakeDone = true) (open_ : x.session.closing = .no)
    (only : DataOnly x.session.wsParser bytes) (empty : contents x.session.clientToTarget = [])
    (room : bufferWritable x.session.clientToTarget = sessionBufferSize site.world.config)
    (place : cursor x.session.wsParser = start) (before : List Io)
    (logged : ∃ more, x.log = before ++ more ∧ fed more = []) :
    Yields site (fun _ _ => True) (handshakeRest site.id consumed)
      (fun _ y => Parsed before bytes y.log y.session ↔ Roomy site.world.config bytes) x := by
  refine (handshakeRest_absorbs behind sound done).weaken ?_ fun _ _ _ => trivial
  rintro _ y ⟨t, entries, rc, absorbed, fine, session, grown, -⟩
  have taken := absorb_data _ (Nat.lt_succ_self _) sound done open_ only
  rw [absorbed] at taken
  refine taken_parsed taken empty room place (Creation.sessionBufferSize_pos _) ?_ before ?_
  · rw [session]
    exact ⟨rfl, rfl⟩
  · obtain ⟨more, old, silent⟩ := logged
    exact ⟨more ++ entries, by rw [grown, old, List.append_assoc], by rw [fed_append, silent, List.nil_append]⟩

/-- What the upgrade leaves when the bytes behind the request are data. -/
theorem handshakeBytes_takes (env : Env) {response : Bytes} {consumed : Nat}
    (sound : Sound site.world.config x.session) (unfinished : x.session.handshakeDone = false)
    (ready : x.session.clientTlsReady = true)
    (fits : data.length ≤ wsMaxHttpRequest - x.session.handshake.length)
    (granted : wsBuildHandshakeResponse (x.session.handshake ++ data) 256 = .ok (response, consumed))
    (frames : DataFrames ((x.session.handshake ++ data).drop consumed)) (before : List Io)
    (logged : ∃ more, x.log = before ++ more ∧ fed more = []) :
    Yields site (fun _ _ => True) (sessionHandleHandshakeBytes env site.id data)
      (fun _ y => Parsed before ((x.session.handshake ++ data).drop consumed) y.log y.session ↔
        Roomy site.world.config ((x.session.handshake ++ data).drop consumed)) x := by
  have gathered : Sound site.world.config { x.session with handshake := x.session.handshake ++ data } := { sound with }
  have parser := (sound.early unfinished).2.2.2.1
  have whole : ∀ error, wsBuildHandshakeResponse (x.session.handshake ++ data) 256 ≠ .error error := by
    intro error refused
    cases granted.symm.trans refused
  apply handshakeBytes_cases sound unfinished
  · exact fun excess => absurd excess (not_lt.mpr fits)
  · exact fun _ again => absurd again (whole .again)
  · exact fun _ _ _ _ => trivial
  · exact fun _ _ _ _ _ _ _ _ => trivial
  · intro response' consumed' fd inProgress _ granted' _ _
    obtain ⟨rfl, rfl⟩ : response = response' ∧ consumed = consumed' := by simpa using granted.symm.trans granted'
    have begun : Sound site.world.config
        (upgraded { x.session with handshake := x.session.handshake ++ data } response fd inProgress
        (env.time (x.calls + 1))) := sound_readsClient gathered (show ReadsClient True ⟨_, [], []⟩ ⟨_, _, _⟩ from
        .accepted response consumed fd inProgress
          (env.time (x.calls + 1)) unfinished (sound.early unfinished).1 ready granted fun _ => trivial)
    have only : DataOnly x.session.wsParser ((x.session.handshake ++ data).drop consumed) :=
      parser ▸ dataFrames_only frames
    obtain ⟨empty, room, place⟩ := early_room sound unfinished
    obtain ⟨more, old, silent⟩ := logged
    have added : x.log ++ [.response response, .connect (.ok (fd, inProgress))] =
        before ++ (more ++ [.response response, .connect (.ok (fd, inProgress))]) := by simp [old]
    refine handshakeRest_takes ?_ begun rfl ?_ ?_ ?_ ?_ ?_ before ⟨_, added, by rw [fed_append, silent]; rfl⟩
    · rfl
    · exact (sound.early unfinished).1
    · exact only
    · exact empty
    · exact room
    · exact place

def handed (env : Env) (id : SessionId) (w : World) : World :=
  ((do let _ ← readSide env id .client ioChunk; sessionTouch env id : Proc Unit) w.begin).2

def upgradedBy (env : Env) (id : SessionId) (data : Bytes) (w : World) : World :=
  (sessionHandleHandshakeBytes env id data (handed env id w)).2

/-- A session as it was when its event began, but for what reading has touched. -/
structure Handed (x y : Own) : Prop where
  session : ∃ time, y.session = { x.session with lastActivityAt := time }
  log : ∃ more, y.log = x.log ++ more ∧ fed more = []

private theorem handed_place (site : Site) (x : Own) (env : Env) : ∃ y, Handed x y ∧
    ((do let _ ← readSide env site.id .client ioChunk; sessionTouch env site.id : Proc Unit) (site.place x)).2 =
    site.place y := by
  have reads : Yields site (fun _ _ => False)
      (do let _ ← readSide env site.id .client ioChunk; sessionTouch env site.id) (fun _ => Handed x) x := by
    rw [yields_readSide, sessionTouch, yields_calls]
    apply yields_update_last
    exact ⟨⟨_, rfl⟩, _, rfl, by simp⟩
  rcases yields_after reads with found | ⟨_, impossible, -⟩
  · exact found
  · exact impossible.elim

/-- The data frames behind an accepted request are parsed whole, if the session
lives, exactly when the ring buffer has room for their payload up to the last byte. -/
theorem pipelined_parsed {config : Config} {w : World} {id : SessionId} {s t : Session} {env : Env}
    {data response : Bytes} {consumed : Nat} (reachable : Reachable config w)
    (waits : UpgradeRuns.Waits w id s) (fits : data.length ≤ wsMaxHttpRequest - s.handshake.length)
    (granted : wsBuildHandshakeResponse (s.handshake ++ data) 256 = .ok (response, consumed))
    (frames : DataFrames ((s.handshake ++ data).drop consumed))
    (lives : (upgradedBy env id data w).session? id = some t) :
    Parsed (w.log id) ((s.handshake ++ data).drop consumed) ((upgradedBy env id data w).log id) t ↔
      Roomy config ((s.handshake ++ data).drop consumed) := by
  have inv := reachable_invariant reachable
  obtain ⟨order, linked⟩ := inv.linked
  let site : Site := siteOf linked waits.alive
  have own : site.place ⟨s, w.log id, w.interest id, 0⟩ = w.begin := site.place_own waits.alive
  have config : site.world.config = config := inv.configured
  have sound : Sound site.world.config s := config ▸ (inv.lived id s waits.alive).sound
  obtain ⟨y, ⟨⟨time, session⟩, more, logged, silent⟩, placed⟩ := handed_place site ⟨s, w.log id, w.interest id, 0⟩ env
  rw [own] at placed
  simp only at session logged
  have touched : Sound site.world.config y.session := by
    rw [session]
    exact { sound with }
  have event := yields_after (handshakeBytes_takes (x := y) env touched (by rw [session]; exact waits.unfinished)
    (by rw [session]; exact waits.ready) (by rw [session]; exact fits) (by rw [session]; exact granted)
      (by rw [session]; exact frames)
    (w.log id) ⟨more, logged, silent⟩)
  rw [← placed] at event
  change (upgradedBy env id data w).session? id = some t at lives
  rcases event with ⟨z, exact_, last⟩ | ⟨z, -, released⟩
  · have here : upgradedBy env id data w = site.place z := last
    have same : (site.place z).session? id = some z.session := site.session_place_self z
    have log : (site.place z).log id = z.log := site.log_place_self z
    rw [here, same] at lives
    obtain rfl := Option.some.inj lives
    rw [session, config] at exact_
    rw [here, log]
    exact exact_
  · have gone : (upgradedBy env id data w).session? id = none := session_none.mpr released.gone
    rw [gone] at lives
    cases lives

def followed : Bytes := sampleRequest ++ [130, 129, 0, 0, 0, 0, 9]

theorem pipelined_parsed_followed :
    ∃ t response consumed,
    (upgradedBy (.scripted [] true 0) 0 followed (connected (sampleConfig 64))).session? 0 = some t ∧
    wsBuildHandshakeResponse followed 256 = .ok (response, consumed) ∧
    Parsed ((connected (sampleConfig 64)).log 0) (followed.drop consumed)
      ((upgradedBy (.scripted [] true 0) 0 followed (connected (sampleConfig 64))).log 0) t := by
  obtain ⟨reachable, s, waits, empty, -⟩ := UpgradeRuns.connected_waits
  have valid : (wsBuildHandshakeResponse followed 256).map Prod.snd = .ok sampleRequest.length := by decide +kernel
  obtain ⟨response, granted⟩ :
      ∃ response, wsBuildHandshakeResponse followed 256 = .ok (response, sampleRequest.length) := by
    generalize wsBuildHandshakeResponse followed 256 = reply at valid
    cases reply with
    | error error => cases valid
    | ok reply => exact ⟨reply.1, by rw [← Except.ok.inj valid]⟩
  have rest : followed.drop sampleRequest.length = [130, 129, 0, 0, 0, 0, 9] := List.drop_left
  have lives : (upgradedBy (.scripted [] true 0) 0 followed (connected (sampleConfig 64))).session? 0 ≠ none := by
    decide +kernel
  obtain ⟨t, alive⟩ := Option.ne_none_iff_exists'.mp lives
  refine ⟨t, response, sampleRequest.length, alive, granted, ?_⟩
  have whole : s.handshake ++ followed = followed := by rw [empty, List.nil_append]
  have parsed := pipelined_parsed reachable waits (by rw [empty]; decide +kernel) (whole.symm ▸ granted)
    (by rw [whole, rest]; exact ⟨[⟨true, 2, [0, 0, 0, 0], [9]⟩], by decide, by decide, by decide⟩) alive
  rw [whole] at parsed
  exact parsed.mpr (by rw [rest]; decide +kernel)

def outgrown : Bytes := sampleRequest ++ [130, 130, 0, 0, 0, 0, 9, 9]

theorem pipelined_dropped :
    (sampleConfig 1).Accepted ∧ Reachable (sampleConfig 1) (connected (sampleConfig 1)) ∧
    (wsBuildHandshakeResponse outgrown 256).map Prod.snd = .ok sampleRequest.length ∧
    DataFrames (outgrown.drop sampleRequest.length) ∧
    ∃ s t, UpgradeRuns.Waits (connected (sampleConfig 1)) 0 s ∧ s.handshake = [] ∧
      (upgradedBy (.scripted [] true 0) 0 outgrown (connected (sampleConfig 1))).session? 0 = some t ∧
      ¬ Parsed ((connected (sampleConfig 1)).log 0) (outgrown.drop sampleRequest.length)
        ((upgradedBy (.scripted [] true 0) 0 outgrown (connected (sampleConfig 1))).log 0) t := by
  have rest : outgrown.drop sampleRequest.length = [130, 130, 0, 0, 0, 0, 9, 9] := List.drop_left
  have before : (connected (sampleConfig 1)).session? 0 ≠ none ∧ ∀ s ∈ (connected (sampleConfig 1)).session? 0,
      s.handshakeDone = false ∧ s.clientTlsReady = true ∧ s.handshake = [] := by decide +kernel
  have behind : (upgradedBy (.scripted [] true 0) 0 outgrown (connected (sampleConfig 1))).session? 0 ≠ none ∧
      ∀ t ∈ (upgradedBy (.scripted [] true 0) 0 outgrown (connected (sampleConfig 1))).session? 0,
        cursor t.wsParser ≠ start.advance [130, 130, 0, 0, 0, 0, 9, 9] := by decide +kernel
  obtain ⟨s, waits⟩ := Option.ne_none_iff_exists'.mp before.1
  obtain ⟨t, lives⟩ := Option.ne_none_iff_exists'.mp behind.1
  obtain ⟨unfinished, ready, empty⟩ := before.2 s waits
  refine ⟨by decide, connected_runs trivial, by decide +kernel, ?_, s, t, ⟨waits, unfinished, ready⟩, empty, lives,
    fun parsed => ?_⟩
  · rw [rest]
    exact ⟨[⟨true, 2, [0, 0, 0, 0], [9, 9]⟩], by decide, by decide, by decide⟩
  · have place := parsed.place
    rw [rest] at place
    exact behind.2 t lives place

end Sockify.Proofs.PipelinedFrames
