import Sockify.Proofs.Lifetimes
import Sockify.Streams

/-! What the client sends after its upgrade reaches the target: the payload of
its data frames, in order, up to its first CLOSE. The bytes in hand never
outgrow the free space of the ring buffer, so none of them is given up. -/

namespace Sockify.Proofs.ClientStream
open Sockify Behaviour Soundness Lifetimes Streams BufferQueue Framing ParserCursor

/-- The bytes on their way to the target since the moment of `s₀` and `l₀`:
`taken` was parsed since, and `rest` was read and not parsed. -/
structure Incoming (config : Config) (s₀ : Session) (l₀ : List Io) (m : Moment) (grown : List Io)
    (rest : Bytes) : Prop where
  sound : Sound config m.session
  done : m.session.handshakeDone = true
  log : m.log = l₀ ++ grown
  reads : received .client grown = fed grown ++ rest
  hand : m.session.closing = .no → rest = m.hand ∧ m.hand.length ≤ bufferWritable m.session.clientToTarget ∧
    closed ((cursor s₀.wsParser).signals (fed grown)) = false
  ended : m.session.closing = .started → rest = [] ∨ closed ((cursor s₀.wsParser).signals (fed grown)) = true
  place : cursor m.session.wsParser = (cursor s₀.wsParser).advance (fed grown)
  bytes : delivered .target m.log ++ contents m.session.clientToTarget =
    delivered .target l₀ ++ contents s₀.clientToTarget ++ dataOf ((cursor s₀.wsParser).signals (fed grown))
  whole : (∀ lost, .abandoned lost ∉ grown) ∧
    ∀ payload written, .store .client payload written ∈ grown → written = payload.length

variable {config : Config} {early : Prop} {m n : Moment} {s₀ s t : Session}
  {l₀ l l' more grown : List Io} {h h' rest : Bytes}

private theorem incoming_start (sound : Sound config s₀) (done : s₀.handshakeDone = true) :
    Incoming config s₀ l₀ ⟨s₀, l₀, []⟩ [] [] where
  sound := sound
  done := done
  log := by simp
  reads := rfl
  hand := fun _ => ⟨rfl, Nat.zero_le _, rfl⟩
  ended := fun _ => .inl rfl
  place := rfl
  bytes := by simp [Cursor.signals, dataOf]
  whole := by simp

/-- A step that neither reads from the client nor parses. -/
theorem Incoming.still (more : List Io) (incoming : Incoming config s₀ l₀ ⟨s, l, h⟩ grown rest)
    (sound : Sound config t) (done : t.handshakeDone = s.handshakeDone) (logged : l' = l ++ more)
    (reads : received .client more = []) (parses : fed more = []) (closing : t.closing = s.closing)
    (hand : s.closing = .no → h' = h) (parser : t.wsParser = s.wsParser)
    (room : bufferWritable s.clientToTarget ≤ bufferWritable t.clientToTarget)
    (bytes : delivered .target more ++ contents t.clientToTarget = contents s.clientToTarget)
    (whole : ∀ io ∈ more, (∀ lost, io ≠ .abandoned lost) ∧ ∀ payload written, io ≠ .store .client payload written) :
    Incoming config s₀ l₀ ⟨t, l', h'⟩ (grown ++ more) rest where
  sound := sound
  done := done.trans incoming.done
  log := by
    have log : l = l₀ ++ grown := incoming.log
    simp [logged, log]
  reads := by simp [reads, parses, incoming.reads]
  hand := fun open_ => by
    have open_ := closing ▸ open_
    obtain ⟨same, fits, unclosed⟩ := incoming.hand open_
    rw [hand open_]
    exact ⟨same, le_trans fits room, by simpa [parses] using unclosed⟩
  ended := fun started => by simpa [parses] using incoming.ended (closing ▸ started)
  place := by simpa [parser, parses] using incoming.place
  bytes := by
    have before := incoming.bytes
    simp only [← bytes] at before
    simpa [logged, parses] using before
  whole := by
    refine ⟨fun lost member => ?_, fun payload written member => ?_⟩
    · rcases List.mem_append.mp member with old | new
      · exact incoming.whole.1 lost old
      · exact (whole _ new).1 lost rfl
    · rcases List.mem_append.mp member with old | new
      · exact incoming.whole.2 payload written old
      · exact absurd rfl ((whole _ new).2 payload written)

theorem dataOf_fed {cursor : Cursor} (first : Bytes) {last : Bytes}
    (open_ : closed (cursor.signals first) = false) :
    dataOf (cursor.signals (first ++ last)) = dataOf (cursor.signals first) ++ dataOf
      ((cursor.advance first).signals last) := by
  simp [Cursor.signals_append, dataOf_append, open_]

theorem isData_iff (opcode : Nat) : IsData opcode ↔ opcode ≤ 2 := by
  simp only [IsData, Opcode.binary, Opcode.text, Opcode.continuation]
  omega

/-- A call of the parser: what it used has been heard by the receiver. -/
theorem Incoming.parsed {result : FeedResult} (data : Bytes) (shut : Bool) {extra : List Io}
    (incoming : Incoming config s₀ l₀ ⟨s, l, h⟩ grown rest) (open_ : s.closing = .no)
    (sound : Sound config t) (finished : t.handshakeDone = true)
    (place : cursor t.wsParser = (cursor s.wsParser).advance (h.take result.used))
    (heard : dataOf ((cursor s.wsParser).signals (h.take result.used)) = data ∧
      closed ((cursor s.wsParser).signals (h.take result.used)) = shut)
    (kept : contents t.clientToTarget = contents s.clientToTarget ++ data)
    (hand : t.closing = .no → (h.drop result.used).length ≤ bufferWritable t.clientToTarget ∧ shut = false)
    (ended : t.closing = .started → shut = true) (reads : received .client extra = [])
    (parses : fed extra = []) (sends : delivered .target extra = [])
    (whole : (∀ lost, .abandoned lost ∉ extra) ∧
      ∀ payload written, .store .client payload written ∈ extra → written = payload.length) :
    Incoming config s₀ l₀ ⟨t, l ++ .feed (h.take result.used) :: extra, h.drop result.used⟩
      (grown ++ .feed (h.take result.used) :: extra) (h.drop result.used) := by
  obtain ⟨same, fits, unclosed⟩ := incoming.hand open_
  have log : l = l₀ ++ grown := incoming.log
  have before := incoming.place
  have known : closed ((cursor s₀.wsParser).signals (fed grown ++ h.take result.used)) = shut := by
    rw [Cursor.signals_append, ← before, closed_append, unclosed, heard.2]
    rfl
  have consumed : fed (grown ++ .feed (h.take result.used) :: extra) = fed grown ++ h.take result.used := by
    simp [parses]
  refine ⟨sound, finished, by simp [log], ?_, ?_, ?_, ?_, ?_, ?_⟩
  · rw [consumed, received_append, incoming.reads, received_cons, reads, same]
    simp
  · intro still
    rw [consumed, known]
    exact ⟨rfl, hand still⟩
  · intro started
    rw [consumed, known]
    exact .inr (ended started)
  · rw [consumed, Cursor.advance_append, ← before, place]
  · have bytes := incoming.bytes
    simp only at bytes
    rw [consumed, dataOf_fed _ unclosed, ← before, heard.1, ← List.append_assoc (_ ++ _), ← bytes, kept,
      delivered_append, delivered_cons, sends]
    simp
  · refine ⟨fun lost member => ?_, fun payload written member => ?_⟩
    · rcases List.mem_append.mp member with old | new
      · exact incoming.whole.1 lost old
      · exact whole.1 lost (by simpa using new)
    · rcases List.mem_append.mp member with old | new
      · exact incoming.whole.2 payload written old
      · exact whole.2 payload written (by simpa using new)

def Underway (config : Config) (s₀ : Session) (l₀ : List Io) (m : Moment) : Prop :=
  ∃ grown rest, Incoming config s₀ l₀ m grown rest

private theorem incoming_readsClient (underway : Underway config s₀ l₀ ⟨s, l, h⟩)
    (act : ReadsClient early ⟨s, l, h⟩ ⟨t, l', h'⟩) :
    Underway config s₀ l₀ ⟨t, l', h'⟩ := by
  obtain ⟨grown, rest, incoming⟩ := underway
  have sound : Sound config t := sound_readsClient incoming.sound act
  have done : s.handshakeDone = true := incoming.done
  cases act with
  | touched =>
    exact ⟨_, _, incoming.still [] sound rfl (by simp) rfl rfl rfl (fun _ => rfl) rfl (Nat.le_refl _) rfl (by simp)⟩
  | refused =>
    exact ⟨_, _, incoming.still _ sound rfl rfl (by simp)
      (by simp) rfl (fun _ => rfl) rfl (Nat.le_refl _) (by simp) (by simp)⟩
  | received bytes ready open_ nonempty fits =>
    obtain ⟨rfl, -, unclosed⟩ := incoming.hand open_
    have log : l = l₀ ++ grown := incoming.log
    have room : h'.length ≤ bufferWritable s.clientToTarget := by
      rw [readLimit, if_pos done, minSize_eq] at fits
      omega
    refine ⟨grown ++ [_], h', ⟨sound, done, by rw [log, List.append_assoc], ?_, ?_, ?_, ?_, ?_, ?_⟩⟩
    · simp [incoming.reads]
    · exact fun _ => ⟨rfl, room, by simpa using unclosed⟩
    · exact fun started => by rw [show s.closing = .started from started] at open_; cases open_
    · simpa using incoming.place
    · simpa using incoming.bytes
    · simpa using incoming.whole
  | gathered unfinished => exact absurd done (by simp [unfinished])
  | accepted response consumed fd inProgress time unfinished => exact absurd done (by simp [unfinished])
  | parsed result done open_ room fed again =>
    have spec := wsParserFeed_fed (Nat.pos_of_ne_zero room) h incoming.sound.parser
    rw [fed, Fed, again] at spec
    obtain ⟨used, exhausted⟩ := spec
    have all : h.take result.used = h := List.take_of_length_le (by omega)
    obtain ⟨-, fits, -⟩ := incoming.hand open_
    refine ⟨_, _, incoming.parsed [] false open_ sound done ?_ ?_
      (by simp) (fun _ => ⟨?_, rfl⟩) ?_ rfl rfl rfl (by simp)⟩
    · rw [all]
      exact exhausted.cursor
    · rw [all, exhausted.signals]
      exact ⟨dataOf_quiet _, closed_quiet _⟩
    · rw [List.length_drop]
      exact (Nat.sub_le _ _).trans fits
    · exact fun started => by rw [show s.closing = .started from started] at open_; cases open_
  | handled result msg done open_ room fed delivered effect =>
    have spec := wsParserFeed_fed (Nat.pos_of_ne_zero room) h incoming.sound.parser
    rw [fed, Fed, delivered] at spec
    obtain ⟨used, total, delivers⟩ := spec
    obtain rfl : result.used = used := by omega
    obtain ⟨-, fits, -⟩ := incoming.hand open_
    obtain ⟨silent, signals⟩ := delivers.signals
    have heard : dataOf ((cursor s.wsParser).signals (h.take result.used)) =
        (if msg.opcode ≤ 2 then msg.payload else []) ∧
        closed ((cursor s.wsParser).signals (h.take result.used)) = (msg.opcode == 8) := by
      rw [signals, dataOf_append, dataOf_quiet,
        closed_quiet, dataOf_delivery, closed_append, closed_quiet, closed_delivery]
      exact ⟨rfl, rfl⟩
    have progress := delivers.payload
    have less : (h.drop result.used).length ≤ bufferWritable s.clientToTarget - msg.payload.length := by
      rw [List.length_drop]
      simp only at fits
      omega
    cases effect with
    | stored data fitting =>
      have low := (isData_iff _).mp data
      obtain ⟨-, -, stored⟩ := bufferWrite_fits incoming.sound.clientToTarget.valid fitting
      refine ⟨_, _, incoming.parsed _ _ open_ sound done delivers.cursor heard
        (by rw [if_pos low]; exact stored) (fun _ => ⟨?_, ?_⟩)
        (fun started => by rw [show s.closing = .started from started] at open_; cases open_) (by simp)
          (by simp) (by simp) (by simp)⟩
      · change _ ≤ bufferWritable (bufferWrite s.clientToTarget msg.payload).buffer
        rwa [writable_bufferWrite incoming.sound.clientToTarget.valid fitting]
      · simp only [beq_eq_false_iff_ne]
        omega
    | ponged frame ping idle written =>
      exact ⟨_, _, incoming.parsed _ _ open_ sound done delivers.cursor heard (by simp [ping, Opcode.ping, fill])
        (fun _ => ⟨less.trans (Nat.sub_le _ _), by simp [ping, Opcode.ping]⟩)
        (fun started => by rw [show s.closing = .started from started] at open_; cases open_) (by simp)
          (by simp) (by simp) (by simp)⟩
    | closeAnswered frame close idle written =>
      exact ⟨_, _, incoming.parsed _ _ open_ sound done delivers.cursor heard (by simp [close, Opcode.close, fill])
        (fun still => by cases still)
        (fun _ => by simp [close, Opcode.close]) (by simp) (by simp) (by simp) (by simp)⟩
    | closeHeld close busy =>
      exact ⟨_, _, incoming.parsed _ _ open_ sound done delivers.cursor heard
        (by simp [close, Opcode.close]) (fun still => by cases still)
        (fun _ => by simp [close, Opcode.close]) (by simp) (by simp) (by simp) (by simp)⟩
    | ignored other =>
      obtain ⟨notData, -, notClose⟩ := other
      rw [isData_iff] at notData
      exact ⟨_, _, incoming.parsed _ _ open_ sound done delivers.cursor heard (by simp [notData])
        (fun _ => ⟨less.trans (Nat.sub_le _ _), by simpa [Opcode.close] using notClose⟩)
        (fun started => by rw [show s.closing = .started from started] at open_; cases open_) (by simp)
          (by simp) (by simp) (by simp)⟩
  | discarded closing =>
    exact ⟨_, _, incoming.still [] sound rfl (by simp)
      rfl rfl rfl (fun open_ => by rw [closing] at open_; cases open_) rfl (Nat.le_refl _) rfl (by simp)⟩
  | abandoned some_ open_ full =>
    obtain ⟨-, fits, -⟩ := incoming.hand open_
    have some_ := List.length_pos_iff.mpr some_
    rw [payloadCapacity, minSize_eq, ioChunk] at full
    simp only at fits
    omega
  | cleared =>
    exact ⟨_, _, incoming.still [] sound rfl (by simp) rfl rfl rfl (fun _ => rfl) rfl (Nat.le_refl _) rfl (by simp)⟩

private theorem incoming_writesClient (underway : Underway config s₀ l₀ ⟨s, l, h⟩)
    (act : WritesClient ⟨s, l, h⟩ ⟨t, l', h'⟩) :
    Underway config s₀ l₀ ⟨t, l', h'⟩ := by
  obtain ⟨grown, rest, incoming⟩ := underway
  have sound : Sound config t := sound_writesClient incoming.sound act
  cases act with
  | touched =>
    exact ⟨_, _, incoming.still [] sound rfl (by simp) rfl rfl rfl (fun _ => rfl) rfl (Nat.le_refl _) rfl (by simp)⟩
  | emptied =>
    exact ⟨_, _, incoming.still [] sound rfl (by simp) rfl rfl rfl (fun _ => rfl) rfl (Nat.le_refl _) rfl (by simp)⟩
  | _ =>
    exact ⟨_, _, incoming.still _ sound rfl rfl (by simp)
      (by simp) rfl (fun _ => rfl) rfl (Nat.le_refl _) (by simp [fill]) (by simp)⟩

private theorem incoming_securesClient (underway : Underway config s₀ l₀ ⟨s, l, h⟩)
    (act : SecuresClient ⟨s, l, h⟩ ⟨t, l', h'⟩) :
    Underway config s₀ l₀ ⟨t, l', h'⟩ := by
  obtain ⟨grown, rest, incoming⟩ := underway
  have sound : Sound config t := sound_securesClient incoming.sound act
  cases act <;>
    exact ⟨_, _, incoming.still _ sound rfl rfl (by simp)
      (by simp) rfl (fun _ => rfl) rfl (Nat.le_refl _) (by simp) (by simp)⟩

private theorem incoming_actsTarget (underway : Underway config s₀ l₀ ⟨s, l, h⟩)
    (act : ActsTarget config early ⟨s, l, h⟩ ⟨t, l', h'⟩) :
    Underway config s₀ l₀ ⟨t, l', h'⟩ := by
  obtain ⟨grown, rest, incoming⟩ := underway
  have sound : Sound config t := sound_actsTarget incoming.sound act
  have valid : Valid s.clientToTarget := incoming.sound.clientToTarget.valid
  cases act with
  | touched =>
    exact ⟨_, _, incoming.still [] sound rfl (by simp) rfl rfl rfl (fun _ => rfl) rfl (Nat.le_refl _) rfl (by simp)⟩
  | sent count transfers fits =>
    refine ⟨_, _, incoming.still _ sound rfl rfl (by simp)
      (by simp) rfl (fun _ => rfl) rfl (writable_bufferConsume valid count) ?_ (by simp)⟩
    obtain ⟨-, -, dropped, -⟩ := bufferConsume_spec valid count
    rw [bufferPeek_spec valid, List.length_take] at fits
    simp only [delivered_cons, given, if_pos, delivered_nil, List.append_nil]
    rw [dropped, bufferPeek_spec valid, List.take_take, Nat.min_eq_left (by omega), List.take_append_drop]
  | _ =>
    exact ⟨_, _, incoming.still _ sound rfl rfl (by simp)
      (by simp) rfl (fun _ => rfl) rfl (Nat.le_refl _) (by simp) (by simp)⟩

private theorem incoming_acts (underway : Underway config s₀ l₀ m) (act : Acts config early m n) :
    Underway config s₀ l₀ n := by
  rcases act with ⟨_, ⟨-, reads⟩ | ⟨-, writes⟩ | secures⟩ | target
  · exact incoming_readsClient underway reads
  · exact incoming_writesClient underway writes
  · exact incoming_securesClient underway secures
  · exact incoming_actsTarget underway target

/-- From an upgraded session on, along any path. -/
theorem path_underway (sound : Sound config s₀) (done : s₀.handshakeDone = true)
    (path : Path (Acts config early) ⟨s₀, l₀, []⟩ m) :
    Underway config s₀ l₀ m :=
  path_keeps _ (fun _ _ => incoming_acts) ⟨_, _, incoming_start sound done⟩ path

/-- Between two callbacks nothing that was read is left to be parsed but what a CLOSE has made void. -/
theorem Incoming.settled (incoming : Incoming config s₀ l₀ ⟨t, l, []⟩ grown rest) :
    dataOf ((cursor s₀.wsParser).signals (received .client grown)) = dataOf
      ((cursor s₀.wsParser).signals (fed grown)) := by
  rw [incoming.reads]
  cases closing : t.closing with
  | no =>
    obtain ⟨none, -, -⟩ := incoming.hand closing
    rw [none, List.append_nil]
  | started =>
    rcases incoming.ended closing with none | shut
    · rw [none, List.append_nil]
    · rw [Cursor.signals_append, dataOf_append, shut]
      simp
  | released => exact absurd closing incoming.sound.live

/-- What a session leaves unread in its last step is not in the record of it. -/
theorem ends_log (ending : Ends early m ⟨t, l, h⟩) :
    ∃ more, l = m.log ++ more ∧ (∀ lost, .abandoned lost ∉ more) ∧
    ∀ payload written, .store .client payload written ∉ more := by
  rcases ending with client | target
  · cases client with
    | here => exact ⟨[], by simp, by simp, by simp⟩
    | unparsed => exact ⟨_, rfl, by simp, by simp⟩
    | unstarted => exact ⟨_, rfl, by simp, by simp⟩
    | interrupted => exact ⟨[], by simp, by simp, by simp⟩
    | drained => exact ⟨[], by simp, by simp, by simp⟩
  · cases target with
    | here => exact ⟨[], by simp, by simp, by simp⟩
    | unsecured => exact ⟨_, rfl, by simp, by simp⟩
    | overflowed => exact ⟨_, rfl, by simp, by simp⟩

theorem ends_silent (ending : Ends early m n) :
    ∃ more, n.log = m.log ++ more ∧ chunks .client more = [] ∧ frames more = [] := by
  rcases ending with client | target
  · cases client with
    | here | interrupted | drained => exact ⟨[], (List.append_nil _).symm, rfl, rfl⟩
    | unparsed | unstarted => exact ⟨_, rfl, rfl, rfl⟩
  · cases target with
    | here => exact ⟨[], (List.append_nil _).symm, rfl, rfl⟩
    | unsecured | overflowed => exact ⟨_, rfl, rfl, rfl⟩

/-- A client event sends nothing to the target. -/
theorem delivered_actsClient {events : Events} (act : ActsClient early events m n) :
    delivered .target n.log = delivered .target m.log := by
  rcases act with ⟨-, reads⟩ | ⟨-, writes⟩ | secures
  · cases reads with
    | handled result msg done open_ room fed delivered effect => cases effect <;> simp
    | _ => simp
  · cases writes <;> simp
  · cases secures <;> simp

/-- From an upgraded session on, whatever the run: while the session lives, what
its target has accepted and its ring buffer holds grows by the payload of the
data frames that were read from the client before the first CLOSE. Nothing is
ever left unparsed for want of room, and no payload is cut short. -/
theorem client_stream_forwarded {config : Config} {w after : World} {id : SessionId} {s : Session}
    (reachable : Reachable config w) (alive : w.session? id = some s) (done : s.handshakeDone = true)
    (run : Runs (fun _ _ _ => True) w after) :
    ∃ grown, after.log id = w.log id ++ grown ∧
      (∀ t, after.session? id = some t →
        delivered .target (after.log id) ++ contents t.clientToTarget =
          delivered .target (w.log id) ++ contents s.clientToTarget ++ dataOf
            ((cursor s.wsParser).signals (received .client grown)) ∧
        (t.closing = .no → fed grown = received .client grown)) ∧
      (∀ lost, .abandoned lost ∉ grown) ∧
      ∀ payload written, .store .client payload written ∈ grown → written = payload.length := by
  have sound := ((reachable_invariant reachable).lived id s alive).sound
  have fate := reachable_fate reachable alive run
  generalize after.log id = log at *
  cases state : after.session? id with
  | some t =>
    rw [state] at fate
    cases fate with
    | kept path =>
      obtain ⟨grown, rest, incoming⟩ := path_underway sound done path
      refine ⟨grown, incoming.log, fun t' same => ?_, incoming.whole⟩
      obtain rfl := Option.some.inj same
      refine ⟨by rw [incoming.settled]; exact incoming.bytes, fun open_ => ?_⟩
      rw [incoming.reads, (incoming.hand open_).1, List.append_nil]
  | none =>
    rw [state] at fate
    cases fate with
    | @released m t log' hand path ending =>
      obtain ⟨grown, rest, incoming⟩ := path_underway sound done path
      obtain ⟨more, rfl, kept, stored⟩ := ends_log ending
      refine ⟨grown ++ more ++ [.release t], by simp [incoming.log], fun _ same => (nomatch same), fun lost =>
        ?_, fun payload written => ?_⟩
      · simp [incoming.whole.1 lost, kept lost]
      · have before := incoming.whole.2 payload written
        simpa [stored payload written] using before

def segmented : World :=
  ((opened (sampleConfig 64) true).after
    (.scripted [.ok [130, 131, 1, 2, 3, 4, 8], .error .again] true 0) (.client 0 .reading)).after
    (.scripted [.ok [9, 10, 138, 128, 0, 0, 0, 0, 130], .error .again] true 0) (.client 0 .reading)

theorem client_stream_forwarded_segmented :
    ∃ s t, (opened (sampleConfig 64) true).session? 0 = some s ∧ segmented.session? 0 = some t ∧
    delivered .target (segmented.log 0) ++ contents t.clientToTarget = [9, 11, 9] ∧ ∃ grown,
      delivered .target (segmented.log 0) ++ contents t.clientToTarget =
        delivered .target ((opened (sampleConfig 64) true).log 0) ++ contents s.clientToTarget ++
          dataOf ((cursor s.wsParser).signals (received .client grown)) := by
  have opens : Reachable (sampleConfig 64) (opened (sampleConfig 64) true) :=
    opened_runs trivial trivial (by decide +kernel)
  obtain ⟨run, first, last, done, bytes⟩ : Runs (fun _ _ _ => True) (opened (sampleConfig 64) true) segmented ∧
      (opened (sampleConfig 64) true).session? 0 ≠ none ∧ segmented.session? 0 ≠ none ∧
      (∀ s ∈ (opened (sampleConfig 64) true).session? 0, s.handshakeDone = true) ∧
      ∀ t ∈ segmented.session? 0, delivered .target (segmented.log 0) ++ contents t.clientToTarget = [9, 11, 9] :=
    And.imp_left (Runs.next_of (Runs.next .refl _ _ trivial) trivial) (by decide +kernel)
  obtain ⟨s, alive⟩ := Option.ne_none_iff_exists'.mp first
  obtain ⟨t, still⟩ := Option.ne_none_iff_exists'.mp last
  obtain ⟨grown, -, forwarded, -, -⟩ := client_stream_forwarded opens alive (done s alive) run
  exact ⟨s, t, alive, still, bytes t still, grown, (forwarded t still).1⟩

end Sockify.Proofs.ClientStream
