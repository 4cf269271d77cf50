import Sockify.Proofs.PingReplies

/-! A control frame in pieces. The parser delivers what a read brings of its
payload, and asks for more while the header is incomplete; the session answers
every piece as if it were a frame. -/

namespace Sockify.Proofs.ControlPieces
open Sockify Stateful Behaviour Framing Streams Driving SessionLogic SessionSteps Soundness Simulation
open ParserCursor ParserSegmentation FrameGrammar Absorption ControlOnsets

/-- The header of a frame whose length takes one byte. -/
def shortHeader (frame : ClientFrame) : Bytes :=
  [headByte frame.fin frame.opcode, UInt8.ofNat (128 + frame.payload.length)] ++ frame.key

/-- The bytes of a frame that tell the receiver nothing of its payload. -/
def lead (frame : ClientFrame) : Nat := if frame.payload = [] then 5 else 6

variable {frame : ClientFrame} {front bytes back : Bytes} {capacity : Nat}

private theorem encode_short (short : frame.payload.length ≤ 125) :
    frame.encode = shortHeader frame ++ masked frame.key frame.payload := by
  simp [ClientFrame.encode, lengthField, short, shortHeader]

private theorem shortHeader_length (formed : frame.WellFormed) : (shortHeader frame).length = 6 := by
  simp [shortHeader, formed.key]

theorem encode_length (formed : frame.WellFormed) (short : frame.payload.length ≤ 125) :
    frame.encode.length = 6 + frame.payload.length := by
  rw [encode_short short, List.length_append, shortHeader_length formed, masked_length]

private theorem lengthByte {length : Nat} (short : length ≤ 125) :
    (UInt8.ofNat (128 + length) &&& 0x7f).toNat = length := by
  have all : ∀ length ≤ 125, (UInt8.ofNat (128 + length) &&& 0x7f).toNat = length := by decide
  exact all length short

theorem headByte_opcode {opcode : Nat} (fin : Bool) (fits : opcode ≤ 15) :
    (headByte fin opcode &&& 0x0f).toNat = opcode := by
  have all : ∀ fin, ∀ opcode ≤ 15, (headByte fin opcode &&& 0x0f).toNat = opcode := by decide
  exact all fin opcode fits

private theorem header_reads (b0 b1 k0 k1 k2 k3 : UInt8) (form : extendedLength b1 = 0) :
    start.signals [b0, b1, k0, k1, k2, k3] = List.replicate 5 .quiet ++
      [if (b1 &&& 0x7f).toNat = 0 then .empty (b0 &&& 0x0f).toNat else .quiet] ∧
    start.advance [b0, b1, k0, k1, k2, k3] =
      if (b1 &&& 0x7f).toNat = 0 then start else .payload (b0 &&& 0x0f).toNat [k0, k1, k2, k3] 0
      (b1 &&& 0x7f).toNat := by
  simp [start, Cursor.signals, Cursor.signal, Cursor.step,
    complete, headerLength, form, payloadLength, opcodeOf, keyOf, List.replicate]

private theorem shortHeader_reads (formed : frame.WellFormed) (short : frame.payload.length ≤ 125) :
    start.signals (shortHeader frame) =
    List.replicate 5 .quiet ++ [if frame.payload = [] then .empty frame.opcode else .quiet] ∧
    start.advance (shortHeader frame) =
    if frame.payload = [] then start else .payload frame.opcode frame.key 0 frame.payload.length := by
  obtain ⟨k0, k1, k2, k3, key⟩ : ∃ k0 k1 k2 k3, frame.key = [k0, k1, k2, k3] := List.length_eq_four.mp formed.key
  have size := lengthByte short
  have low : frame.opcode ≤ 15 := by
    have known := formed.opcode
    simp only [List.mem_cons, List.not_mem_nil, or_false] at known
    omega
  have form : extendedLength (UInt8.ofNat (128 + frame.payload.length)) = 0 := by
    rw [extendedLength, size, if_neg (by omega), if_neg (by omega)]
  have reads := header_reads (headByte frame.fin frame.opcode) _ k0 k1 k2 k3 form
  simp only [size, headByte_opcode frame.fin low, List.length_eq_zero_iff] at reads
  rw [shortHeader, key]
  exact reads

/-- What a receiver is told of the payload behind a header, byte by byte. -/
theorem encode_signals (formed : frame.WellFormed) (short : frame.payload.length ≤ 125) :
    start.signals frame.encode = List.replicate (lead frame) .quiet ++ delivery frame.opcode frame.payload := by
  obtain ⟨signals, place⟩ := shortHeader_reads formed short
  rw [encode_short short, Cursor.signals_append, signals, place, lead]
  by_cases empty : frame.payload = []
  · simp [empty, masked, Cursor.signals, delivery]
  · rw [if_neg empty, if_neg empty, if_neg empty, payload_signals _ _ _ _ _ (by rw [masked_length]), unmask_masked]
    cases payload : frame.payload with
    | nil => exact absurd payload empty
    | cons byte rest => rfl

private theorem signals_length (place : Cursor) (bytes : Bytes) : (place.signals bytes).length = bytes.length := by
  induction bytes generalizing place with
  | nil => rfl
  | cons byte rest ih => simp [Cursor.signals, ih]

/-- The signals of the first bytes of a frame. -/
theorem front_signals (formed : frame.WellFormed) (short : frame.payload.length ≤ 125)
    (split : frame.encode = front ++ back) :
    start.signals front =
    (List.replicate (lead frame) Signal.quiet ++ delivery frame.opcode frame.payload).take front.length := by
  rw [← encode_signals formed short, split, Cursor.signals_append, List.take_left' (signals_length _ _)]

private theorem early_quiet (formed : frame.WellFormed) (short : frame.payload.length ≤ 125)
    (split : frame.encode = front ++ back) (early : front.length ≤ lead frame) :
    start.signals front = List.replicate front.length .quiet := by
  rw [front_signals formed short split,
    List.take_append_of_le_length (by simpa using early), List.take_replicate, Nat.min_eq_left early]

def telling (signals : List Signal) : List Signal := signals.filter (· ≠ .quiet)

private theorem telling_append (first last : List Signal) : telling (first ++ last) = telling first ++ telling last :=
  List.filter_append ..

private theorem telling_quiet (count : Nat) : telling (List.replicate count .quiet) = [] := by simp [telling]

private theorem telling_delivery (opcode count : Nat) (payload : Bytes) :
    telling ((delivery opcode payload).take count) = (delivery opcode payload).take count := by
  refine List.filter_eq_self.mpr fun signal member => ?_
  have among := List.mem_of_mem_take member
  cases payload with
  | nil => simp_all [delivery]
  | cons byte rest =>
    obtain ⟨value, -, rfl⟩ := List.mem_map.mp among
    simp

private theorem delivery_ne_nil (opcode : Nat) (payload : Bytes) : delivery opcode payload ≠ [] := by
  cases payload with
  | nil => simp [delivery]
  | cons => simp [delivery]

/-- The first bytes of a frame tell of the first bytes of its payload. -/
theorem front_telling (formed : frame.WellFormed) (short : frame.payload.length ≤ 125)
    (split : frame.encode = front ++ back) :
    telling (start.signals front) = (delivery frame.opcode frame.payload).take (front.length - lead frame) := by
  rw [front_signals formed short split,
    List.take_append, telling_append, List.take_replicate, telling_quiet, List.length_replicate,
    telling_delivery, List.nil_append]

/-- Nothing comes from a header that is not complete, and from no more bytes than that. -/
theorem quiet_early (formed : frame.WellFormed) (short : frame.payload.length ≤ 125)
    (split : frame.encode = front ++ back)
    (quiet : start.signals front = List.replicate front.length .quiet) : front.length ≤ lead frame := by
  have told := front_telling formed short split
  rw [quiet, telling_quiet] at told
  rcases List.take_eq_nil_iff.mp told.symm with none_ | impossible
  · omega
  · exact absurd impossible (delivery_ne_nil _ _)

private theorem delivery_take {opcode other count : Nat} {payload piece : Bytes}
    (same : delivery other piece = (delivery opcode payload).take count) :
    other = opcode ∧ piece = payload.take count ∧ 0 < count := by
  have some_ : 0 < count := by
    rcases Nat.eq_zero_or_pos count with rfl | some_
    · exact absurd same (delivery_ne_nil _ _)
    · exact some_
  obtain ⟨more, rfl⟩ := Nat.exists_eq_add_one_of_ne_zero (Nat.ne_of_gt some_)
  cases payload with
  | nil =>
    cases piece with
    | nil => simp_all [delivery]
    | cons => simp [delivery] at same
  | cons byte rest =>
    cases piece with
    | nil => simp [delivery] at same
    | cons value values =>
      simp only [delivery, List.map_cons, List.take_succ_cons, List.cons.injEq, Signal.byte.injEq] at same
      obtain ⟨⟨kind, first⟩, later⟩ := same
      rw [← List.map_take, kind] at later
      have rest := List.map_injective_iff.mpr (fun _ _ same => (Signal.byte.inj same).2) later
      exact ⟨kind, by rw [List.take_succ_cons, first, rest], some_⟩

/-- What is delivered of a frame is the payload among its bytes so far. -/
theorem delivered_front {opcode silent : Nat} {piece : Bytes} (formed : frame.WellFormed)
    (short : frame.payload.length ≤ 125) (split : frame.encode = front ++ back)
    (signals : start.signals front = List.replicate silent .quiet ++ delivery opcode piece) :
    opcode = frame.opcode ∧ piece = frame.payload.take (front.length - 6) ∧ lead frame < front.length := by
  have told := front_telling formed short split
  have whole := telling_delivery opcode (delivery opcode piece).length piece
  rw [List.take_length] at whole
  rw [signals, telling_append, telling_quiet, whole, List.nil_append] at told
  obtain ⟨kind, part, begun⟩ := delivery_take told
  refine ⟨kind, ?_, by omega⟩
  rw [part, lead]
  split
  next empty => simp [empty]
  next => rfl

private theorem front_header (formed : frame.WellFormed) (short : frame.payload.length ≤ 125)
    (split : frame.encode = front ++ back) (whole : 6 ≤ front.length) :
    ∃ part, front = shortHeader frame ++ part := by
  rw [encode_short short] at split
  have size := shortHeader_length formed
  refine ⟨front.drop 6, ?_⟩
  have first := congrArg (List.take 6) split
  rw [List.take_left' size, List.take_append_of_le_length whole] at first
  rw [first, List.take_append_drop]

/-- In the payload a receiver is not between frames. -/
theorem inside_apart (formed : frame.WellFormed) (short : frame.payload.length ≤ 125)
    (split : frame.encode = front ++ back) (begun : 6 < front.length)
    (apart : front.length < 6 + frame.payload.length) : start.advance front ≠ start := by
  obtain ⟨part, rfl⟩ := front_header formed short split (by omega)
  rw [List.length_append, shortHeader_length formed] at begun apart
  have some_ : frame.payload ≠ [] := List.length_pos_iff.mp (by omega)
  rw [Cursor.advance_append, (shortHeader_reads formed short).2,
    if_neg some_, payload_advance _ _ _ _ _ (by omega) (by omega), if_neg (by omega)]
  simp [start]

/-- Nothing begins in a header. -/
theorem onsets_front {opcode stored : Nat} {fresh : Bool} {place : Cursor} {part rest : Bytes}
    (quiet : place.signals part = List.replicate part.length .quiet) :
    onsets opcode fresh stored place
      (part ++ rest) = onsets opcode (fresh && part.isEmpty) stored (place.advance part) rest := by
  induction part generalizing place fresh with
  | nil => simp
  | cons byte more ih =>
    rw [Cursor.signals, List.length_cons, List.replicate_succ, List.cons.injEq] at quiet
    rw [List.cons_append, onsets_quiet quiet.1, ih quiet.2]
    simp

/-- What bytes of a frame come to that begin in its header. -/
theorem onsets_control (formed : frame.WellFormed) (short : frame.payload.length ≤ 125)
    (split : frame.encode = front ++ bytes ++ back) (early : front.length ≤ lead frame) :
    onsets frame.opcode true 0 (start.advance front) bytes = [] ∨
      lead frame < (front ++ bytes).length ∧
        ∃ later, onsets frame.opcode true 0 (start.advance front) bytes = (0, frame.payload.length) :: later := by
  have before := early_quiet formed short (split.trans (List.append_assoc ..)) early
  by_cases inside : (front ++ bytes).length ≤ lead frame
  · have quiet := early_quiet formed short split inside
    rw [Cursor.signals_append, before, List.length_append, List.replicate_add, List.append_cancel_left_eq] at quiet
    have none_ : onsets frame.opcode true 0 (start.advance front) (bytes ++ []) = _ := onsets_front quiet
    rw [List.append_nil] at none_
    exact .inl (none_.trans rfl)
  · refine .inr ⟨Nat.lt_of_not_le inside, ?_⟩
    rw [List.length_append] at inside
    obtain ⟨part, byte, rest, rfl, size⟩ : ∃ part byte rest, bytes = part ++ byte :: rest ∧
        front.length + part.length = lead frame := by
      have some_ : bytes.drop (lead frame - front.length) ≠ [] := by
        rw [← List.length_pos_iff, List.length_drop]
        omega
      obtain ⟨byte, rest, cut⟩ := List.exists_cons_of_ne_nil some_
      refine ⟨bytes.take (lead frame - front.length), byte, rest, ?_, ?_⟩
      · rw [← cut, List.take_append_drop]
      · rw [List.length_take]
        omega
    have sofar : frame.encode = (front ++ part) ++ (byte :: (rest ++ back)) := by simp [split]
    have quiet := early_quiet formed short sofar (by rw [List.length_append]; omega)
    rw [Cursor.signals_append, before, List.length_append, List.replicate_add, List.append_cancel_left_eq] at quiet
    rw [onsets_front quiet, ← Cursor.advance_append]
    by_cases empty : frame.payload = []
    · have next : frame.encode = (front ++ part ++ [byte]) ++ (rest ++ back) := by simp [split]
      have told := front_telling formed short next
      rw [Cursor.signals_append, early_quiet formed short sofar (by rw [List.length_append]; omega), telling_append,
        telling_quiet, empty,
        List.length_append, List.length_append, size, lead, if_pos empty] at told
      have ended : ((start.advance (front ++ part)).signal byte) = .empty frame.opcode := by
        by_cases silent : (start.advance (front ++ part)).signal byte = .quiet
        · simp [Cursor.signals, telling, silent, delivery] at told
        · simpa [Cursor.signals, telling, silent, delivery] using told
      rw [onsets_empty ended, if_pos rfl, empty]
      exact ⟨_, rfl⟩
    · have whole : front ++ part = shortHeader frame := by
        obtain ⟨more, header⟩ := front_header formed short sofar (by rw [List.length_append, size, lead, if_neg empty])
        have none_ : more = [] := by
          have count := congrArg List.length header
          rw [List.length_append, List.length_append, shortHeader_length formed, size, lead, if_neg empty] at count
          exact List.length_eq_zero_iff.mp (by omega)
        rw [header, none_, List.append_nil]
      rw [whole, (shortHeader_reads formed short).2, if_neg empty, onsets_payload, if_pos ⟨rfl, .inr rfl⟩]
      exact ⟨_, rfl⟩

/-! The session that such a frame is sent to. -/

structure IsControl (frame : ClientFrame) : Prop where
  formed : frame.WellFormed
  short : frame.payload.length ≤ 125
  kind : frame.opcode = Opcode.ping ∨ frame.opcode = Opcode.close

def replyTo (opcode : Nat) : Nat := if opcode = Opcode.ping then Opcode.pong else opcode

/-- A session that has read a part of the frame's header and waits for the rest. -/
structure Awaiting (config : Config) (frame : ClientFrame) (front rest : Bytes) (s : Session) : Prop where
  sound : Sound config s
  done : s.handshakeDone = true
  open_ : s.closing = .no
  split : frame.encode = front ++ rest
  early : front.length ≤ lead frame
  place : cursor s.wsParser = start.advance front
  takes : Takes (· = frame.opcode) s.wsParser rest

/-- What a session makes of the next bytes of the frame. -/
inductive Piece (config : Config) (frame : ClientFrame) (front bytes back : Bytes) : Absorbed → Prop
  | waits {t entries} (awaiting : Awaiting config frame (front ++ bytes) back t)
  (idle : Idle t) (silent : frames entries = []) :
      Piece config frame front bytes back (.kept t entries (.ok ()))
  | answers {t entries} (begun : lead frame < (front ++ bytes).length)
      (sound : Sound config t) (done : t.handshakeDone = true)
      (settled : t.pendingClose = false)
      (reply : frames entries = [(replyTo frame.opcode, frame.payload.take ((front ++ bytes).length - 6))]) :
      Piece config frame front bytes back (.kept t entries (.ok ()))
  | refuses {t entries error}
      (inside : 6 < (front ++ bytes).length ∧ (front ++ bytes).length < 6 + frame.payload.length)
      (silent : frames entries = []) (other : error ≠ .again) : Piece config frame front bytes back
      (.kept t entries (.error error))

variable {config : Config} {s : Session} {msg : WsMessage}

theorem Awaiting.settled {rest : Bytes} (awaiting : Awaiting config frame front rest s) : s.pendingClose = false := by
  by_contra pending
  cases awaiting.open_.symm.trans (awaiting.sound.pending (by simpa using pending))

/-- The answer to a PING or a CLOSE that finds the slot idle. -/
theorem reply_handled (sound : Sound config s) (settled : s.pendingClose = false) (idle : Idle s)
    (kind : msg.opcode = Opcode.ping ∨ msg.opcode = Opcode.close) (short : msg.payload.length ≤ 125) :
    ∃ t, Handled s msg t [.frame (replyTo msg.opcode) msg.payload] ∧ t.pendingClose = false := by
  rcases kind with ping | close
  · obtain ⟨frame, written⟩ := control_fits Opcode.pong rfl sound.capacity short
    have effect : Handled s msg _ _ := .ponged frame ping idle written
    rw [replyTo, if_pos ping]
    exact ⟨_, effect, settled⟩
  · have whole : msg.payload.take 125 = msg.payload := List.take_of_length_le short
    obtain ⟨frame, written⟩ := control_fits Opcode.close rfl sound.capacity short
    have effect : Handled s msg _ _ := .closeAnswered frame close idle (whole.symm ▸ written)
    rw [whole] at effect
    rw [replyTo, close, if_neg (by decide)]
    exact ⟨_, effect, rfl⟩

theorem absorb_piece (control : IsControl frame)
    (awaiting : Awaiting config frame front (bytes ++ back) s) (idle : Idle s) (some_ : bytes ≠ [])
    (fits : bytes.length ≤ bufferWritable s.clientToTarget) (fuel : Nat) :
    Piece config frame front bytes back (absorb (fuel + 2) s bytes) := by
  obtain ⟨formed, short, kind⟩ := control
  obtain ⟨sound, done, open_, split, early, place, takes⟩ := awaiting
  have count : 0 < bytes.length := List.length_pos_iff.mpr some_
  have capacity : payloadCapacity s = min ioChunk (bufferWritable s.clientToTarget) := minSize_eq _ _
  have full : payloadCapacity s ≠ 0 := by
    rw [capacity, ioChunk]
    omega
  have positive := Nat.pos_of_ne_zero full
  have isControl : isControlOpcode frame.opcode = true := by
    rcases kind with ping | close
    · rw [ping]
      rfl
    · rw [close]
      rfl
  have sofar : frame.encode = (front ++ bytes) ++ back := by rw [split, List.append_assoc]
  have quiet := early_quiet formed short split early
  obtain ⟨result, fed⟩ : ∃ result, wsParserFeed s.wsParser bytes (payloadCapacity s) = result := ⟨_, rfl⟩
  have spec := wsParserFeed_fed positive bytes sound.parser
  have reaches : Reaches frame.opcode
      (payloadCapacity s) true 0 (cursor s.wsParser) 0 bytes (wsParserFeed s.wsParser bytes (payloadCapacity s)) :=
    wsParserFeed_reaches isControl positive bytes sound.parser (.inl rfl)
  rw [fed] at spec reaches
  unfold Fed at spec
  unfold Reaches at reaches
  rcases feed_takes positive sound.parser takes fed
    with ⟨msg, outcome, same, onward⟩ | ⟨outcome, onward⟩ | ⟨outcome, same, -⟩
  · rw [outcome] at spec reaches
    obtain ⟨used, total, delivers⟩ := spec
    obtain rfl : result.used = used := by omega
    obtain ⟨used, total, reaches⟩ := reaches
    obtain rfl : result.used = used := by omega
    obtain ⟨silent, signals⟩ := delivers.signals
    have here : frame.encode = (front ++ bytes.take result.used) ++ (bytes.drop result.used ++ back) := by
      rw [List.append_assoc, ← List.append_assoc (bytes.take _), List.take_append_drop, split]
    have told : start.signals (front ++ bytes.take result.used) =
        List.replicate (front.length + silent) .quiet ++ delivery msg.opcode msg.payload := by
      rw [Cursor.signals_append, quiet, ← place, signals, List.replicate_add, List.append_assoc]
    obtain ⟨-, piece, begun⟩ := delivered_front formed short here told
    have ended : cursor result.parser = start.advance (front ++ bytes.take result.used) := by
      rw [delivers.cursor, place, Cursor.advance_append]
    -- The frame has no bytes behind the read, so the piece ends with the read or lies inside of the frame.
    have all : bytes.drop result.used = [] := by
      rw [if_pos same] at reaches
      by_contra more
      have between : cursor result.parser = start := reaches.1.resolve_left more
      have left : 0 < (bytes.drop result.used).length := List.length_pos_iff.mpr more
      have size : (front ++ bytes.take result.used).length + ((bytes.drop result.used).length + back.length) =
          6 + frame.payload.length := by
        rw [← List.length_append, ← List.length_append, ← here, encode_length formed short]
      have some_ : frame.payload ≠ [] := by
        intro empty
        rw [lead, if_pos empty] at begun
        rw [empty, List.length_nil] at size
        omega
      rw [lead, if_neg some_] at begun
      exact inside_apart formed short here begun (by omega) (ended.symm.trans between)
    have whole : bytes.take result.used = bytes := List.take_of_length_le (List.drop_eq_nil_iff.mp all)
    rw [whole] at piece begun
    have parsed := sound_parsed sound done full fed (.inr ⟨msg, outcome⟩)
    have unanswered : s.pendingClose = false := Awaiting.settled ⟨sound, done, open_, split, early, place, takes⟩
    have few : msg.payload.length ≤ 125 := by
      rw [piece, List.length_take]
      omega
    obtain ⟨t, effect, settled⟩ := reply_handled parsed unanswered idle (same ▸ kind) few
    obtain ⟨kept, still⟩ := sound_handled parsed done open_ effect
    rw [absorb_message (fuel + 1) some_ open_ full fed outcome (handled_absorbs effect),
      all, absorb_settled fuel (.inl rfl)]
    refine .answers begun kept still settled ?_
    rw [same, piece]
    rfl
  · rw [outcome] at spec reaches
    obtain ⟨used, exhausted⟩ := spec
    have all : result.used = bytes.length := by omega
    rw [absorb_again (fuel + 1) some_ open_ full fed outcome, all,
      List.take_length, List.drop_length, absorb_settled fuel (.inl rfl)]
    have told : start.signals (front ++ bytes) = List.replicate (front ++ bytes).length .quiet := by
      rw [Cursor.signals_append, quiet, ← place, exhausted.signals, List.length_append, List.replicate_add]
    refine .waits ⟨sound_parsed sound done full fed (.inl outcome), done, open_, sofar,
      quiet_early formed short sofar told, ?_, onward⟩ idle rfl
    rw [exhausted.cursor, place, Cursor.advance_append]
  · rw [outcome] at reaches
    obtain ⟨need, rest, starves, -, onset⟩ := reaches same
    rw [absorb_refused (fuel + 1) some_ open_ full fed outcome (by decide)]
    rcases onsets_control formed short (by rw [split, List.append_assoc]) early with none_ | ⟨begun, later, first⟩
    · rw [place, none_] at onset
      cases onset
    · rw [place, first] at onset
      obtain rfl : frame.payload.length = need := (Prod.mk.inj (List.cons.inj onset).1).2
      have some_ : frame.payload ≠ [] := List.length_pos_iff.mp (by omega)
      rw [lead, if_neg some_] at early begun
      rw [capacity, ioChunk] at starves
      exact .refuses ⟨begun, by rw [List.length_append]; omega⟩ rfl (by decide)

end Sockify.Proofs.ControlPieces
