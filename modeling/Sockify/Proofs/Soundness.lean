import Sockify.Behaviour
import Sockify.Proofs.BufferQueue
import Sockify.Proofs.ParserCursor

/-! What holds of a live session at every moment: its buffers and its parser
are well formed, and the fields set by the upgrade are set together. -/

namespace Sockify.Proofs.Soundness
open Sockify Behaviour

/-- A buffer as `session_create` sizes it. -/
structure Sized (config : Config) (buf : Buffer) : Prop where
  valid : BufferQueue.Valid buf
  capacity : buf.capacity = sessionBufferSize config
  highWater : buf.highWater = sessionBufferSize config * 3 / 4

/-- Before the upgrade nothing is buffered and there is no target. -/
def Early (s : Session) : Prop :=
  s.closing = .no ∧ s.pendingClose = false ∧ (s.clientOutLen = 0 ∧ s.clientOutPos = 0) ∧ s.wsParser = wsParserInit ∧
  (s.clientToTarget.length = 0 ∧ s.targetToClient.length = 0) ∧
  s.targetFd = none ∧ s.targetRegistered = false ∧ s.targetConnecting = false

/-- After the upgrade the target is there and registered. -/
def Late (s : Session) : Prop := s.targetFd ≠ none ∧ s.targetRegistered = true ∧ s.clientTlsReady = true

structure Sound (config : Config) (s : Session) : Prop where
  live : s.closing ≠ .released
  parser : ParserCursor.Valid s.wsParser
  clientToTarget : Sized config s.clientToTarget
  targetToClient : Sized config s.targetToClient
  capacity : s.clientOutCapacity = ioChunk + 14
  slot : s.clientOutPos ≤ s.clientOutLen ∧ s.clientOutLen ≤ s.clientOut.length
  registered : s.clientRegistered = true
  pending : s.pendingClose = true → s.closing = .started
  payload : s.pendingClosePayload.length ≤ 125
  early : s.handshakeDone = false → Early s
  late : s.handshakeDone = true → Late s

variable {config : Config} {s t : Session}

theorem Sized.written {buf : Buffer} (sized : Sized config buf) (data : Bytes) :
    Sized config (bufferWrite buf data).buffer := by
  obtain ⟨valid, shape, -⟩ := BufferQueue.bufferWrite_spec sized.valid data
  exact ⟨valid, shape.capacity.trans sized.capacity, shape.highWater.trans sized.highWater⟩

theorem Sized.consumed {buf : Buffer} (sized : Sized config buf) (count : Nat) :
    Sized config (bufferConsume buf count).1 := by
  obtain ⟨valid, shape, -⟩ := BufferQueue.bufferConsume_spec sized.valid count
  exact ⟨valid, shape.capacity.trans sized.capacity, shape.highWater.trans sized.highWater⟩

theorem Sized.read {buf : Buffer} (sized : Sized config buf) (count : Nat) : Sized config (bufferRead buf count).2 := by
  obtain ⟨-, valid, shape, -⟩ := BufferQueue.bufferRead_spec sized.valid count
  exact ⟨valid, shape.capacity.trans sized.capacity, shape.highWater.trans sized.highWater⟩

theorem Sound.upgraded_of_closing (sound : Sound config s) (closing : s.closing = .started) :
    s.handshakeDone = true := by
  by_contra unfinished
  have open_ := (sound.early (by simpa using unfinished)).1
  rw [closing] at open_
  cases open_

theorem Sound.unsent_length (sound : Sound config s) : s.unsent.length = s.clientOutLen - s.clientOutPos := by
  have slot := sound.slot
  simp only [Session.unsent, List.length_drop, List.length_take]
  omega

/-- The parser has only ever to be valid behind a call with room. -/
theorem fed_valid {parser : WsParser} {capacity : Nat} {data : Bytes} {result : FeedResult}
    (valid : ParserCursor.Valid parser) (room : capacity ≠ 0)
    (fed : wsParserFeed parser data capacity = result)
    (outcome : result.outcome = .error .again ∨ ∃ msg, result.outcome = .ok msg) :
    ParserCursor.Valid result.parser := by
  have spec := ParserCursor.wsParserFeed_fed (Nat.pos_of_ne_zero room) data valid
  rw [fed] at spec
  rcases outcome with again | ⟨msg, ok⟩
  · simp only [ParserCursor.Fed, again] at spec
    exact spec.2.valid
  · simp only [ParserCursor.Fed, ok] at spec
    obtain ⟨used, -, delivered⟩ := spec
    exact delivered.valid

/-- A filled slot, on a session that is upgraded. -/
theorem Sound.filled (sound : Sound config s) (done : s.handshakeDone = true) (frame : Bytes) :
    Sound config (fill s frame) :=
  { sound with
    slot := ⟨Nat.zero_le _, Nat.le_refl _⟩
    early := fun unfinished => absurd done (by simp [show s.handshakeDone = false from unfinished]) }

theorem sound_handled {msg : WsMessage} {extra : List Io} (sound : Sound config s) (done : s.handshakeDone = true)
    (open_ : s.closing = .no) (effect : Handled s msg t extra) : Sound config t ∧ t.handshakeDone = true := by
  have settled : s.pendingClose = false := by
    cases pending : s.pendingClose with
    | false => rfl
    | true => exact absurd (sound.pending pending) (by simp [open_])
  have upgraded : ∀ {u : Session}, u.handshakeDone = true → u.handshakeDone = false → Early u :=
    fun done unfinished => absurd done (by simp [unfinished])
  cases effect with
  | stored data fits =>
    exact ⟨{ sound with clientToTarget := sound.clientToTarget.written _, early := upgraded done }, done⟩
  | ponged frame ping idle written => exact ⟨sound.filled done frame, done⟩
  | closeAnswered frame close idle written =>
    exact ⟨{ sound.filled done frame with
      live := by simp
      pending := by simp
      payload := by simp
      early := upgraded done }, done⟩
  | closeHeld close busy =>
    exact ⟨{ sound with live := by simp, pending := fun _ => rfl, payload := by simp, early := upgraded done }, done⟩
  | ignored other => exact ⟨sound, done⟩

/-- What only an unfinished upgrade would ask for. -/
private theorem not_early {s t : Session} (done : s.handshakeDone = true)
    (unfinished : s.handshakeDone = false) : Early t :=
  absurd done (by simp [unfinished])

theorem sound_readsClient {early : Prop} {l l' : List Io} {h h' : Bytes} (sound : Sound config s)
    (act : ReadsClient early ⟨s, l, h⟩ ⟨t, l', h'⟩) : Sound config t := by
  cases act with
  | touched => exact { sound with }
  | refused => exact sound
  | received => exact sound
  | gathered => exact { sound with }
  | accepted response consumed fd inProgress time unfinished open_ ready granted =>
    exact { sound with
      slot := ⟨Nat.zero_le _, Nat.le_refl _⟩
      early := fun unfinished => by simp [upgraded] at unfinished
      late := fun _ => ⟨by simp [upgraded], rfl, ready⟩ }
  | parsed result done open_ room fed again =>
    exact { sound with parser := fed_valid sound.parser room fed (.inl again), early := not_early done }
  | handled result msg done open_ room fed delivered effect =>
    have parsed : Sound config { s with wsParser := result.parser } :=
      { sound with parser := fed_valid sound.parser room fed (.inr ⟨msg, delivered⟩), early := not_early done }
    exact (sound_handled parsed done open_ effect).1
  | discarded => exact sound
  | abandoned => exact sound
  | cleared => exact { sound with }

theorem sound_writesClient {l l' : List Io} {h h' : Bytes} (sound : Sound config s)
    (act : WritesClient ⟨s, l, h⟩ ⟨t, l', h'⟩) : Sound config t := by
  cases act with
  | touched => exact { sound with }
  | refused => exact sound
  | sent count busy fits =>
    have slot := sound.slot
    rw [sound.unsent_length] at fits
    refine { sound with slot := ⟨by simp only at busy ⊢; omega, slot.2⟩, early := fun unfinished => ?_ }
    obtain ⟨-, -, empty, -⟩ := sound.early unfinished
    omega
  | emptied sent =>
    refine { sound with slot := ⟨Nat.le_refl _, Nat.zero_le _⟩, early := fun unfinished => ?_ }
    obtain ⟨closing, pending, -, rest⟩ := sound.early unfinished
    exact ⟨closing, pending, ⟨rfl, rfl⟩, rest⟩
  | closeAnswered frame pending idle written =>
    have done := sound.upgraded_of_closing (sound.pending pending)
    exact { sound.filled done frame with pending := by simp, early := not_early done }
  | framed frame open_ settled done idle some_ written =>
    exact { sound.filled done frame with targetToClient := sound.targetToClient.read _, early := not_early done }

theorem sound_securesClient {l l' : List Io} {h h' : Bytes} (sound : Sound config s)
    (act : SecuresClient ⟨s, l, h⟩ ⟨t, l', h'⟩) : Sound config t := by
  cases act with
  | refused => exact sound
  | secured => exact { sound with late := fun done => ⟨(sound.late done).1, (sound.late done).2.1, rfl⟩ }

theorem sound_actsTarget {early : Prop} {l l' : List Io} {h h' : Bytes} (sound : Sound config s)
    (act : ActsTarget config early ⟨s, l, h⟩ ⟨t, l', h'⟩) : Sound config t := by
  cases act with
  | touched => exact { sound with }
  | unconnected => exact sound
  | connectedPlain time plain pending =>
    refine { sound with early := fun unfinished => ?_ }
    obtain ⟨-, -, -, -, -, -, -, connecting⟩ := sound.early unfinished
    simp [connecting] at pending
  | connectedTls time connection secure pending =>
    refine { sound with early := fun unfinished => ?_ }
    obtain ⟨-, -, -, -, -, -, -, connecting⟩ := sound.early unfinished
    simp [connecting] at pending
  | handshakeRefused => exact sound
  | secured => exact { sound with }
  | readRefused => exact sound
  | received bytes time transfers low nonempty chunk fits =>
    refine { sound with targetToClient := sound.targetToClient.written _, early := fun unfinished => ?_ }
    obtain ⟨-, -, -, -, -, -, registered, -⟩ := sound.early unfinished
    simp [Transfers, registered] at transfers
  | writeRefused => exact sound
  | sent count transfers fits =>
    refine { sound with clientToTarget := sound.clientToTarget.consumed _, early := fun unfinished => ?_ }
    obtain ⟨-, -, -, -, -, -, registered, -⟩ := sound.early unfinished
    simp [Transfers, registered] at transfers

theorem sound_actsClient {early : Prop} {events : Events} {before after : Moment} (sound : Sound config before.session)
    (act : ActsClient early events before after) :
    Sound config after.session := by
  rcases act with ⟨-, reads⟩ | ⟨-, writes⟩ | secures
  · exact sound_readsClient sound reads
  · exact sound_writesClient sound writes
  · exact sound_securesClient sound secures

theorem sound_acts {early : Prop} {m n : Moment} (sound : Sound config m.session)
    (act : Acts config early m n) : Sound config n.session := by
  rcases act with ⟨_, client⟩ | target
  · exact sound_actsClient sound client
  · exact sound_actsTarget sound target

/-- What every action keeps, every sequence of actions keeps. -/
theorem path_keeps {acts : Moment → Moment → Prop} (kept : Moment → Prop) {before after : Moment}
    (step : ∀ m n, kept m → acts m n → kept n) (start : kept before) (path : Path acts before after) : kept after := by
  induction path with
  | refl => exact start
  | tail _ act ih => exact step _ _ ih act

end Sockify.Proofs.Soundness
