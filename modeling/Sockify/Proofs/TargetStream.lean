import Sockify.Proofs.FrameLayout
import Sockify.Proofs.Lifetimes
import Sockify.Streams

/-! What the target sends reaches the client: the wire and the output slot
always hold the response and whole frames, and the frames and the ring buffer
always hold all that was read. -/

namespace Sockify.Proofs.TargetStream
open Sockify Behaviour Soundness Lifetimes Streams BufferQueue

/-- The bytes on their way to the client, and where they came from. -/
structure Outgoing (config : Config) (m : Moment) : Prop where
  sound : Sound config m.session
  bytes : delivered .client m.log ++ m.session.unsent = responses m.log ++ wire (frames m.log)
  origin : payloads Opcode.binary (frames m.log) ++ contents m.session.targetToClient = received .target m.log
  written : ∀ frame ∈ frames m.log,
    ∃ size, wsWriteFrame frame.1 frame.2 size = .ok (Framing.serverFrame frame.1 frame.2)
  early : m.session.handshakeDone = false →
    responses m.log = [] ∧ frames m.log = [] ∧ received .client m.log = m.session.handshake ++ m.hand
  late : m.session.handshakeDone = true → ∃ request consumed, request <+: received .client m.log ∧
    wsBuildHandshakeResponse request 256 = .ok (responses m.log, consumed)

variable {config : Config} {early : Prop} {m n : Moment} {s t : Session} {l l' : List Io} {h h' : Bytes}

theorem unsent_idle (idle : Idle s) : s.unsent = [] := by
  refine List.drop_eq_nil_of_le ?_
  rw [List.length_take, show s.clientOutPos = s.clientOutLen from idle.symm]
  exact Nat.min_le_left _ _

@[simp] theorem unsent_fill (s : Session) (bytes : Bytes) : (fill s bytes).unsent = bytes := by
  simp [Session.unsent, fill]

/-- A change that touches none of the streams. -/
theorem Outgoing.still (outgoing : Outgoing config ⟨s, l, h⟩) (sound : Sound config t) (slot : t.unsent = s.unsent)
    (buffered : contents t.targetToClient = contents s.targetToClient) (done : t.handshakeDone = s.handshakeDone)
    (quiet : ∀ side, received side l' = received side l) (unsent : delivered .client l' = delivered .client l)
    (silent : responses l' = responses l ∧ frames l' = frames l)
    (gathered : s.handshakeDone = false → t.handshake ++ h' = s.handshake ++ h) : Outgoing config ⟨t, l', h'⟩ where
  sound := sound
  bytes := by simpa only [slot, unsent, silent] using outgoing.bytes
  origin := by simpa only [buffered, quiet, silent] using outgoing.origin
  written := by simpa only [silent] using outgoing.written
  early := fun unfinished => by
    have unfinished := done ▸ unfinished
    simpa only [silent, quiet, gathered unfinished] using outgoing.early unfinished
  late := fun finished => by simpa only [silent, quiet] using outgoing.late (done ▸ finished)

/-- A frame placed in the idle slot. -/
theorem Outgoing.placed (taken_ : Bytes) {opcode : Nat} {payload frame rest : Bytes} {size : Nat}
    (outgoing : Outgoing config ⟨s, l, h⟩) (done : s.handshakeDone = true) (sound : Sound config t)
    (idle : Idle s) (written : wsWriteFrame opcode payload size = .ok frame) (slot : t.unsent = frame)
    (finished : t.handshakeDone = true)
    (buffered : contents s.targetToClient = taken_ ++ contents t.targetToClient)
    (moved : taken_ = if opcode = Opcode.binary then payload else [])
    (quiet : ∀ side, received side l' = received side l)
    (unsent : delivered .client l' = delivered .client l) (silent : responses l' = responses l)
    (logged : frames l' = frames l ++ [(opcode, payload)]) :
    Outgoing config ⟨t, l', rest⟩ where
  sound := sound
  bytes := by
    have before := outgoing.bytes
    simp only [unsent_idle idle, List.append_nil] at before
    simp [slot, unsent, silent, logged, before, FrameLayout.wsWriteFrame_layout written]
  origin := by
    have before := outgoing.origin
    simp only [buffered, moved] at before
    simpa [quiet, logged] using before
  written := by
    intro other member
    simp only [logged, List.mem_append, List.mem_singleton] at member
    rcases member with old | rfl
    · exact outgoing.written other old
    · exact ⟨size, by rw [written, FrameLayout.wsWriteFrame_layout written]⟩
  early := fun unfinished => absurd finished (by simp [show t.handshakeDone = false from unfinished])
  late := fun _ => by simpa only [silent, quiet] using outgoing.late done

theorem early_room (sound : Sound config s) (unfinished : s.handshakeDone = false) : payloadCapacity s ≠ 0 := by
  obtain ⟨-, -, -, -, ⟨empty, -⟩, -⟩ := sound.early unfinished
  have positive := sound.clientToTarget.valid.positive
  rw [payloadCapacity, minSize_eq, bufferWritable, empty, ioChunk]
  omega

private theorem outgoing_readsClient (outgoing : Outgoing config ⟨s, l, h⟩)
    (act : ReadsClient early ⟨s, l, h⟩ ⟨t, l', h'⟩) :
    Outgoing config ⟨t, l', h'⟩ := by
  have sound : Sound config t := sound_readsClient outgoing.sound act
  cases act with
  | touched => exact outgoing.still sound rfl rfl rfl (fun _ => rfl) rfl ⟨rfl, rfl⟩ fun _ => rfl
  | refused => exact outgoing.still sound rfl rfl rfl (by simp) (by simp) (by simp) fun _ => rfl
  | received bytes ready open_ nonempty fits =>
    refine ⟨sound, by simpa using outgoing.bytes, by simpa using outgoing.origin,
      by simpa using outgoing.written, ?_, ?_⟩
    · intro unfinished
      obtain ⟨none, silent, before⟩ := outgoing.early unfinished
      simp only [List.append_nil] at before
      exact ⟨by simpa using none, by simpa using silent, by simp [before]⟩
    · intro finished
      obtain ⟨request, consumed, sofar, granted⟩ := outgoing.late finished
      exact ⟨request, consumed, by simpa using sofar.trans (List.prefix_append _ _), by simpa using granted⟩
  | gathered => exact outgoing.still sound rfl rfl rfl (fun _ => rfl) rfl ⟨rfl, rfl⟩ fun _ => by simp
  | accepted response consumed fd inProgress time unfinished open_ ready granted =>
    obtain ⟨none, silent, before⟩ := outgoing.early unfinished
    obtain ⟨-, -, ⟨length, position⟩, -⟩ := outgoing.sound.early unfinished
    have idle : Idle s := length.trans position.symm
    have empty := outgoing.bytes
    simp only [none, silent, unsent_idle idle, List.append_nil, wire_nil] at empty
    refine ⟨sound, ?_, by simpa [upgraded, fill] using outgoing.origin, by simpa using outgoing.written, ?_, ?_⟩
    · have slot : (upgraded s response fd inProgress time).unsent = response := unsent_fill s response
      simp [slot, empty, none, silent]
    · simp [upgraded]
    · simp only [List.append_nil] at before
      exact fun _ => ⟨s.handshake, consumed, by simp [before], by simpa [none] using granted⟩
  | parsed => exact outgoing.still sound rfl rfl rfl (by simp) (by simp) (by simp) fun unfinished => by simp_all
  | handled result msg done open_ room fed delivered effect =>
    cases effect with
    | stored => exact outgoing.still sound rfl rfl rfl (by simp) (by simp) (by simp) fun unfinished => by simp_all
    | ponged frame ping idle written =>
      exact outgoing.placed [] done sound idle written (unsent_fill s _) done rfl (by simp [Opcode.pong, Opcode.binary])
        (by simp) (by simp) (by simp) (by simp)
    | closeAnswered frame close idle written =>
      exact outgoing.placed [] done sound idle written
        (unsent_fill s _) done rfl (by simp [Opcode.close, Opcode.binary])
        (by simp) (by simp) (by simp) (by simp)
    | closeHeld => exact outgoing.still sound rfl rfl rfl (by simp) (by simp) (by simp) fun unfinished => by simp_all
    | ignored => exact outgoing.still sound rfl rfl rfl (by simp) (by simp) (by simp) fun unfinished => by simp_all
  | discarded closing =>
    have done := outgoing.sound.upgraded_of_closing closing
    exact outgoing.still sound rfl rfl rfl (fun _ => rfl) rfl ⟨rfl, rfl⟩ fun unfinished => by simp_all
  | abandoned some_ open_ full =>
    exact outgoing.still sound rfl rfl rfl (by simp) (by simp) (by simp) fun unfinished =>
      absurd full (early_room outgoing.sound unfinished)
  | cleared done => exact outgoing.still sound rfl rfl rfl (fun _ => rfl) rfl ⟨rfl, rfl⟩ fun unfinished => by simp_all

private theorem outgoing_writesClient (outgoing : Outgoing config ⟨s, l, h⟩)
    (act : WritesClient ⟨s, l, h⟩ ⟨t, l', h'⟩) :
    Outgoing config ⟨t, l', h'⟩ := by
  have sound : Sound config t := sound_writesClient outgoing.sound act
  cases act with
  | touched => exact outgoing.still sound rfl rfl rfl (fun _ => rfl) rfl ⟨rfl, rfl⟩ fun _ => rfl
  | refused => exact outgoing.still sound rfl rfl rfl (by simp) (by simp) (by simp) fun _ => rfl
  | sent count busy fits =>
    have slot : ({ s with clientOutPos := s.clientOutPos + count } : Session).unsent = s.unsent.drop count := by
      simp [Session.unsent]
    refine ⟨sound, ?_, by simpa using outgoing.origin, by simpa using outgoing.written, by simpa using outgoing.early,
      by simpa using outgoing.late⟩
    simpa [slot] using outgoing.bytes
  | emptied sent =>
    have idle : s.unsent = [] := by
      refine List.drop_eq_nil_of_le ?_
      rw [List.length_take]
      omega
    have emptied : ({ s with clientOutLen := 0, clientOutPos := 0 } : Session).unsent = [] := by simp [Session.unsent]
    exact outgoing.still sound (emptied.trans idle.symm) rfl rfl (fun _ => rfl) rfl ⟨rfl, rfl⟩ fun _ => rfl
  | closeAnswered frame pending idle written =>
    have done := outgoing.sound.upgraded_of_closing (outgoing.sound.pending pending)
    exact outgoing.placed [] done sound idle written (unsent_fill s _) done rfl (by simp [Opcode.close, Opcode.binary])
      (by simp) (by simp) (by simp) (by simp)
  | framed frame open_ settled done idle some_ written =>
    have valid := outgoing.sound.targetToClient.valid
    obtain ⟨out, -, -, rest⟩ := bufferRead_spec valid (minSize ioChunk (bufferReadable s.targetToClient))
    refine outgoing.placed (bufferRead s.targetToClient (minSize ioChunk (bufferReadable s.targetToClient))).1
      done sound idle written (unsent_fill s _) done ?_ (by simp) (by simp) (by simp) (by simp) (by simp)
    change contents s.targetToClient = _ ++ contents (bufferRead s.targetToClient _).2
    rw [out, rest, List.take_append_drop]

private theorem outgoing_securesClient (outgoing : Outgoing config ⟨s, l, h⟩)
    (act : SecuresClient ⟨s, l, h⟩ ⟨t, l', h'⟩) :
    Outgoing config ⟨t, l', h'⟩ := by
  have sound : Sound config t := sound_securesClient outgoing.sound act
  cases act <;> exact outgoing.still sound rfl rfl rfl (by simp) (by simp) (by simp) fun _ => rfl

theorem outgoing_actsTarget (outgoing : Outgoing config ⟨s, l, h⟩)
    (act : ActsTarget config early ⟨s, l, h⟩ ⟨t, l', h'⟩) :
    Outgoing config ⟨t, l', h'⟩ := by
  have sound : Sound config t := sound_actsTarget outgoing.sound act
  cases act with
  | received bytes time transfers low nonempty chunk fits =>
    obtain ⟨-, -, stored⟩ := bufferWrite_fits outgoing.sound.targetToClient.valid fits
    refine ⟨sound, ?_, ?_, by simpa using outgoing.written, by simpa using outgoing.early, by simpa using outgoing.late⟩
    · have slot := outgoing.bytes
      simp only [Session.unsent] at slot
      simpa [Session.unsent] using slot
    · simpa [stored, ← List.append_assoc] using outgoing.origin
  | _ => exact outgoing.still sound rfl rfl rfl (by simp) (by simp) (by simp) fun _ => rfl

theorem outgoing_acts (outgoing : Outgoing config m) (act : Acts config early m n) : Outgoing config n := by
  rcases act with ⟨_, ⟨-, reads⟩ | ⟨-, writes⟩ | secures⟩ | target
  · exact outgoing_readsClient outgoing reads
  · exact outgoing_writesClient outgoing writes
  · exact outgoing_securesClient outgoing secures
  · exact outgoing_actsTarget outgoing target

theorem outgoing_created (created : Creation.Created config s) : Outgoing config ⟨s, [], []⟩ where
  sound := created.sound
  bytes := by simp [Session.unsent, created.slot.2.1]
  origin := by
    have sized := Creation.sessionBuffer_sized config
    simp [created.buffers.2, (contents_eq_nil sized.1.valid).mpr sized.2]
  written := by simp
  early := by simp [created.handshake.1]
  late := by simp [created.handshake.2]

theorem Lived.outgoing (lived : Lived config early s l) : Outgoing config ⟨s, l, []⟩ := by
  obtain ⟨first, created, path⟩ := lived.path
  exact path_keeps _ (fun _ _ => outgoing_acts) (outgoing_created created) path

/-- While a session lives, its wire and its output slot hold the response to its
request and then whole frames, which carry all that was read from the target
but for what the ring buffer still holds. -/
theorem target_stream_framed {config : Config} {w : World} {id : SessionId} {s : Session}
    (reachable : Reachable config w) (alive : w.session? id = some s) :
    ∃ sent : List (Nat × Bytes),
      (∀ frame ∈ sent, ∃ size, wsWriteFrame frame.1 frame.2 size = .ok (Framing.serverFrame frame.1 frame.2)) ∧
      ((s.handshakeDone = false ∧ delivered .client (w.log id) ++ s.unsent = [] ∧ sent = []) ∨
        (s.handshakeDone = true ∧ ∃ request consumed response, request <+: received .client (w.log id) ∧
          wsBuildHandshakeResponse request 256 = .ok (response, consumed) ∧
          delivered .client (w.log id) ++ s.unsent = response ++ wire sent)) ∧
      payloads Opcode.binary sent ++ contents s.targetToClient = received .target (w.log id) := by
  have outgoing := Lived.outgoing ((reachable_invariant reachable).lived id s alive)
  have bytes := outgoing.bytes
  refine ⟨frames (w.log id), outgoing.written, ?_, outgoing.origin⟩
  cases done : s.handshakeDone with
  | false =>
    obtain ⟨none, silent, -⟩ := outgoing.early done
    simp only [none, silent, wire_nil, List.append_nil] at bytes
    exact .inl ⟨rfl, bytes, silent⟩
  | true =>
    obtain ⟨request, consumed, sofar, granted⟩ := outgoing.late done
    exact .inr ⟨rfl, request, consumed, _, sofar, granted, bytes⟩

def relayed : World :=
  (opened (sampleConfig 64) true).after (.scripted [.error .again, .ok [1, 2, 3]] true 0) (.target 0 .both)

def framed : World := relayed.after (.scripted [] true 4096) (.client 0 .writing)

theorem target_stream_framed_relayed : ∃ s, framed.session? 0 = some s ∧ s.unsent = [130, 3, 1, 2, 3] ∧
    (delivered .client (framed.log 0)).length = 129 ∧
      received .target (framed.log 0) = [1, 2, 3] ∧ ∃ sent : List (Nat × Bytes),
      (∀ frame ∈ sent, ∃ size, wsWriteFrame frame.1 frame.2 size = .ok (Framing.serverFrame frame.1 frame.2)) ∧
      ((s.handshakeDone = false ∧ delivered .client (framed.log 0) ++ s.unsent = [] ∧ sent = []) ∨
        (s.handshakeDone = true ∧ ∃ request consumed response, request <+: received .client (framed.log 0) ∧
          wsBuildHandshakeResponse request 256 = .ok (response, consumed) ∧
          delivered .client (framed.log 0) ++ s.unsent = response ++ wire sent)) ∧
      payloads Opcode.binary sent ++ contents s.targetToClient = received .target (framed.log 0) := by
  obtain ⟨reachable, present, slot, told, read⟩ : Reachable (sampleConfig 64) framed ∧ framed.session? 0 ≠ none ∧
      (∀ s ∈ framed.session? 0, s.unsent = [130, 3, 1, 2, 3]) ∧ (delivered .client (framed.log 0)).length = 129 ∧
      received .target (framed.log 0) = [1, 2, 3] :=
    And.imp_left (Runs.next_of (Runs.next_of (opened_runs trivial trivial) trivial) trivial) (by decide +kernel)
  obtain ⟨s, alive⟩ := Option.ne_none_iff_exists'.mp present
  exact ⟨s, alive, slot s alive, told, read, target_stream_framed reachable alive⟩

end Sockify.Proofs.TargetStream
