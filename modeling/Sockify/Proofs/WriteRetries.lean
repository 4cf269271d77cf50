import Sockify.Lib.History
import Sockify.Proofs.Lifetimes

/-! A write that was put off is repeated with the same bytes in front: the
output slot stays as it is until it is sent, and the ring buffer only grows at
its end until something is consumed. -/

namespace Sockify.Proofs.WriteRetries
open Sockify Behaviour Soundness Lifetimes BufferQueue History

def writeOn (side : Side) : Io → Option (Bytes × Except Err Nat)
  | .write other _ data reply => if other = side then some (data, reply) else none
  | _ => none

/-- The last write on the leg was put off when it was offered these bytes. -/
def Waits (side : Side) (log : List Io) (bytes : Bytes) : Prop :=
  (log.filterMap (writeOn side)).getLast? = some (bytes, .error .again)

/-- An entry that offers again what the leg is waiting for. -/
def Repeats (past : List Io) (entry : Io) : Prop :=
  ∀ side next reply, writeOn side entry = some (next, reply) → ∀ bytes, Waits side past bytes → bytes <+: next

/-- The bytes that a leg waits for are still where they were. -/
structure Held (config : Config) (m : Moment) : Prop where
  sound : Sound config m.session
  client : ∀ bytes, Waits .client m.log bytes → m.session.unsent = bytes ∧ ¬ Idle m.session
  target : ∀ bytes, Waits .target m.log bytes → bytes <+: contents m.session.clientToTarget ∧ bytes.length ≤ ioChunk
  repeats : Justified Repeats m.log

def Silent (more : List Io) : Prop := ∀ entry ∈ more, ∀ side, writeOn side entry = none

variable {config : Config} {early : Prop} {m n : Moment} {s t : Session} {l l' more : List Io}
  {h h' bytes data : Bytes} {side : Side}
  {transport : Transport} {reply : Except Err Nat}

private theorem waits_silent (silent : Silent more) : Waits side (l ++ more) bytes ↔ Waits side l bytes := by
  have none_ : more.filterMap (writeOn side) = [] :=
    List.filterMap_eq_nil_iff.mpr fun entry member => silent entry member side
  rw [Waits, List.filterMap_append, none_, List.append_nil, Waits]

private theorem waits_other {other : Side} (different : other ≠ side) :
    Waits side (l ++ [.write other transport data reply]) bytes ↔ Waits side l bytes := by
  have none_ : [Io.write other transport data reply].filterMap (writeOn side) = [] := by simp [writeOn, different]
  rw [Waits, List.filterMap_append, none_, List.append_nil, Waits]

private theorem waits_write :
    Waits side (l ++ [.write side transport data reply]) bytes ↔ data = bytes ∧ reply = .error .again := by
  have last : [Io.write side transport data reply].filterMap (writeOn side) = [(data, reply)] := by simp [writeOn]
  rw [Waits, List.filterMap_append, last, List.getLast?_append]
  simp

private theorem repeats_silent (justified : Justified Repeats l) (silent : Silent more) :
    Justified Repeats (l ++ more) := by
  apply justified.quiet
  intro entry member past side next reply writes
  rw [silent entry member side] at writes
  cases writes

private theorem repeats_write (justified : Justified Repeats l) (again : ∀ bytes, Waits side l bytes → bytes <+: data) :
    Justified Repeats (l ++ [.write side transport data reply]) := by
  apply justified.concat
  intro other next answer writes bytes waits
  rw [writeOn] at writes
  split at writes
  next same =>
    obtain ⟨rfl, -⟩ := Prod.mk.inj (Option.some.inj writes)
    exact again bytes (same ▸ waits)
  next => cases writes

/-- A step that writes nothing keeps a busy slot and the front of the buffer. -/
theorem Held.still (held : Held config ⟨s, l, h⟩) (sound : Sound config t) (silent : Silent more)
    (slot : ¬ Idle s → t.unsent = s.unsent ∧ ¬ Idle t)
    (front : contents s.clientToTarget <+: contents t.clientToTarget) :
    Held config ⟨t, l ++ more, h'⟩ where
  sound := sound
  client := by
    intro bytes waits
    obtain ⟨same, busy⟩ := held.client bytes ((waits_silent silent).mp waits)
    obtain ⟨kept, still⟩ := slot busy
    exact ⟨kept.trans same, still⟩
  target := by
    intro bytes waits
    obtain ⟨begin_, short⟩ := held.target bytes ((waits_silent silent).mp waits)
    exact ⟨begin_.trans front, short⟩
  repeats := repeats_silent held.repeats silent

/-- A step that leaves the record as it is. -/
theorem Held.quiet (held : Held config ⟨s, l, h⟩) (sound : Sound config t)
    (slot : ¬ Idle s → t.unsent = s.unsent ∧ ¬ Idle t)
    (front : contents s.clientToTarget <+: contents t.clientToTarget) : Held config ⟨t, l, h'⟩ := by
  have still : Held config ⟨t, l ++ [], h'⟩ := held.still sound (by simp [Silent]) slot front
  rwa [List.append_nil] at still

private theorem held_handled {msg : WsMessage} {extra : List Io} (parser : WsParser) (rest : Bytes)
    (fed : Bytes) (held : Held config ⟨s, l, h⟩) (sound : Sound config t)
    (effect : Handled { s with wsParser := parser } msg t extra) :
    Held config ⟨t, l ++ .feed fed :: extra, rest⟩ := by
  have valid := held.sound.clientToTarget.valid
  cases effect with
  | stored data fits =>
    have grown : contents s.clientToTarget <+: contents (bufferWrite s.clientToTarget msg.payload).buffer := by
      rw [(bufferWrite_fits valid fits).2.2]
      exact List.prefix_append _ _
    exact held.still sound (by simp [Silent, writeOn]) (fun busy => ⟨rfl, busy⟩) grown
  | ponged frame ping idle =>
    exact held.still sound (by simp [Silent, writeOn]) (fun busy => absurd idle busy) (List.prefix_refl _)
  | closeAnswered frame close idle =>
    exact held.still sound (by simp [Silent, writeOn]) (fun busy => absurd idle busy) (List.prefix_refl _)
  | closeHeld => exact held.still sound (by simp [Silent, writeOn]) (fun busy => ⟨rfl, busy⟩) (List.prefix_refl _)
  | ignored => exact held.still sound (by simp [Silent, writeOn]) (fun busy => ⟨rfl, busy⟩) (List.prefix_refl _)

private theorem held_readsClient (held : Held config ⟨s, l, h⟩)
    (act : ReadsClient early ⟨s, l, h⟩ ⟨t, l', h'⟩) : Held config ⟨t, l', h'⟩ := by
  have sound : Sound config t := sound_readsClient held.sound act
  cases act with
  | touched | gathered | discarded | cleared => exact held.quiet sound (fun busy => ⟨rfl, busy⟩) (List.prefix_refl _)
  | refused | received | parsed | abandoned =>
    exact held.still sound (by simp [Silent, writeOn]) (fun busy => ⟨rfl, busy⟩) (List.prefix_refl _)
  | accepted response consumed fd inProgress time unfinished =>
    -- The slot is empty before the response.
    obtain ⟨-, -, ⟨length, position⟩, -⟩ := held.sound.early unfinished
    exact held.still sound (by simp [Silent, writeOn])
      (fun busy => absurd (length.trans position.symm) busy) (List.prefix_refl _)
  | handled result msg done open_ room fed delivered effect => exact held_handled _ _ _ held sound effect

private theorem held_writesClient (held : Held config ⟨s, l, h⟩)
    (act : WritesClient ⟨s, l, h⟩ ⟨t, l', h'⟩) : Held config ⟨t, l', h'⟩ := by
  have sound : Sound config t := sound_writesClient held.sound act
  have again : ∀ bytes, Waits .client l bytes → bytes <+: s.unsent := by
    intro bytes waits
    rw [(held.client bytes waits).1]
  cases act with
  | touched => exact held.quiet sound (fun busy => ⟨rfl, busy⟩) (List.prefix_refl _)
  | refused error busy =>
    refine ⟨sound, ?_, ?_, repeats_write held.repeats again⟩
    · intro bytes waits
      exact ⟨(waits_write.mp waits).1, Nat.ne_of_gt busy⟩
    · intro bytes waits
      exact held.target bytes ((waits_other (by decide)).mp waits)
  | sent count busy fits =>
    refine ⟨sound, ?_, ?_, repeats_write held.repeats again⟩
    · intro bytes waits
      cases (waits_write.mp waits).2
    · intro bytes waits
      exact held.target bytes ((waits_other (by decide)).mp waits)
  | emptied sent =>
    have idle : Idle s := Nat.le_antisymm (Nat.le_of_not_lt sent) held.sound.slot.1
    exact held.quiet sound (fun busy => absurd idle busy) (List.prefix_refl _)
  | closeAnswered frame pending idle =>
    exact held.still sound (by simp [Silent, writeOn]) (fun busy => absurd idle busy) (List.prefix_refl _)
  | framed frame open_ settled done idle =>
    exact held.still sound (by simp [Silent, writeOn]) (fun busy => absurd idle busy) (List.prefix_refl _)

private theorem held_securesClient (held : Held config ⟨s, l, h⟩)
    (act : SecuresClient ⟨s, l, h⟩ ⟨t, l', h'⟩) : Held config ⟨t, l', h'⟩ := by
  have sound : Sound config t := sound_securesClient held.sound act
  cases act <;> exact held.still sound (by simp [Silent, writeOn]) (fun busy => ⟨rfl, busy⟩) (List.prefix_refl _)

/-- What the target is offered is the front of the buffer, one chunk at most. -/
theorem offered (sound : Sound config s) :
    bufferPeek s.clientToTarget (minSize ioChunk (bufferReadable s.clientToTarget)) =
    (contents s.clientToTarget).take ioChunk := by
  rw [bufferPeek_spec sound.clientToTarget.valid,
    minSize_eq, bufferReadable, ← contents_length sound.clientToTarget.valid,
    List.take_eq_take_min, Nat.min_assoc, Nat.min_self, ← List.take_eq_take_min]

private theorem held_actsTarget (held : Held config ⟨s, l, h⟩)
    (act : ActsTarget config early ⟨s, l, h⟩ ⟨t, l', h'⟩) : Held config ⟨t, l', h'⟩ := by
  have sound : Sound config t := sound_actsTarget held.sound act
  have front := offered held.sound
  have again : ∀ bytes, Waits .target l bytes →
      bytes <+: bufferPeek s.clientToTarget (minSize ioChunk (bufferReadable s.clientToTarget)) := by
    intro bytes waits
    rw [front]
    exact List.prefix_take_iff.mpr (held.target bytes waits)
  cases act with
  | touched => exact held.quiet sound (fun busy => ⟨rfl, busy⟩) (List.prefix_refl _)
  | writeRefused error transfers =>
    refine ⟨sound, ?_, ?_, repeats_write held.repeats again⟩
    · intro bytes waits
      exact held.client bytes ((waits_other (by decide)).mp waits)
    · intro bytes waits
      rw [← (waits_write.mp waits).1, front]
      exact ⟨List.take_prefix _ _, List.length_take_le _ _⟩
  | sent count transfers fits =>
    refine ⟨sound, ?_, ?_, repeats_write held.repeats again⟩
    · intro bytes waits
      exact held.client bytes ((waits_other (by decide)).mp waits)
    · intro bytes waits
      cases (waits_write.mp waits).2
  | _ => exact held.still sound (by simp [Silent, writeOn]) (fun busy => ⟨rfl, busy⟩) (List.prefix_refl _)

private theorem held_acts (held : Held config m) (act : Acts config early m n) : Held config n := by
  rcases act with ⟨_, ⟨-, reads⟩ | ⟨-, writes⟩ | secures⟩ | target
  · exact held_readsClient held reads
  · exact held_writesClient held writes
  · exact held_securesClient held secures
  · exact held_actsTarget held target

/-- A release writes nothing. -/
theorem repeats_ends (held : Held config m) (ending : Ends early m n) :
    Justified Repeats (n.log ++ [.release n.session]) := by
  have release : Silent [.release n.session] := by simp [Silent, writeOn]
  apply repeats_silent ?_ release
  rcases ending with client | target
  · cases client with
    | here | interrupted | drained => exact held.repeats
    | _ => exact repeats_silent held.repeats (by simp [Silent, writeOn])
  · cases target with
    | here => exact held.repeats
    | _ => exact repeats_silent held.repeats (by simp [Silent, writeOn])

/-- In every run, and on each leg: when a write is put off, the next write on
the leg offers the same bytes again, with at most more behind them. -/
theorem write_retries {config : Config} {w : World} (reachable : Reachable config w) (id : SessionId)
    (side : Side) {past middle later : List Io} {transport next : Transport} {bytes offered : Bytes}
    {reply : Except Err Nat}
    (log : w.log id = past ++ .write side transport bytes (.error .again) ::
      (middle ++ .write side next offered reply :: later))
    (between : ∀ entry ∈ middle, writeOn side entry = none) : bytes <+: offered := by
  have logs := (reachable_invariant reachable).every_log (Held config) (Justified Repeats)
    (fun s created => ⟨created.sound, nofun, nofun, justified_nil⟩) (fun _ _ held act => held_acts held act)
    (fun _ held => held.repeats) (fun _ _ held ending => repeats_ends held ending) justified_nil
    (fun s => repeats_silent (l := []) justified_nil (by simp [Silent, writeOn]))
  apply logs id (past ++ .write side transport bytes (.error .again) :: middle) (.write side next offered reply) later
    (by rw [log, List.append_assoc, List.cons_append]) side offered reply (by simp [writeOn])
  have none_ : middle.filterMap (writeOn side) = [] := List.filterMap_eq_nil_iff.mpr between
  have first : writeOn side (.write side transport bytes (.error .again)) = some (bytes, .error .again) := by
    simp [writeOn]
  rw [Waits, List.filterMap_append, List.filterMap_cons_some first, none_, List.getLast?_append]
  rfl

def retried : World :=
  let stalled := ((opened (sampleConfig 64) true).after
    (.scripted [.ok [130, 129, 0, 0, 0, 0, 9], .error .again] true 0) (.client 0 .reading)).after
    (.scripted [.error .again] true 0) (.target 0 .both)
  (stalled.after (.scripted [.ok [130, 129, 0, 0, 0, 0, 7], .error .again] true 0) (.client 0 .reading)).after
    (.scripted [] true 4096) (.target 0 .writing)

theorem write_retries_longer :
    retried.log 0 = (retried.log 0).take 10 ++ .write .target ⟨.plain, some 7, none⟩ [9] (.error .again) ::
    (((retried.log 0).drop 11).take 4 ++ .write .target ⟨.plain, some 7, none⟩ [9, 7] (.ok 2) :: []) ∧
    ([9] : Bytes) <+: [9, 7] := by
  obtain ⟨reachable, log, between⟩ : Reachable (sampleConfig 64) retried ∧
      retried.log 0 = (retried.log 0).take 10 ++ .write .target ⟨.plain, some 7, none⟩ [9] (.error .again) ::
        (((retried.log 0).drop 11).take 4 ++ .write .target ⟨.plain, some 7, none⟩ [9, 7] (.ok 2) :: []) ∧
      ∀ entry ∈ ((retried.log 0).drop 11).take 4, writeOn .target entry = none :=
    And.imp_left (Runs.next_of
      (Runs.next_of (Runs.next_of (Runs.next_of (opened_runs trivial trivial) trivial) trivial) trivial) trivial)
      (by decide +kernel)
  exact ⟨log, write_retries reachable 0 .target log between⟩

end Sockify.Proofs.WriteRetries
