import Sockify.Proofs.Lifetimes

/-! After a handler, the event loop is asked for every event that the session
waits for. Only the smallest buffer, whose high-water mark is zero, counts as
full while it is empty, and asks for nothing. -/

namespace Sockify.Proofs.Interest
open Sockify Behaviour Soundness Simulation SessionSteps Lifetimes

def mask (w : World) (id : SessionId) (side : Side) : Events := (w.interest id side).getD .none

/-- The masks of a session cover its pending work. -/
structure Covered (w : World) (id : SessionId) (s : Session) : Prop where
  output : s.clientOutPos < s.clientOutLen ∨ bufferReadable s.targetToClient ≠ 0 → (mask w id .client).write = true
  forward : bufferReadable s.clientToTarget ≠ 0 → s.targetConnecting = false →
    s.targetTlsReady = true → (mask w id .target).write = true
  awake : ¬ (mask w id .client = .none ∧ mask w id .target = .none)
  idle : s.handshakeDone = true →
    s.closing = .no → bufferReadable s.clientToTarget = 0 → bufferReadable s.targetToClient = 0 →
    (mask w id .client).read = true

variable {config : Config} {s : Session} {wants : Events} {w : World} {id : SessionId}

private theorem tlsEventMask_some (wants : Events) : transportTlsEventMask wants ≠ .none := by
  simp only [transportTlsEventMask]
  split
  · decide
  · assumption

private theorem union_writing (a : Events) : (a.union .writing).write = true := by simp [Events.union, Events.writing]

private theorem writing_some {a : Events} (write : a.write = true) : a ≠ .none := by
  rintro rfl
  cases write

private theorem reading_some {a : Events} (read : a.read = true) : a ≠ .none := by
  rintro rfl
  cases read

private theorem clientEvents_write (pending : s.clientOutPos < s.clientOutLen ∨ bufferReadable s.targetToClient ≠ 0) :
    (clientEvents wants s).write = true := by
  rw [clientEvents, if_pos pending]
  exact union_writing _

private theorem targetEvents_write (pending : bufferReadable s.clientToTarget ≠ 0) (ready : s.targetTlsReady = true) :
    (targetEvents wants s).write = true := by
  rw [targetEvents, if_pos ⟨ready, pending⟩]
  exact union_writing _

private theorem clientEvents_read (ready : s.clientTlsReady = true) (open_ : s.closing = .no)
    (low : s.handshakeDone = false ∨ bufferIsHigh s.clientToTarget = false) : (clientEvents wants s).read = true := by
  simp only [clientEvents, ready]
  rcases low with unfinished | low
  · simp only [open_, unfinished]
    split <;> rfl
  · simp only [open_, low]
    split <;> simp [Events.union, Events.reading]

/-- The high-water mark is above an empty buffer, but for the smallest size. -/
theorem high_nonempty {buf : Buffer} (sized : Sized config buf) (large : sessionBufferSize config ≠ 1)
    (high : bufferIsHigh buf = true) :
    bufferReadable buf ≠ 0 := by
  have positive := Creation.sessionBufferSize_pos config
  simp only [bufferIsHigh, decide_eq_true_eq, sized.highWater] at high
  simp only [bufferReadable]
  omega

private theorem high_smallest {buf : Buffer} (sized : Sized config buf)
    (small : sessionBufferSize config = 1) : bufferIsHigh buf = true := by
  simp [bufferIsHigh, sized.highWater, small]

/-- A session with nothing to ask of its client still asks something of its target. -/
theorem events_some (sound : Sound config s) (settled : Settled s)
    (large : sessionBufferSize config ≠ 1) (wants wants' : Events) :
    clientEvents wants s ≠ .none ∨ (s.targetRegistered = true ∧ targetEvents wants' s ≠ .none) := by
  by_cases pending : s.clientOutPos < s.clientOutLen ∨ bufferReadable s.targetToClient ≠ 0
  · exact .inl (writing_some (clientEvents_write pending))
  cases ready : s.clientTlsReady with
  | false =>
    left
    rw [clientEvents, if_neg pending, ready]
    exact tlsEventMask_some wants
  | true =>
    cases closing : s.closing with
    | started => exact absurd (.inl (settled closing)) pending
    | released => exact absurd closing sound.live
    | no =>
      cases done : s.handshakeDone with
      | false => exact .inl (reading_some (clientEvents_read ready closing (.inl done)))
      | true =>
        cases high : bufferIsHigh s.clientToTarget with
        | false => exact .inl (reading_some (clientEvents_read ready closing (.inr high)))
        | true =>
          have some_ := high_nonempty sound.clientToTarget large high
          refine .inr ⟨(sound.late done).2.1, ?_⟩
          cases secure : s.targetTlsReady with
          | true => exact writing_some (targetEvents_write some_ secure)
          | false =>
            have unready : ¬ (s.targetTlsReady = true ∧ bufferReadable s.clientToTarget ≠ 0) := by simp [secure]
            rw [targetEvents, if_neg unready]
            split
            · decide
            · rw [secure]
              exact tlsEventMask_some wants'

/-- What the masks say once they have been computed from the session itself. -/
theorem masked_covered (sound : Sound config s) (settled : Settled s) {log : List Io} {calls : Nat}
    (masked : Masked ⟨s, log, w.interest id, calls⟩) :
    (sessionBufferSize config ≠ 1 → Covered w id s) ∧
    (sessionBufferSize config = 1 → s.handshakeDone = true → s.closing = .no → (mask w id .client).read = false) := by
  obtain ⟨wants, asked⟩ := masked.client sound.registered
  have client : mask w id .client = clientEvents wants s := by rw [mask, show w.interest id .client = _ from asked]; rfl
  refine ⟨fun large => ⟨fun pending => ?_, fun pending connected ready =>
    ?_, ?_, fun done open_ drained empty => ?_⟩, fun small done open_ => ?_⟩
  · rw [client]
    exact clientEvents_write pending
  · have registered : s.targetRegistered = true := by
      cases done : s.handshakeDone with
      | true => exact (sound.late done).2.1
      | false =>
        obtain ⟨-, -, -, -, ⟨none, -⟩, -⟩ := sound.early done
        exact absurd none pending
    obtain ⟨wants', asked⟩ := masked.target registered
    rw [mask, show w.interest id .target = _ from asked]
    exact targetEvents_write pending ready
  · rintro ⟨noClient, noTarget⟩
    by_cases registered : s.targetRegistered = true
    · obtain ⟨wants', asked⟩ := masked.target registered
      have target : mask w id .target = targetEvents wants' s := by
        rw [mask, show w.interest id .target = _ from asked]; rfl
      rcases events_some sound settled large wants wants' with some_ | ⟨-, some_⟩
      · exact some_ (client.symm.trans noClient)
      · exact some_ (target.symm.trans noTarget)
    · rcases events_some sound settled large wants .none with some_ | ⟨here, -⟩
      · exact some_ (client.symm.trans noClient)
      · exact registered here
  · rw [client]
    refine clientEvents_read (sound.late done).2.2 open_ (.inr ?_)
    by_contra high
    exact high_nonempty sound.clientToTarget large (by simpa using high) drained
  · rw [client]
    have high := high_smallest sound.clientToTarget small
    simp only [clientEvents, (sound.late done).2.2, high, done, open_]
    split <;> rfl

/-- The sessions that a callback is made for, when it is the callback of a session. -/
def Call.serves (id : SessionId) : Call → Prop
  | .client other _ | .target other _ => other = id
  | _ => False

/-- After a session's handler has run, from any reachable world and whatever
happened in it, the masks of the session cover its work, unless the buffers
have the smallest size. With that size an idle session does not read. -/
theorem interest_covers {config : Config} {w : World} {env : Env} {call : Call} {id : SessionId}
    {s : Session} (reachable : Reachable config w) (serves : Call.serves id call)
    (enabled : call.Enabled w) (works : ∀ n side, env.loopModify n side = .ok ())
    (alive : (w.after env call).session? id = some s) :
    (sessionBufferSize config ≠ 1 → Covered (w.after env call) id s) ∧
    (sessionBufferSize config = 1 → s.handshakeDone = true → s.closing = .no →
    (mask (w.after env call) id .client).read = false) := by
  have inv := reachable_invariant reachable
  cases call with
  | accept => exact serves.elim
  | tick => exact serves.elim
  | client other events =>
    obtain rfl : other = id := serves
    obtain ⟨before, present, -⟩ := enabled
    obtain ⟨outcome, later, -⟩ := client_outcome env events inv present fun _ => trivial
    exact masked_covered (later.lived other s alive).sound (outcome.settled s alive) (outcome.masked s alive works)
  | target other events =>
    obtain rfl : other = id := serves
    obtain ⟨before, present, registered⟩ := enabled
    obtain ⟨outcome, later, -⟩ := target_outcome env events inv present registered fun _ => trivial
    exact masked_covered (later.lived other s alive).sound (outcome.settled s alive) (outcome.masked s alive works)

theorem interest_covers_opened : ∃ s, (opened (sampleConfig 64) true).session? 0 = some s ∧
    Covered (opened (sampleConfig 64) true) 0 s := by
  have state : (opened (sampleConfig 64) true).session? 0 ≠ none := by decide +kernel
  obtain ⟨s, alive⟩ := Option.ne_none_iff_exists'.mp state
  have covers := interest_covers (connected_runs trivial)
    (show Call.serves 0 (.client 0 .reading) from rfl) (by decide +kernel) (fun _ _ => rfl) alive
  exact ⟨s, alive, covers.1 (by decide)⟩

def stalled : World :=
  ((opened (sampleConfig 1) true).after (.scripted [] true 0) (.target 0 .writing)).after
    (.scripted [] true 4096) (.client 0 .writing)

theorem interest_stalls :
    (sampleConfig 1).Accepted ∧ Reachable (sampleConfig 1) stalled ∧ ∃ s, stalled.session? 0 = some s ∧
    s.handshakeDone = true ∧ s.closing = .no ∧
    bufferReadable s.clientToTarget = 0 ∧ bufferReadable s.targetToClient = 0 ∧
    mask stalled 0 .client = .none ∧ mask stalled 0 .target = .none ∧ ¬ Covered stalled 0 s := by
  obtain ⟨reachable, present, idle, client, target⟩ : Reachable (sampleConfig 1) stalled ∧ stalled.session? 0 ≠ none ∧
      (∀ s ∈ stalled.session? 0, s.handshakeDone = true ∧ s.closing = .no ∧
        bufferReadable s.clientToTarget = 0 ∧ bufferReadable s.targetToClient = 0) ∧
      mask stalled 0 .client = .none ∧ mask stalled 0 .target = .none :=
    And.imp_left (Runs.next_of (Runs.next_of (opened_runs trivial trivial) trivial) trivial) (by decide +kernel)
  obtain ⟨s, alive⟩ := Option.ne_none_iff_exists'.mp present
  obtain ⟨done, open_, drained, empty⟩ := idle s alive
  exact ⟨by decide, reachable, s, alive, done, open_, drained, empty, client, target,
    fun covered => covered.awake ⟨client, target⟩⟩

end Sockify.Proofs.Interest
