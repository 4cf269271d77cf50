import Sockify.Proofs.TargetReads
import Sockify.Proofs.TargetStream

/-! The end of the target's stream releases the session at once. What is lost
then is what was on its way to the client before the event, and what the event
itself still read. -/

namespace Sockify.Proofs.EndOfStream
open Sockify Behaviour Soundness Lifetimes Changes TargetEndings TargetReads Streams BufferQueue TargetStream

def Flushed (s : Session) : Prop := contents s.targetToClient = [] ∧ Idle s

/-- All that was read from the target has reached the client in BINARY frames. -/
structure Conveyed (past : List Io) (t : Session) : Prop where
  flushed : Flushed t
  sent : delivered .client past = responses past ++ wire (frames past)
  carried : payloads Opcode.binary (frames past) = received .target past

/-- The record of a session that was released on the end of its target's stream. -/
def StreamEnded (log past : List Io) (t : Session) : Prop :=
  ∃ transport limit, log = past ++ [.read .target transport limit (.error .closed), .release t]

/-- No session that the end of its target's stream has released has lost any of it. -/
def Lossless (w : World) : Prop := ∀ id past t, StreamEnded (w.log id) past t → Conveyed past t

/-- A target event to which the end of the stream is answered finds nothing on
its way to the client, and is answered that at once. -/
def Timely (w : World) (env : Env) (call : Call) : Prop :=
  ∀ id events s, call = .target id events → w.session? id = some s → .error .closed ∈ answers w.config env s events →
    Flushed s ∧ answers w.config env s events = [.error .closed]

variable {config : Config} {w : World} {env : Env} {id : SessionId} {s t : Session} {l l' log past more : List Io}

theorem StreamEnded.ended (ended : StreamEnded log past t) : ¬ Unended log := by
  obtain ⟨transport, limit, rfl⟩ := ended
  intro unended
  exact unended (.read .target transport limit (.error .closed)) (by simp) (by simp [Ending])

/-- What a target event adds to what is on its way to the client. -/
structure Gained (s : Session) (l : List Io) (m : Moment) (more : List Io) : Prop where
  log : m.log = l ++ more
  buffered : contents m.session.targetToClient = contents s.targetToClient ++ received .target more
  slot : Idle m.session ↔ Idle s

theorem Gained.grown {u : Session} {h h' : Bytes} (extra : List Io)
    (gained : Gained s l ⟨t, l', h⟩ more) (slot : Idle u ↔ Idle t)
    (buffered : contents u.targetToClient = contents t.targetToClient ++ received .target extra) :
    Gained s l ⟨u, l' ++ extra, h'⟩ (more ++ extra) where
  log := by
    have log : l' = l ++ more := gained.log
    simp [log]
  buffered := by
    have before : contents t.targetToClient = contents s.targetToClient ++ received .target more := gained.buffered
    simp [buffered, before]
  slot := slot.trans gained.slot

private theorem gained_actsTarget {h h' : Bytes} (sound : Sound config s)
    (act : ActsTarget config True ⟨s, l, h⟩ ⟨t, l', h'⟩) {u : Session} {k : List Io}
    (gained : Gained u k ⟨s, l, h⟩ more) : ∃ more, Gained u k ⟨t, l', h'⟩ more := by
  cases act with
  | touched => exact ⟨more, gained.log, gained.buffered, gained.slot⟩
  | received bytes time transfers low nonempty chunk fits =>
    obtain ⟨-, -, stored⟩ := bufferWrite_fits sound.targetToClient.valid fits
    exact ⟨_, gained.grown _ Iff.rfl (by simp [stored])⟩
  | _ => exact ⟨_, gained.grown _ Iff.rfl (by simp)⟩

/-- Nothing comes between the end of the stream and the release. -/
theorem ended_here {early : Prop} {m : Moment} {hand : Bytes} {u : Session} (ending : EndsTarget early m ⟨t, log, hand⟩)
    (ended : StreamEnded (log ++ [.release t]) past u) :
    u = t ∧ ∃ transport limit, m = ⟨t, past ++ [.read .target transport limit (.error .closed)], hand⟩ := by
  obtain ⟨transport, limit, layout⟩ := ended
  rw [List.append_cons past] at layout
  obtain ⟨front, back⟩ := List.append_inj' layout rfl
  obtain rfl : t = u := by simpa using back
  clear layout back
  cases ending with
  | unsecured =>
    have last := (List.append_inj' front rfl).2
    simp at last
  | overflowed =>
    rw [List.append_cons] at front
    have last := (List.append_inj' front rfl).2
    simp at last
  | here => exact ⟨rfl, transport, limit, by rw [front]⟩

/-- What a target event that meets the end of the stream finds and leaves. -/
theorem path_gained {m : Moment} {io : Io} (sound : Sound config s)
    (path : Path (ActsTarget config True) ⟨s, l, []⟩ m) (unended : Unended l) (ending : Ending io)
    (logged : m.log = past ++ [io]) : ∃ more, past = l ++ more ∧
      contents m.session.targetToClient = contents s.targetToClient ++ received .target more ∧
      (Idle m.session ↔ Idle s) := by
  obtain ⟨-, more, log, buffered, slot⟩ := path_keeps (fun m => Sound config m.session ∧ ∃ more, Gained s l m more)
    (fun _ _ kept act => ⟨sound_actsTarget kept.1 act, kept.2.elim fun _ gained => gained_actsTarget kept.1 act gained⟩)
    ⟨sound, [], by simp, by simp, Iff.rfl⟩ path
  rw [logged] at log
  rcases List.eq_nil_or_concat more with rfl | ⟨before, last, rfl⟩
  · rw [List.append_nil] at log
    exact absurd ending (unended io (by simp [← log]))
  · rw [List.concat_eq_append, ← List.append_assoc] at log
    obtain ⟨same, end_⟩ := List.append_inj' log rfl
    obtain rfl : io = last := by simpa using end_
    refine ⟨before, same, ?_, slot⟩
    have nothing : taken .target io = [] := by
      unfold Ending at ending
      split at ending <;> simp_all
    rw [List.concat_eq_append, received_append, received_cons, nothing] at buffered
    simpa using buffered

/-- Whatever was read has been sent in BINARY frames or is on its way. -/
theorem path_conveyed {m : Moment} {io : Io} (lived : Lived config True s l)
    (path : Path (ActsTarget config True) ⟨s, l, []⟩ m) (ending : Ending io)
    (logged : m.log = past ++ [io]) (flushed : Flushed m.session) : Conveyed past m.session := by
  have outgoing : Outgoing config m := path_keeps _ (fun _ _ => outgoing_actsTarget) (Lived.outgoing lived) path
  have bytes := outgoing.bytes
  have origin := outgoing.origin
  rw [unsent_idle flushed.2, List.append_nil, logged] at bytes
  rw [flushed.1, List.append_nil, logged] at origin
  unfold Ending at ending
  split at ending
  · exact ⟨flushed, by simpa using bytes, by simpa using origin⟩
  · cases ending

/-- How a record comes to show the end of the target's stream. -/
theorem ended_cases {call : Call} (reachable : Reachable config w) (enabled : call.Enabled w)
    (ended : StreamEnded ((w.after env call).log id) past t) :
    (w.after env call).log id = w.log id ∨
    ∃ events s more, call = .target id events ∧ w.session? id = some s ∧ past = w.log id ++ more ∧
      contents t.targetToClient = contents s.targetToClient ++ received .target more ∧ (Idle t ↔ Idle s) ∧
      (Flushed t → Conveyed past t) := by
  have inv := reachable_invariant reachable
  have change := step_changes env inv enabled id
  generalize found : (w.after env call).session? id = state at change
  generalize logged : (w.after env call).log id = log at change ended
  cases change with
  | aside aside =>
    cases aside with
    | still => exact .inl rfl
    | expired alive => exact absurd ((reachable_unended reachable alive).append (by simp [Ending])) ended.ended
    | born => exact absurd (by simp [Unended]) ended.ended
    | stillborn => exact absurd (by simp [Unended, Ending]) ended.ended
  | client same alive fate =>
    have unended := reachable_unended reachable alive
    cases fate with
    | kept path =>
      exact absurd (path_keeps (fun m => Unended m.log) (fun _ _ => unended_actsClient) unended path) ended.ended
    | released path ending =>
      have before := path_keeps (fun m => Unended m.log) (fun _ _ => unended_actsClient) unended path
      exact absurd ((unended_endsClient before ending).append (by simp [Ending])) ended.ended
  | target same alive fate =>
    have lived := inv.lived id _ alive
    have unended := reachable_unended reachable alive
    cases fate with
    | kept path =>
      subst same
      rw [← logged] at ended
      exact absurd ((target_reading _ _ inv alive unended).1 _ found) ended.ended
    | released path ending =>
      obtain ⟨rfl, transport, limit, rfl⟩ := ended_here ending ended
      have ends : Ending (.read .target transport limit (.error .closed)) := by simp [Ending]
      obtain ⟨more, front, buffered, slot⟩ := path_gained lived.sound path unended ends rfl
      exact .inr ⟨_, _, more, same, alive, front, buffered, slot, path_conveyed lived path ends rfl⟩

/-- The answers to the event behind which a record shows the end of the stream. -/
theorem ended_answers {events : Events} (inv : Invariant config True w)
    (present : w.session? id = some s)
    (ended : StreamEnded ((w.after env (.target id events)).log id) (w.log id ++ more) t) :
    answers config env s events = heard more ++ [.error .closed] := by
  obtain ⟨transport, limit, layout⟩ := ended
  rw [List.append_assoc] at layout
  rcases target_hears env events inv present with ⟨grown, log, same, -⟩ | ⟨grown, u, log, same, -⟩
  · obtain rfl := List.append_cancel_left (log.symm.trans layout)
    simpa using same.symm
  · rw [List.append_assoc] at log
    have grew := congrArg heard (List.append_cancel_left (log.symm.trans layout))
    rw [← same]
    simpa using grew

/-- An event to which the end of the stream is answered leaves such a record. -/
theorem answers_ended {events : Events} (inv : Invariant config True w)
    (present : w.session? id = some s) (closed : .error .closed ∈ answers config env s events) :
    ∃ more t, StreamEnded ((w.after env (.target id events)).log id) (w.log id ++ more) t := by
  rcases target_hears env events inv present with ⟨-, -, -, unended⟩ | ⟨grown, t, log, -, ends⟩
  · exact absurd closed unended
  · obtain ⟨past, transport, limit, rfl⟩ := ends closed
    exact ⟨past, t, transport, limit, by rw [log]; simp⟩

/-- What one callback keeps, and when. -/
theorem step_lossless {call : Call} (reachable : Reachable config w) (enabled : call.Enabled w)
    (lossless : Lossless w) :
    Lossless (w.after env call) ↔ Timely w env call := by
  have inv := reachable_invariant reachable
  have only : ∀ {id events s more t}, w.session? id = some s →
      StreamEnded ((w.after env (.target id events)).log id) (w.log id ++ more) t →
      (answers w.config env s events = [.error .closed] ↔ received .target more = []) := by
    intro id events s more t present ended
    have layout := ended_answers inv present ended
    rw [inv.configured, layout, List.append_eq_singleton_iff]
    have nothing := heard_nil fun reply member => answers_bring layout member
    simpa using nothing
  constructor
  · intro after id events s same present closed
    subst same
    obtain ⟨more, t, ended⟩ := answers_ended inv present (inv.configured ▸ closed)
    rcases ended_cases reachable enabled ended with still | ⟨events', s', more', -, alive, front, buffered, slot, -⟩
    · rw [still] at ended
      exact absurd (reachable_unended reachable present) ended.ended
    · obtain rfl : s = s' := by simpa [present] using alive
      obtain rfl := List.append_cancel_left front
      have flushed := (after id _ t ended).flushed
      rw [Flushed, buffered, List.append_eq_nil_iff, slot] at flushed
      exact ⟨⟨flushed.1.1, flushed.2⟩, (only present ended).mpr flushed.1.2⟩
  · intro timely id past t ended
    rcases ended_cases reachable enabled ended with still | ⟨events, s, more, rfl, alive, rfl, buffered, slot, conveyed⟩
    · rw [still] at ended
      exact lossless id past t ended
    · have closed : .error .closed ∈ answers w.config env s events := by
        simp [inv.configured, ended_answers inv alive ended]
      obtain ⟨⟨empty, idle⟩, once⟩ := timely id events s rfl alive closed
      exact conveyed ⟨by rw [buffered, empty, (only alive ended).mp once]; rfl, slot.mpr idle⟩

/-- In every run in which the end of a target's stream comes first to an event
that finds nothing on its way to the client, nothing of any stream is lost; and
no other event keeps it so. -/
theorem end_of_stream_conveyed {config : Config} :
    (∀ w, Runs Timely (serverInit config) w → Lossless w) ∧
    ∀ w env call, Reachable config w → call.Enabled w →
    Lossless w → (Lossless (w.after env call) ↔ Timely w env call) := by
  constructor
  · intro w run
    apply runs_keep Lossless ?_ ?_ run
    · intro id past t ⟨transport, limit, layout⟩
      simp [serverInit] at layout
    · exact fun w env call reachable enabled timely lossless => (step_lossless reachable enabled lossless).mpr timely
  · exact fun w env call reachable enabled lossless => step_lossless reachable enabled lossless

/-- What came before the end of the target's stream, and the session then released. -/
def streamEnd? (log : List Io) : Option (List Io × Session) :=
  match log.reverse with
  | .release t :: .read .target _ _ (.error .closed) :: past => some (past.reverse, t)
  | _ => none

private theorem streamEnd?_ended (found : streamEnd? log = some (past, t)) : StreamEnded log past t := by
  unfold streamEnd? at found
  split at found
  next t' transport limit rest layout =>
    obtain ⟨rfl, rfl⟩ : rest.reverse = past ∧ t' = t := by simpa using found
    exact ⟨transport, limit, by rw [← List.reverse_reverse log, layout]; simp⟩
  · cases found

private theorem timely_target {events : Events}
    (timely : ∀ s ∈ w.session? id, .error .closed ∈ answers w.config env s events →
      (contents s.targetToClient = [] ∧ Idle s) ∧ answers w.config env s events = [.error .closed]) :
    Timely w env (.target id events) := by
  intro id' events' s same present
  cases same
  exact timely s present

private theorem timely_other {call : Call} (other : ∀ id events, call ≠ .target id events) : Timely w env call :=
  fun id events _ same => absurd same (other id events)

def sentOn : World :=
  let answered :=
    (opened (sampleConfig 64) true).after (.scripted [.error .again, .ok [1, 2, 3]] true 0) (.target 0 .both)
  (answered.after (.scripted [] true 4096) (.client 0 .writing)).after (.scripted [] true 4096) (.client 0 .writing)

def finished : World := sentOn.after (.scripted [.error .closed] true 0) (.target 0 .reading)

theorem end_of_stream_conveyed_finished : Lossless finished ∧ ∃ past t, StreamEnded (finished.log 0) past t ∧
    payloads Opcode.binary (frames past) = [1, 2, 3] := by
  obtain ⟨answered, ended, found⟩ : (∀ s ∈ (opened (sampleConfig 64) true).session? 0,
        .error .closed ∉ answers (opened (sampleConfig 64) true).config
          (.scripted [.error .again, .ok [1, 2, 3]] true 0) s .both) ∧
      (∀ s ∈ sentOn.session? 0, (contents s.targetToClient = [] ∧ Idle s) ∧
        answers sentOn.config (.scripted [.error .closed] true 0) s .reading = [.error .closed]) ∧
      (streamEnd? (finished.log 0)).any (fun ended => decide (received .target ended.1 = [1, 2, 3])) = true := by
        decide +kernel
  have arrives : Timely (opened (sampleConfig 64) true)
      (.scripted [.error .again, .ok [1, 2, 3]] true 0) (.target 0 .both) :=
    timely_target fun s present closed => absurd closed (answered s present)
  have ends : Timely sentOn (.scripted [.error .closed] true 0) (.target 0 .reading) :=
    timely_target fun s present _ => ended s present
  have run : Runs Timely (serverInit (sampleConfig 64)) finished :=
    Runs.next_of (Runs.next_of
      (Runs.next_of (Runs.next_of (opened_runs (timely_other (by simp)) (timely_other (by simp))) arrives)
      (timely_other (by simp))) (timely_other (by simp))) ends (by decide +kernel)
  obtain ⟨⟨past, t⟩, found, read⟩ := Option.any_eq_true _ _ |>.mp found
  have lossless := end_of_stream_conveyed.1 finished run
  have ended := streamEnd?_ended found
  exact ⟨lossless, past, t, ended, (lossless 0 past t ended).carried.trans (of_decide_eq_true read)⟩

def clientFails : Io → Bool
  | .read .client _ _ (.error error) | .write .client _ _ (.error error) => decide (error ≠ .again)
  | _ => false

def cutShort : World :=
  (opened (sampleConfig 64) true).after
    (.scripted [.error .again, .ok [1, 2, 3], .error .closed] true 0) (.target 0 .both)

theorem end_of_stream_loses :
    (sampleConfig 64).Accepted ∧ Runs (fun _ _ call => call ≠ .tick) (serverInit (sampleConfig 64)) cutShort ∧
    received .client (cutShort.log 0) = sampleRequest ∧
    (∀ io ∈ cutShort.log 0, clientFails io = false) ∧ ¬ Lossless cutShort := by
  obtain ⟨run, heard, fine, busy⟩ : Runs (fun _ _ call => call ≠ .tick) (serverInit (sampleConfig 64)) cutShort ∧
      received .client (cutShort.log 0) = sampleRequest ∧ (∀ io ∈ cutShort.log 0, clientFails io = false) ∧
      (streamEnd? (cutShort.log 0)).any (fun ended => decide (contents ended.2.targetToClient = [1, 2, 3])) = true :=
    And.imp_left (Runs.next_of (opened_runs nofun nofun) nofun) (by decide +kernel)
  refine ⟨by decide, run, heard, fine, fun lossless => ?_⟩
  obtain ⟨⟨past, t⟩, found, busy⟩ := Option.any_eq_true _ _ |>.mp busy
  have empty := (lossless 0 past t (streamEnd?_ended found)).flushed.1
  simp [empty] at busy

end Sockify.Proofs.EndOfStream
