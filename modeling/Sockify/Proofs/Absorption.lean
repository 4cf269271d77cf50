import Sockify.Streams
import Sockify.Proofs.Lifetimes

/-! What becomes of an upgraded session's client bytes, as a function of the
session alone: `session_process_ws_bytes` computes it, and stops on a lookup
exactly where the function loses the session. -/

namespace Sockify.Proofs.Absorption
open Sockify Stateful Behaviour Streams SessionLogic SessionSteps Soundness Simulation

/-- The session that a message leaves and what it records, unless the message
makes the session's handler release it. -/
def absorbMessage (s : Session) (msg : WsMessage) : Option (Session × List Io) :=
  if IsData msg.opcode then
    if msg.payload.length ≤ bufferWritable s.clientToTarget then
      some ({ s with clientToTarget := (bufferWrite s.clientToTarget msg.payload).buffer },
        [.store .client msg.payload msg.payload.length])
    else none
  else if msg.opcode = Opcode.ping then
    if Idle s then
      match wsWriteFrame Opcode.pong msg.payload s.clientOutCapacity with
      | .ok frame => some (fill s frame, [.frame Opcode.pong msg.payload])
      | .error _ => none
    else none
  else if msg.opcode = Opcode.close then
    if Idle s then
      match wsWriteFrame Opcode.close (msg.payload.take 125) s.clientOutCapacity with
      | .ok frame => some ({ fill s frame with
          closing := .started, pendingClosePayload := msg.payload.take 125, pendingClose := false },
            [.frame Opcode.close (msg.payload.take 125)])
      | .error _ => none
    else some ({ s with closing := .started, pendingClosePayload := msg.payload.take 125, pendingClose := true }, [])
  else some (s, [])

/-- What `session_process_ws_bytes` leaves: a session, what was recorded on the
way, and the code; or nothing, when it has released the session. -/
inductive Absorbed
  | kept (s : Session) (entries : List Io) (rc : Except Err Unit)
  | lost

def Absorbed.behind (entries : List Io) : Absorbed → Absorbed
  | .kept s later rc => .kept s (entries ++ later) rc
  | .lost => .lost

def absorb : Nat → Session → Bytes → Absorbed
  | 0, _, _ => .lost
  | fuel + 1, s, data =>
    if data = [] ∨ s.closing ≠ .no then .kept s [] (.ok ())
    else if payloadCapacity s = 0 then .kept s [.abandoned data] (.error .again)
    else
      let result := wsParserFeed s.wsParser data (payloadCapacity s)
      let next := { s with wsParser := result.parser }
      match result.outcome with
      | .ok msg =>
        match absorbMessage next msg with
        | some (t, entries) => (absorb fuel t (data.drop result.used)).behind (.feed (data.take result.used) :: entries)
        | none => .lost
      | .error .again => (absorb fuel next (data.drop result.used)).behind [.feed (data.take result.used)]
      | .error error => .kept next [.feed (data.take result.used)] (.error error)

variable {site : Site} {x : Own} {s t : Session} {msg : WsMessage} {entries : List Io} {data : Bytes} {config : Config}

theorem handled_absorbs (effect : Handled s msg t entries) : absorbMessage s msg = some (t, entries) := by
  cases effect with
  | stored data fits => rw [absorbMessage, if_pos data, if_pos fits]
  | ponged frame ping idle written =>
    rw [absorbMessage, if_neg (by simp [IsData, ping, Opcode.ping, Opcode.binary, Opcode.text, Opcode.continuation]),
      if_pos ping, if_pos idle, written]
  | closeAnswered frame close idle written =>
    rw [absorbMessage, if_neg (by simp [IsData, close, Opcode.close, Opcode.binary, Opcode.text, Opcode.continuation]),
      if_neg (by simp [close, Opcode.close, Opcode.ping]), if_pos close, if_pos idle, written]
  | closeHeld close busy =>
    rw [absorbMessage, if_neg (by simp [IsData, close, Opcode.close, Opcode.binary, Opcode.text, Opcode.continuation]),
      if_neg (by simp [close, Opcode.close, Opcode.ping]), if_pos close, if_neg busy]
  | ignored other => rw [absorbMessage, if_neg other.1, if_neg other.2.1, if_neg other.2.2]

theorem busy_ping_lost (ping : msg.opcode = Opcode.ping) (busy : ¬ Idle s) : absorbMessage s msg = none := by
  rw [absorbMessage, if_neg (by simp [IsData, ping, Opcode.ping, Opcode.binary, Opcode.text, Opcode.continuation]),
    if_pos ping, if_neg busy]

/-! One turn of the loop. -/

private theorem absorb_succ (fuel : Nat) : absorb (fuel + 1) s data =
    if data = [] ∨ s.closing ≠ .no then .kept s [] (.ok ())
    else if payloadCapacity s = 0 then .kept s [.abandoned data] (.error .again)
    else
      let result := wsParserFeed s.wsParser data (payloadCapacity s)
      let next := { s with wsParser := result.parser }
      match result.outcome with
      | .ok msg =>
        match absorbMessage next msg with
        | some (t, entries) => (absorb fuel t (data.drop result.used)).behind (.feed (data.take result.used) :: entries)
        | none => .lost
      | .error .again => (absorb fuel next (data.drop result.used)).behind [.feed (data.take result.used)]
      | .error error => .kept next [.feed (data.take result.used)] (.error error) := rfl

theorem absorb_settled (fuel : Nat) (settled : data = [] ∨ s.closing ≠ .no) :
    absorb (fuel + 1) s data = .kept s [] (.ok ()) := by
  rw [absorb_succ, if_pos settled]

section turn
variable {result : FeedResult} (fuel : Nat) (more : data ≠ []) (open_ : s.closing = .no)
include more open_

theorem absorb_full (full : payloadCapacity s = 0) :
    absorb (fuel + 1) s data = .kept s [.abandoned data] (.error .again) := by
  rw [absorb_succ, if_neg (by simp [more, open_]), if_pos full]

variable (room : payloadCapacity s ≠ 0) (fed : wsParserFeed s.wsParser data (payloadCapacity s) = result)
include room fed

theorem absorb_message (outcome : result.outcome = .ok msg)
    (absorbed : absorbMessage { s with wsParser := result.parser } msg = some (t, entries)) :
    absorb (fuel + 1) s data = (absorb fuel t (data.drop result.used)).behind
      (.feed (data.take result.used) :: entries) := by
  rw [absorb_succ, if_neg (by simp [more, open_]), if_neg room]
  simp only [fed, outcome, absorbed]

theorem absorb_lost (outcome : result.outcome = .ok msg)
    (lost : absorbMessage { s with wsParser := result.parser } msg = none) :
    absorb (fuel + 1) s data = .lost := by
  rw [absorb_succ, if_neg (by simp [more, open_]), if_neg room]
  simp only [fed, outcome, lost]

theorem absorb_again (outcome : result.outcome = .error .again) : absorb (fuel + 1) s data =
    (absorb fuel { s with wsParser := result.parser } (data.drop result.used)).behind
    [.feed (data.take result.used)] := by
  rw [absorb_succ, if_neg (by simp [more, open_]), if_neg room]
  simp only [fed, outcome]

theorem absorb_refused {error : Err} (outcome : result.outcome = .error error) (other : error ≠ .again) :
    absorb (fuel + 1) s data =
    .kept { s with wsParser := result.parser } [.feed (data.take result.used)] (.error error) := by
  rw [absorb_succ, if_neg (by simp [more, open_]), if_neg room]
  simp only [fed, outcome]

end turn

private theorem handleWsMessage_absorbs (sound : Sound site.world.config x.session)
    (done : x.session.handshakeDone = true) (open_ : x.session.closing = .no)
    (fitting : Fitting x.session msg) :
    Yields site (fun _ y => absorbMessage x.session msg = none ∧ y.log = x.log) (sessionHandleWsMessage site.id msg)
      (fun _ y => ∃ entries, absorbMessage x.session msg = some (y.session, entries) ∧ y.log = x.log ++ entries ∧
        y.calls = x.calls ∧ Sound site.world.config y.session ∧ y.session.handshakeDone = true) x := by
  refine handleWsMessage_yields sound.clientToTarget.valid sound.capacity fitting ?_ ?_
  · intro t extra effect
    obtain ⟨kept, still⟩ := sound_handled sound done open_ effect
    exact ⟨extra, handled_absorbs effect, rfl, rfl, kept, still⟩
  · intro ping busy
    exact ⟨sound.live, busy_ping_lost ping busy, rfl⟩

private theorem processDone_keeps {ended : Bool → Own → Prop} {alive : Except Err Unit → Own → Prop}
    (live : x.session.closing ≠ .released) (holds : alive (.ok ()) x) :
    Yields site ended (processDone site.id) alive x := by
  rw [processDone, yields_deref, if_neg live]
  exact yields_pure holds

private theorem processLoop_misses {fuel : Nat} (some_ : 0 < fuel) (data : Bytes) :
    Misses site.id (processLoop site.id fuel data) := by
  cases fuel with
  | zero => omega
  | succ fuel => exact .ite (.deref_bind _) (.deref_bind _)

/-- A parser that has made a call with room leaves the session sound. -/
theorem sound_parsed {result : FeedResult} (sound : Sound config s) (done : s.handshakeDone = true)
    (room : payloadCapacity s ≠ 0) (fed : wsParserFeed s.wsParser data (payloadCapacity s) = result)
    (outcome : result.outcome = .error .again ∨ ∃ msg, result.outcome = .ok msg) :
    Sound config { s with wsParser := result.parser } :=
  { sound with
    parser := fed_valid sound.parser room fed outcome
    early := fun unfinished => nomatch done.symm.trans unfinished }

/-- The session and the record behind a return, as `absorb` computes them. -/
structure Computes (site : Site) (x : Own) (outcome : Absorbed) (rc : Except Err Unit) (y : Own) : Prop where
  absorbs : ∃ entries, outcome = .kept y.session entries rc ∧ y.log = x.log ++ entries
  calls : y.calls = x.calls
  sound : rc = .ok () ∨ rc = .error .again → Sound site.world.config y.session
  done : y.session.handshakeDone = true
  live : y.session.closing ≠ .released

theorem Computes.behind {y : Own} {rc : Except Err Unit} {outcome : Absorbed} {first : Own}
    {entries : List Io} (computes : Computes site first outcome rc y)
    (logged : first.log = x.log ++ entries) (counted : first.calls = x.calls) :
    Computes site x (outcome.behind entries) rc y := by
  obtain ⟨later, rfl, log⟩ := computes.absorbs
  have same : y.log = x.log ++ (entries ++ later) := by rw [log, logged, List.append_assoc]
  exact ⟨⟨entries ++ later, rfl, same⟩, computes.calls.trans counted, computes.sound, computes.done, computes.live⟩

structure Loses (x : Own) (outcome : Absorbed) (y : Own) : Prop where
  lost : outcome = .lost
  log : ∃ more, y.log = x.log ++ more ∧ chunks .client more = []

theorem Loses.behind {y first : Own} {outcome : Absorbed} (loses : Loses first outcome y)
    (logged : first.log = x.log ++ entries) (silent : chunks .client entries = []) :
    Loses x (outcome.behind entries) y := by
  obtain ⟨rfl, more, log, none_⟩ := loses
  exact ⟨rfl, entries ++ more, by rw [log, logged, List.append_assoc], by rw [chunks_append, silent, none_]; rfl⟩

theorem absorbMessage_silent (absorbed : absorbMessage s msg = some (t, entries)) : chunks .client entries = [] := by
  unfold absorbMessage at absorbed
  repeat' split at absorbed
  all_goals cases absorbed
  all_goals rfl

private theorem processLoop_absorbs (fuel : Nat) (data : Bytes) (enough : data.length < fuel)
    (sound : Sound site.world.config x.session) (done : x.session.handshakeDone = true) :
    Yields site (fun stopped y => stopped = true ∧ Loses x (absorb fuel x.session data) y)
      (processLoop site.id fuel data)
        (Computes site x (absorb fuel x.session data)) x := by
  induction fuel generalizing data x with
  | zero => omega
  | succ fuel ih =>
    rw [processLoop]
    by_cases settled : data = [] ∨ x.session.closing ≠ .no
    · have nothing : Computes site x (absorb (fuel + 1) x.session data) (.ok ()) x := by
        rw [absorb_settled fuel settled]
        exact ⟨⟨[], rfl, (List.append_nil _).symm⟩, rfl, fun _ => sound, done, sound.live⟩
      split
      · exact processDone_keeps sound.live nothing
      next more =>
        rw [yields_deref, if_pos (settled.resolve_left more)]
        exact processDone_keeps sound.live nothing
    · obtain ⟨more, open_⟩ : data ≠ [] ∧ x.session.closing = .no := by simpa using settled
      have some_ : 0 < data.length := List.length_pos_iff.mpr more
      rw [if_neg more, yields_deref, if_neg (by simp [open_])]
      by_cases full : payloadCapacity x.session = 0
      · rw [if_pos full, yields_record, absorb_full fuel more open_ full]
        exact yields_pure ⟨⟨_, rfl, rfl⟩, rfl, fun _ => sound, done, sound.live⟩
      · obtain ⟨result, fed⟩ : ∃ result, wsParserFeed x.session.wsParser data (payloadCapacity x.session) = result :=
          ⟨_, rfl⟩
        rw [if_neg full, yields_update, yields_record]
        simp only [fed]
        cases outcome : result.outcome with
        | ok msg =>
          obtain ⟨progress, within, fitting⟩ := delivered_fits sound full fed outcome
          have parsed := sound_parsed sound done full fed (.inr ⟨msg, outcome⟩)
          let fed' : Own := { x with
            session := { x.session with wsParser := result.parser }
            log := x.log ++ [.feed (data.take result.used)] }
          have handled : Yields site _ _ _ fed' := handleWsMessage_absorbs parsed done open_ fitting
          refine yields_bind_misses handled ?_ (fun _ => processLoop_misses (by omega) _) ?_
          · intro _ y handled
            obtain ⟨entries, absorbed, logged, counted, sound, done⟩ := handled
            rw [absorb_message fuel more open_ full fed outcome absorbed]
            have silent : chunks .client entries = [] := absorbMessage_silent absorbed
            have before : y.log = x.log ++ .feed (data.take result.used) :: entries := by
              rw [logged, List.append_assoc]; rfl
            refine (ih (data.drop result.used) (by rw [List.length_drop]; omega) sound done).weaken ?_ ?_
            · intro rc z computes
              exact computes.behind before counted
            · intro stopped z loses
              exact ⟨loses.1, loses.2.behind before silent⟩
          · intro y gone
            obtain ⟨lost, same⟩ := gone
            exact ⟨rfl, absorb_lost fuel more open_ full fed outcome lost, [.feed (data.take result.used)], same, rfl⟩
        | error error =>
          by_cases again : error = .again
          · subst again
            have all := exhausted_uses sound full fed outcome
            have parsed := sound_parsed sound done full fed (.inl outcome)
            rw [absorb_again fuel more open_ full fed outcome]
            simp only
            rw [if_neg (by omega)]
            refine (ih (x := { x with
              session := { x.session with wsParser := result.parser }
              log := x.log ++ [.feed (data.take result.used)] })
                (data.drop result.used) (by rw [List.length_drop]; omega) parsed done).weaken ?_ ?_
            · intro rc z computes
              exact computes.behind rfl rfl
            · intro stopped z loses
              exact ⟨loses.1, loses.2.behind rfl rfl⟩
          · rw [absorb_refused fuel more open_ full fed outcome again]
            have ends : Yields site (fun stopped y =>
                stopped = true ∧ Loses x (.kept { x.session with wsParser := result.parser }
                [.feed (data.take result.used)] (.error error)) y)
                  (pure (.error error)) (Computes site x (.kept { x.session with wsParser := result.parser }
                [.feed (data.take result.used)] (.error error))) { x with
                  session := { x.session with wsParser := result.parser }, log :=
                      x.log ++ [.feed (data.take result.used)] } := by
              refine yields_pure ⟨⟨_, rfl, rfl⟩, rfl, ?_, done, sound.live⟩
              rintro (fine | fine)
              · cases fine
              · exact absurd (Except.error.inj fine) again
            cases error with
            | again => exact absurd rfl again
            | _ => exact ends

theorem sessionProcessWsBytes_absorbs (data : Bytes) (sound : Sound site.world.config x.session)
    (done : x.session.handshakeDone = true) :
    Yields site (fun stopped y => stopped = true ∧ Loses x (absorb (data.length + 1) x.session data) y)
      (sessionProcessWsBytes site.id data)
        (Computes site x (absorb (data.length + 1) x.session data)) x :=
  processLoop_absorbs _ data (Nat.lt_succ_self _) sound done

/-- The bytes behind an accepted request. -/
theorem handshakeRest_absorbs {consumed : Nat} {rest : Bytes}
    (behind : x.session.handshake.drop consumed = rest) (sound : Sound site.world.config x.session)
    (done : x.session.handshakeDone = true) :
    Yields site (fun stopped _ => absorb (rest.length + 1) x.session rest = .lost ∧ stopped = true ∨
        ∃ t entries error, absorb (rest.length + 1) x.session rest = .kept t entries (.error error) ∧ error ≠ .again)
      (handshakeRest site.id consumed)
        (fun _ y => ∃ t entries rc, absorb (rest.length + 1) x.session rest = .kept t entries rc ∧
          (rc = .ok () ∨ rc = .error .again) ∧
          y.session = { t with handshake := [] } ∧
          y.log = x.log ++ entries ∧ y.calls = x.calls ∧ Sound site.world.config t ∧ t.handshakeDone = true) x := by
  rw [handshakeRest, yields_deref, behind]
  split
  next more =>
    refine yields_bind_stops (sessionProcessWsBytes_absorbs rest sound done) ?_ ?_ ?_
    · intro rc y computes
      obtain ⟨entries, absorbed, logged⟩ := computes.absorbs
      split
      next failed =>
        refine yields_close computes.live (.inr ?_)
        cases rc with
        | ok => exact absurd rfl failed.1
        | error error => exact ⟨_, entries, error, absorbed, fun again => failed.2 (by rw [again])⟩
      next fine =>
        have fine : rc = .ok () ∨ rc = .error .again := by tauto
        exact yields_update_last
          ⟨_, entries, rc, absorbed, fine, rfl, logged, computes.calls, computes.sound fine, computes.done⟩
    · intro y impossible
      cases impossible.1
    · exact fun y loses => .inl ⟨loses.2.lost, rfl⟩
  next all =>
    have empty : rest = [] := by
      rw [← behind]
      exact List.drop_eq_nil_of_le (by omega)
    rw [empty]
    exact yields_update_last
      ⟨_, [], .ok (), absorb_settled 0 (.inl rfl), .inl rfl, rfl, (List.append_nil _).symm, rfl, sound, done⟩

end Sockify.Proofs.Absorption
