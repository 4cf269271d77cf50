import Sockify.Proofs.SessionSteps
import Sockify.Proofs.Soundness

/-! The code that serves a client event takes only the actions of `ActsClient`:
while the session lives its state lies on a path of actions from where the
event found it, and a release comes at the end of such a path. -/

namespace Sockify.Proofs.Simulation
open Sockify Stateful Behaviour SessionLogic SessionSteps Soundness

/-- A family of actions that keeps sessions sound, and the moment at which a
handler starts to take them. -/
structure Scene (site : Site) where
  acts : Moment → Moment → Prop
  start : Moment
  sound : Sound site.world.config start.session
  keeps : ∀ m n, Sound site.world.config m.session → acts m n → Sound site.world.config n.session

namespace Scene
variable {site : Site} (scene : Scene site)

/-- A path of actions leads to this own part, with these client bytes in hand. -/
def At (hand : Bytes) (x : Own) : Prop := Path scene.acts scene.start ⟨x.session, x.log, hand⟩

def Left (ends : Moment → Moment → Prop) (x : Own) : Prop :=
  ∃ m hand, Path scene.acts scene.start m ∧ ends m ⟨x.session, x.log, hand⟩

variable {scene} {hand : Bytes} {x y : Own}

theorem At.sound (here : scene.At hand x) : Sound site.world.config x.session :=
  path_keeps (fun m => Sound site.world.config m.session) scene.keeps scene.sound here

theorem At.step {h : Bytes} (here : scene.At hand x)
    (act : scene.acts ⟨x.session, x.log, hand⟩ ⟨y.session, y.log, h⟩) : scene.At h y := here.tail act

theorem At.left {ends : Moment → Moment → Prop} {h : Bytes} (here : scene.At hand x)
    (ending : ends ⟨x.session, x.log, hand⟩ ⟨y.session, y.log, h⟩) : scene.Left ends y := ⟨_, h, here, ending⟩

end Scene

variable {site : Site} {scene : Scene site} {env : Env} {x : Own} {early prior : Prop}

/-- How `session_process_ws_bytes` returns: with everything in hand dealt with,
or with an error on which the caller gives up. -/
def Processed (scene : Scene site) (prior : Prop) (rc : Except Err Unit) (y : Own) : Prop :=
  if rc = .ok () ∨ rc = .error .again then scene.At [] y ∧ y.session.handshakeDone = true
  else scene.Left (EndsClient prior) y ∧ y.session.closing = .no

private theorem processDone_yields {ended : Bool → Own → Prop} (here : scene.At [] x)
    (done : x.session.handshakeDone = true) :
    Yields site ended (processDone site.id) (Processed scene prior) x := by
  rw [processDone, yields_deref, if_neg here.sound.live]
  refine yields_pure ?_
  rw [Processed, if_pos (.inl rfl)]
  exact ⟨here, done⟩

/-- A call of the parser that delivers a message, as the message's handler sees it. -/
theorem delivered_fits {config : Config} {s : Session} {data : Bytes} {result : FeedResult}
    {msg : WsMessage} (sound : Sound config s) (room : payloadCapacity s ≠ 0)
    (fed : wsParserFeed s.wsParser data (payloadCapacity s) = result)
    (outcome : result.outcome = .ok msg) :
    0 < result.used ∧ result.used ≤ data.length ∧ Fitting { s with wsParser := result.parser } msg := by
  have spec := ParserCursor.wsParserFeed_fed (Nat.pos_of_ne_zero room) data sound.parser
  rw [fed, ParserCursor.Fed, outcome] at spec
  obtain ⟨used, total, delivered⟩ := spec
  have capacity : payloadCapacity s ≤ bufferWritable s.clientToTarget := by
    rw [payloadCapacity, minSize_eq]
    omega
  have progress := delivered.progress
  exact ⟨by omega, by omega, ⟨delivered.payload.1.trans capacity, delivered.control⟩⟩

theorem exhausted_uses {config : Config} {s : Session} {data : Bytes} {result : FeedResult} (sound : Sound config s)
    (room : payloadCapacity s ≠ 0) (fed : wsParserFeed s.wsParser data (payloadCapacity s) = result)
    (outcome : result.outcome = .error .again) : result.used = data.length := by
  have spec := ParserCursor.wsParserFeed_fed (Nat.pos_of_ne_zero room) data sound.parser
  rw [fed, ParserCursor.Fed, outcome] at spec
  simpa using spec.1

private theorem processLoop_inert {fuel : Nat} (some_ : 0 < fuel) (data : Bytes) :
    Inert site.id (processLoop site.id fuel data) := by
  cases fuel with
  | zero => omega
  | succ fuel => exact .ite (.deref_bind _) (.deref_bind _)

private theorem processLoop_yields (reads : ∀ m n, ReadsClient early m n → scene.acts m n) (fuel : Nat) (data : Bytes)
    (enough : data.length < fuel) (here : scene.At data x) (done : x.session.handshakeDone = true) :
    Yields site (fun _ => scene.Left (EndsClient prior)) (processLoop site.id fuel data) (Processed scene prior) x := by
  induction fuel generalizing data x with
  | zero => omega
  | succ fuel ih =>
    rw [processLoop]
    split
    next empty => exact processDone_yields (empty ▸ here) done
    next more =>
      rw [yields_deref]
      split
      next closing =>
        have started : x.session.closing = .started := by
          cases state : x.session.closing with
          | no => exact absurd state closing
          | started => rfl
          | released => exact absurd state here.sound.live
        exact processDone_yields (here.step (reads _ _ (.discarded started))) done
      next open_ =>
        have still : x.session.closing = .no := not_not.mp open_
        split
        next full =>
          rw [yields_record]
          refine yields_pure ?_
          rw [Processed, if_pos (.inr rfl)]
          exact ⟨here.step (reads _ _ (.abandoned more still full)), done⟩
        next room =>
          obtain ⟨result, fed⟩ : ∃ result, wsParserFeed x.session.wsParser data (payloadCapacity x.session) = result :=
            ⟨_, rfl⟩
          rw [yields_update, yields_record]
          simp only [fed]
          split
          next msg outcome =>
            obtain ⟨progress, within, fitting⟩ := delivered_fits here.sound room fed outcome
            refine yields_bind (m := fun _ y => scene.At (data.drop result.used) y ∧ y.session.handshakeDone = true) ?_
              (fun _ y holds => ih _ (by rw [List.length_drop]; omega) holds.1 holds.2)
              fun _ => processLoop_inert (by have := List.length_pos_iff.mpr more; omega) _
            refine handleWsMessage_yields here.sound.clientToTarget.valid here.sound.capacity fitting ?_ ?_
            · intro t extra effect
              refine ⟨here.step (reads _ _ ?_), ?_⟩
              · rw [List.append_assoc]
                exact .handled result msg done still room fed outcome effect
              · cases effect <;> exact done
            · intro ping busy
              exact ⟨here.sound.live, here.left (h := []) (.unparsed (data.take result.used) still still)⟩
          next outcome =>
            have all := exhausted_uses here.sound room fed outcome
            have some_ : 0 < data.length := List.length_pos_iff.mpr more
            rw [if_neg (by omega)]
            exact ih _ (by rw [List.length_drop]; omega)
              (here.step (reads _ _ (.parsed result done still room fed outcome))) done
          next error other outcome =>
            refine yields_pure ?_
            rw [Processed, if_neg (by simpa using other)]
            exact ⟨here.left (h := []) (.unparsed _ still still), still⟩

private theorem sessionProcessWsBytes_yields (reads : ∀ m n, ReadsClient early m n → scene.acts m n)
    {data : Bytes} (here : scene.At data x) (done : x.session.handshakeDone = true) :
    Yields site (fun _ => scene.Left (EndsClient prior))
      (sessionProcessWsBytes site.id data) (Processed scene prior) x :=
  processLoop_yields reads _ data (Nat.lt_succ_self _) here done

private theorem granted_short {request response : Bytes} {consumed : Nat}
    (granted : wsBuildHandshakeResponse request 256 = .ok (response, consumed)) : response.length < 256 := by
  simp only [wsBuildHandshakeResponse] at granted
  repeat' split at granted
  all_goals cases granted
  omega

/-- What becomes of the upgrade request: it is refused, or left to grow, or its
target cannot be started, or the bytes behind it are left to be parsed. -/
theorem handshakeBytes_cases {ended : Bool → Own → Prop} {alive : Unit → Own → Prop} {data : Bytes}
    (sound : Sound site.world.config x.session) (unfinished : x.session.handshakeDone = false)
    (oversized : wsMaxHttpRequest - x.session.handshake.length < data.length → ended false x)
    (waits : data.length ≤ wsMaxHttpRequest - x.session.handshake.length →
      wsBuildHandshakeResponse (x.session.handshake ++ data) 256 = .error .again →
      alive () { x with session := { x.session with handshake := x.session.handshake ++ data } })
    (refused : ∀ error, data.length ≤ wsMaxHttpRequest - x.session.handshake.length →
      error ≠ .again → wsBuildHandshakeResponse (x.session.handshake ++ data) 256 = .error error →
      ended false { x with session := { x.session with handshake := x.session.handshake ++ data } })
    (unstarted : ∀ response consumed session calls, data.length ≤ wsMaxHttpRequest - x.session.handshake.length →
      wsBuildHandshakeResponse (x.session.handshake ++ data) 256 = .ok (response, consumed) → session.closing =
      .no → (∀ reply, env.connect x.calls = .ok reply → ∃ error, env.loopAdd (x.calls + 1) .target = .error error) →
      ended false ⟨session, x.log ++ [.response response, .connect (env.connect x.calls)], x.interest, calls⟩)
    (accepted : ∀ response consumed fd inProgress, data.length ≤ wsMaxHttpRequest - x.session.handshake.length →
      wsBuildHandshakeResponse (x.session.handshake ++ data) 256 = .ok (response, consumed) →
      env.connect x.calls = .ok (fd, inProgress) → env.loopAdd (x.calls + 1) .target = .ok () → Yields site ended
      (handshakeRest site.id consumed) alive ⟨upgraded { x.session with handshake := x.session.handshake ++ data }
      response fd inProgress (env.time (x.calls + 1)), x.log ++ [.response response,
      .connect (.ok (fd, inProgress))], Function.update x.interest .target (some .writing), x.calls + 2⟩) :
    Yields site ended (sessionHandleHandshakeBytes env site.id data) alive x := by
  obtain ⟨still, -, ⟨length, position⟩, -, -, inactive, unregistered, -⟩ := sound.early unfinished
  have capacity := sound.capacity
  rw [sessionHandleHandshakeBytes, yields_deref]
  split
  next excess => exact yields_close sound.live (oversized excess)
  next within =>
    have fits := not_lt.mp within
    rw [yields_update, yields_deref]
    split
    next again => exact yields_pure (waits fits again)
    next error other failed => exact yields_close sound.live (refused error fits (by simpa using other) failed)
    next response consumed granted =>
      have short := granted_short granted
      have live : x.session.closing ≠ .released := sound.live
      have failed := unstarted response consumed
      rw [yields_setClientOut_idle _ (by exact length.trans position.symm) (by simp only [capacity, ioChunk]; omega),
        if_neg (by simp), handshakeAccepted,
          yields_update, yields_startTarget _ (by exact inactive) (by exact unregistered)]
      cases connect : env.connect x.calls with
      | error error =>
        rw [connect] at failed
        simp only
        rw [if_pos (by simp), List.append_assoc]
        exact yields_close live (failed _ _ fits granted (by exact still) fun _ impossible => by cases impossible)
      | ok reply =>
        obtain ⟨fd, inProgress⟩ := reply
        rw [connect] at failed
        cases added : env.loopAdd (x.calls + 1) .target with
        | error error =>
          simp only
          rw [if_pos (by simp), List.append_assoc]
          exact yields_close live (failed _ _ fits granted (by exact still) fun _ _ => ⟨error, added⟩)
        | ok =>
          simp only
          rw [if_neg (by simp), List.append_assoc]
          exact accepted response consumed fd inProgress fits granted connect added

theorem handshakeRest_yields (reads : ∀ m n, ReadsClient early m n → scene.acts m n) {consumed : Nat}
    (here : scene.At (x.session.handshake.drop consumed) x) (done : x.session.handshakeDone = true) :
    Yields site (fun _ => scene.Left (EndsClient prior)) (handshakeRest site.id consumed)
      (fun _ y => scene.At [] y ∧ y.session.handshakeDone = true) x := by
  rw [handshakeRest, yields_deref]
  split
  next more =>
    refine yields_bind (sessionProcessWsBytes_yields reads here done) (fun rc y processed => ?_)
      fun rc => .ite (.deref_bind _) (.update _)
    unfold Processed at processed
    split at processed
    next fine =>
      rw [if_neg (by tauto)]
      exact yields_update_last ⟨processed.1.step (reads _ _ (.cleared processed.2)), processed.2⟩
    next failed =>
      rw [if_pos (by tauto)]
      exact yields_close (by simp [processed.2]) processed.1
  next all =>
    have empty : x.session.handshake.drop consumed = [] := List.drop_eq_nil_of_le (by omega)
    rw [empty] at here
    exact yields_update_last ⟨here.step (reads _ _ (.cleared done)), done⟩

/-- The upgrade request: gathered, and answered once it is whole. -/
theorem handshakeBytes_yields (reads : ∀ m n, ReadsClient early m n → scene.acts m n)
    (immediate : Immediate env → early) {data : Bytes} (here : scene.At data x)
    (unfinished : x.session.handshakeDone = false) (ready : x.session.clientTlsReady = true) :
    Yields site (fun _ => scene.Left (EndsClient prior)) (sessionHandleHandshakeBytes env site.id data)
      (fun _ y => scene.At [] y) x := by
  have still := (here.sound.early unfinished).1
  have gathered : data.length ≤ wsMaxHttpRequest - x.session.handshake.length →
      scene.At [] { x with session := { x.session with handshake := x.session.handshake ++ data } } :=
    fun fits => here.step (reads _ _ (.gathered unfinished still fits))
  apply handshakeBytes_cases here.sound unfinished
  · exact fun _ => here.left (.here still)
  · exact fun fits _ => gathered fits
  · exact fun _ fits _ _ => (gathered fits).left (.here still)
  · intro response _ _ _ fits _ closed _
    exact (gathered fits).left (h := []) (.unstarted response _ still closed)
  · intro response consumed fd inProgress fits granted connect _
    have prompt : inProgress = false → early := fun now => immediate ⟨_, fd, by rw [connect, now]⟩
    apply Yields.weaken (handshakeRest_yields reads ((gathered fits).step (reads _ _ ?_)) rfl)
      (fun _ _ holds => holds.1) fun _ _ left => left
    exact .accepted response consumed fd inProgress (env.time (x.calls + 1)) unfinished still ready granted prompt

theorem readClientBytes_yields (reads : ∀ m n, ReadsClient early m n → scene.acts m n)
    (immediate : Immediate env → early) {bytes : Bytes} (here : scene.At bytes x)
    (ready : x.session.clientTlsReady = true) :
    Yields site (fun _ => scene.Left (EndsClient prior)) (readClientBytes env site.id bytes)
      (fun more y => scene.At [] y ∧ (more = true → y.session.handshakeDone = true)) x := by
  rw [readClientBytes, yields_deref]
  split
  next unfinished =>
    refine yields_bind (handshakeBytes_yields reads immediate here (by simpa using unfinished) ready)
      (fun _ y there => ?_) fun _ => .deref_bind _
    rw [yields_deref]
    split
    · exact yields_pure ⟨there, by simp⟩
    next done => exact yields_pure ⟨there, fun _ => by grind⟩
  next done =>
    refine yields_bind (sessionProcessWsBytes_yields reads here (by simpa using done)) (fun rc y processed => ?_)
      fun rc => .ite (.bind .sessionClose fun _ => .pure _) (.deref_bind _)
    unfold Processed at processed
    split at processed
    next fine =>
      rw [if_neg (by tauto), yields_deref]
      exact yields_pure ⟨processed.1, fun _ => processed.2⟩
    next failed =>
      rw [if_pos (by tauto)]
      exact yields_bind (m := fun _ _ => False) (yields_close (by simp [processed.2]) processed.1)
        (fun _ _ impossible => impossible.elim) fun _ => .pure _

theorem readClientLoop_inert (budget : Nat) : Inert site.id (readClientLoop env site.id budget) := by
  cases budget with
  | zero => exact .deref_bind _
  | succ budget => exact .deref_bind _

/-- One turn of the loop of `session_read_client`. -/
theorem readClientLoop_turn {ended : Bool → Own → Prop} {alive : Unit → Own → Prop} {budget : Nat}
    (shut : x.session.closing ≠ .no → alive () x)
    (full : x.session.closing = .no → x.session.handshakeDone = true ∧ readLimit x.session = 0 → alive () x)
    (again : x.session.closing = .no → ¬ (x.session.handshakeDone = true ∧ readLimit x.session = 0) →
      transportRead env x.calls x.session.clientTransport (readLimit x.session) = .error .again →
      alive () { x with log := x.log ++
      [.read .client x.session.clientTransport (readLimit x.session) (.error .again)], calls := x.calls + 1 })
    (failed : ∀ error, x.session.closing = .no →
    ¬ (x.session.handshakeDone = true ∧ readLimit x.session = 0) → error ≠ .again →
      transportRead env x.calls x.session.clientTransport (readLimit x.session) = .error error →
      ended false { x with log := x.log ++
      [.read .client x.session.clientTransport (readLimit x.session) (.error error)], calls := x.calls + 1 })
    (received : ∀ bytes, x.session.closing = .no → ¬ (x.session.handshakeDone = true ∧ readLimit x.session = 0) →
      transportRead env x.calls x.session.clientTransport (readLimit x.session) = .ok bytes →
      Yields site ended (readClientBytes env site.id bytes >>= fun more =>
      onlyIf (more = true) (readClientLoop env site.id budget)) alive { x with
        session := { x.session with lastActivityAt := env.time (x.calls + 1) }
        log := x.log ++ [.read .client x.session.clientTransport (readLimit x.session) (.ok bytes)]
        calls := x.calls + 1 }) :
    Yields site ended (readClientLoop env site.id (budget + 1)) alive x := by
  rw [readClientLoop, yields_deref]
  split
  next closing => exact yields_pure (shut closing)
  next still =>
    have open_ : x.session.closing = .no := not_not.mp still
    split
    next nothing => exact yields_pure (full open_ nothing)
    next room =>
      rw [yields_readSide]
      simp only [Session.transport]
      split
      next reply =>
        rw [reply]
        exact yields_pure (again open_ room reply)
      next error other reply =>
        rw [reply]
        exact yields_close (by simp [open_]) (failed error open_ room (by simpa using other) reply)
      next bytes reply =>
        rw [reply, yields_touch]
        exact received bytes open_ room reply

theorem readClientLoop_yields (reads : ∀ m n, ReadsClient early m n → scene.acts m n)
    (immediate : Immediate env → early) (budget : Nat) (here : scene.At [] x)
    (ready : x.session.clientTlsReady = true) :
    Yields site (fun _ => scene.Left (EndsClient prior))
      (readClientLoop env site.id budget) (fun _ y => scene.At [] y) x := by
  induction budget generalizing x with
  | zero =>
    rw [readClientLoop, yields_deref]
    exact yields_pure here
  | succ budget ih =>
    apply readClientLoop_turn
    · exact fun _ => here
    · exact fun _ _ => here
    · exact fun _ _ _ => here.step (reads _ _ (.refused _ _))
    · exact fun error still _ _ _ => (here.step (h := []) (reads _ _ (.refused _ _))).left (.here still)
    · intro bytes still _ reply
      obtain ⟨nonempty, fits⟩ := transportRead_fits reply
      have received : scene.At bytes { x with
          log := x.log ++ [.read .client x.session.clientTransport (readLimit x.session) (.ok bytes)]
          calls := x.calls + 1 } :=
        here.step (reads _ _ (.received bytes ready still nonempty fits))
      refine yields_bind (readClientBytes_yields reads immediate (received.step (reads _ _ (.touched _))) ready) ?_ ?_
      · rintro more y ⟨there, later⟩
        exact yields_onlyIf (fun again => ih there (there.sound.late (later again)).2.2) fun _ => there
      · exact fun _ => .onlyIf (readClientLoop_inert _)

private theorem sessionReadClient_yields (scene : Scene site)
    (reads : ∀ m n, ReadsClient early m n → scene.acts m n) (immediate : Immediate env → early)
    (here : scene.At [] x) (ready : x.session.clientTlsReady = true) :
    Yields site (fun _ => scene.Left (EndsClient prior))
      (sessionReadClient env site.id) (fun _ y => scene.At [] y) x := by
  rw [sessionReadClient, yields_config]
  exact readClientLoop_yields reads immediate _ here ready

/-- A close of which nothing is left but to send the answer was begun before the event. -/
def Answered (prior : Prop) (s : Session) : Prop := s.closing = .started → s.pendingClose = false → prior

/-- There is nothing to write from an idle slot. -/
theorem writeClientLoop_idle {ended : Bool → Own → Prop} {alive : Unit → Own → Prop} (budget : Nat)
    (next : Bool → Proc Unit) (idle : Idle x.session) :
    Yields site ended (writeClientLoop env site.id budget >>= next) alive x ↔
    Yields site ended (next true) alive x := by
  have sent : ¬ x.session.clientOutPos < x.session.clientOutLen := fun busy => absurd idle (Nat.ne_of_gt busy)
  cases budget with
  | zero => rw [writeClientLoop, yields_bind_assoc, yields_deref, yields_pure_bind]
  | succ budget => rw [writeClientLoop, yields_bind_assoc, yields_deref, if_neg sent, yields_pure_bind]

/-- One turn of the loop of `session_write_client`. -/
theorem writeClientLoop_turn {left : Own → Prop} {alive : Bool → Own → Prop} {budget : Nat}
    (sound : Sound site.world.config x.session)
    (idle : ¬ x.session.clientOutPos < x.session.clientOutLen → alive true x)
    (again : x.session.clientOutPos < x.session.clientOutLen →
      transportWrite env x.calls x.session.clientTransport x.session.unsent = .error .again →
      alive false { x with
        log := x.log ++ [.write .client x.session.clientTransport x.session.unsent (.error .again)]
        calls := x.calls + 1 })
    (failed : ∀ error, x.session.clientOutPos < x.session.clientOutLen → error ≠ .again →
      transportWrite env x.calls x.session.clientTransport x.session.unsent = .error error →
      left { x with
        log := x.log ++ [.write .client x.session.clientTransport x.session.unsent (.error error)]
        calls := x.calls + 1 })
    (taken : ∀ sent, x.session.clientOutPos < x.session.clientOutLen →
      transportWrite env x.calls x.session.clientTransport x.session.unsent = .ok sent →
      Yields site (fun _ => left) (writeClientLoop env site.id budget) alive { x with
        session := { x.session with
          clientOutPos := x.session.clientOutPos + sent
          lastActivityAt := env.time (x.calls + 1) }
        log := x.log ++ [.write .client x.session.clientTransport x.session.unsent (.ok sent)]
        calls := x.calls + 1 }) :
    Yields site (fun _ => left) (writeClientLoop env site.id (budget + 1)) alive x := by
  rw [writeClientLoop, yields_deref]
  split
  next busy =>
    rw [yields_writeSide]
    simp only [Session.transport]
    split
    next reply =>
      rw [reply]
      exact yields_pure (again busy reply)
    next error other reply =>
      rw [reply]
      exact yields_bind (m := fun _ _ => False)
        (yields_close sound.live (failed error busy (by simpa using other) reply))
        (fun _ _ impossible => impossible.elim) fun _ => .pure _
    next sent reply =>
      obtain ⟨-, progress⟩ := transportWrite_fits reply
      have some_ : x.session.unsent ≠ [] := by
        rw [← List.length_pos_iff, sound.unsent_length]
        omega
      rw [reply, yields_update, onlyIf, if_pos (progress some_), yields_touch]
      exact taken sent busy reply
  next sent => exact yields_pure (idle sent)

/-- What the write loop leaves: it has returned with output pending, or goes on. -/
theorem writeClientLoop_yields (writes : ∀ m n, WritesClient m n → scene.acts m n) (budget : Nat) (here : scene.At [] x)
    (answered : Answered prior x.session) :
    Yields site (fun _ => scene.Left (EndsClient prior)) (writeClientLoop env site.id budget)
      (fun finished y => scene.At [] y ∧ Answered prior y.session ∧
        (finished = false → y.session.clientOutPos < y.session.clientOutLen)) x := by
  induction budget generalizing x with
  | zero =>
    rw [writeClientLoop, yields_deref]
    exact yields_pure ⟨here, answered, by simp⟩
  | succ budget ih =>
    apply writeClientLoop_turn here.sound
    · exact fun _ => ⟨here, answered, by simp⟩
    · exact fun busy _ => ⟨here.step (writes _ _ (.refused _ busy)), answered, fun _ => busy⟩
    · exact fun error busy _ _ => (here.step (h := []) (writes _ _ (.refused _ busy))).left (.interrupted fun _ => busy)
    · intro sent busy reply
      obtain ⟨fits, -⟩ := transportWrite_fits reply
      have sent := here.step (y := { x with
          session := { x.session with clientOutPos := x.session.clientOutPos + sent }
          log := x.log ++ [.write .client x.session.clientTransport x.session.unsent (.ok sent)]
          calls := x.calls + 1 }) (writes _ _ (.sent sent busy fits))
      exact ih (sent.step (writes _ _ (.touched _))) answered

/-- A session that is closing still has output to send. -/
def Settled (s : Session) : Prop := s.closing = .started → s.clientOutPos < s.clientOutLen

theorem frame_nonempty {opcode : Nat} {payload frame : Bytes} {size : Nat}
    (written : wsWriteFrame opcode payload size = .ok frame) :
    0 < frame.length := by
  simp only [wsWriteFrame] at written
  repeat' split at written
  all_goals cases written
  all_goals simp

/-- What becomes of an empty slot: it takes a held back answer, or the session
is released at the end of its close, or the slot takes target data. -/
theorem refillClientOut_cases {ended : Bool → Own → Prop} {alive : Unit → Own → Prop}
    (sound : Sound site.world.config x.session)
    (busy : x.session.clientOutPos < x.session.clientOutLen → alive () x)
    (answered : ∀ frame, ¬ x.session.clientOutPos < x.session.clientOutLen → x.session.pendingClose = true →
      wsWriteFrame Opcode.close x.session.pendingClosePayload x.session.clientOutCapacity = .ok frame →
      alive () { x with
        session := { fill x.session frame with pendingClose := false }
        log := x.log ++ [.frame Opcode.close x.session.pendingClosePayload] })
    (drained : ¬ x.session.clientOutPos < x.session.clientOutLen →
      x.session.pendingClose = false → x.session.closing = .started →
      ended false { x with session := { x.session with clientOutLen := 0, clientOutPos := 0 } })
    (framed : ∀ frame, ¬ x.session.clientOutPos < x.session.clientOutLen →
      x.session.pendingClose = false → x.session.closing = .no →
      x.session.handshakeDone = true → bufferReadable x.session.targetToClient ≠ 0 →
      wsWriteFrame Opcode.binary
        (bufferRead x.session.targetToClient (minSize ioChunk (bufferReadable x.session.targetToClient))).1
        x.session.clientOutCapacity = .ok frame →
      alive () { x with
        session := { fill x.session frame with
          targetToClient :=
            (bufferRead x.session.targetToClient (minSize ioChunk (bufferReadable x.session.targetToClient))).2 }
        log := x.log ++ [.frame Opcode.binary
          (bufferRead x.session.targetToClient (minSize ioChunk (bufferReadable x.session.targetToClient))).1] })
    (nothing : ¬ x.session.clientOutPos < x.session.clientOutLen →
      x.session.pendingClose = false → x.session.closing = .no →
      alive () { x with session := { x.session with clientOutLen := 0, clientOutPos := 0 } }) :
    Yields site ended (refillClientOut site.id) alive x := by
  have capacity := sound.capacity
  have live : x.session.closing ≠ .released := sound.live
  rw [refillClientOut, yields_deref]
  split
  next waits => exact yields_pure (busy waits)
  next sent =>
    rw [yields_update, yields_deref]
    split
    next pending =>
      obtain ⟨frame, written⟩ := control_fits Opcode.close rfl capacity sound.payload
      rw [yields_makeWsFrame_idle frame _ (by exact rfl) (by exact written)]
      apply yields_onlyIf
      · exact fun _ => yields_update_last (answered frame sent pending written)
      · exact fun failed => absurd rfl failed
    next settled =>
      have done : x.session.pendingClose = false := by simpa using settled
      split
      next closing =>
        have started : x.session.closing = .started := by
          cases state : x.session.closing with
          | no => exact absurd state closing
          | started => rfl
          | released => exact absurd state live
        exact yields_close live (drained sent done started)
      next open_ =>
        have still : x.session.closing = .no := not_not.mp open_
        split
        next ready =>
          rw [yields_update]
          have whole := BufferQueue.bufferRead_spec sound.targetToClient.valid
            (minSize ioChunk (bufferReadable x.session.targetToClient))
          have short : (bufferRead x.session.targetToClient
              (minSize ioChunk (bufferReadable x.session.targetToClient))).1.length ≤ ioChunk := by
            rw [whole.1, List.length_take, minSize_eq]
            omega
          obtain ⟨frame, written⟩ := wsWriteFrame_fits Opcode.binary
            (bufferRead x.session.targetToClient (minSize ioChunk (bufferReadable x.session.targetToClient))).1
              x.session.clientOutCapacity
            rfl (by simp [isControlOpcode, Opcode.binary])
              (by rw [capacity]; omega) (by have chunk : ioChunk = 4096 := rfl; rw [sizeModulus]; omega)
          rw [yields_makeWsFrame_idle frame _ (by exact rfl) (by exact written)]
          apply yields_onlyIf
          · exact fun failed => absurd rfl failed
          · exact fun _ => framed frame sent done still ready.1 ready.2 written
        next => exact yields_pure (nothing sent done still)

private theorem refillClientOut_yields (writes : ∀ m n, WritesClient m n → scene.acts m n)
    (here : scene.At [] x) (answered : Answered prior x.session) :
    Yields site (fun _ => scene.Left (EndsClient prior))
      (refillClientOut site.id) (fun _ y => scene.At [] y ∧ Settled y.session) x := by
  have emptied : ¬ x.session.clientOutPos < x.session.clientOutLen →
      scene.At [] { x with session := { x.session with clientOutLen := 0, clientOutPos := 0 } } :=
    fun sent => here.step (writes _ _ (.emptied sent))
  have opened : ∀ {t : Session}, x.session.closing = .no → t.closing = x.session.closing → Settled t := by
    intro t open_ same closing
    rw [closing, open_] at same
    cases same
  apply refillClientOut_cases here.sound
  · exact fun busy => ⟨here, fun _ => busy⟩
  · intro frame sent pending written
    exact ⟨(emptied sent).step (writes _ _ (.closeAnswered frame pending rfl written)), fun _ => frame_nonempty written⟩
  · intro sent done started
    exact here.left (h := []) (.drained started done sent (answered started done))
  · intro frame sent done open_ upgraded some_ written
    exact ⟨(emptied sent).step (writes _ _ (.framed frame open_ done upgraded rfl some_ written)), opened open_ rfl⟩
  · exact fun sent done open_ => ⟨emptied sent, opened open_ rfl⟩

theorem refillClientOut_inert : Inert site.id (refillClientOut site.id) := .deref_bind _

theorem sessionWriteClient_yields (writes : ∀ m n, WritesClient m n → scene.acts m n) (here : scene.At [] x)
    (answered : Answered prior x.session) :
    Yields site (fun _ => scene.Left (EndsClient prior)) (sessionWriteClient env site.id)
      (fun _ y => scene.At [] y ∧ Settled y.session) x := by
  rw [sessionWriteClient, yields_config]
  refine yields_bind (writeClientLoop_yields writes _ here answered) ?_ fun _ => .onlyIf refillClientOut_inert
  rintro finished y ⟨there, answered, busy⟩
  exact yields_onlyIf (fun _ => refillClientOut_yields writes there answered) fun stopped =>
    ⟨there, fun _ => busy (by simpa using stopped)⟩

theorem settled_open {s : Session} (open_ : s.closing = .no) : Settled s :=
  fun closing => by rw [open_] at closing; cases closing

/-- Reading from the client never leaves a closing session without output. -/
theorem settled_reads {config : Config} {s t : Session} {l l' : List Io} {h h' : Bytes}
    (sound : Sound config s) (settled : Settled s) (act : ReadsClient early ⟨s, l, h⟩ ⟨t, l', h'⟩) :
    Settled t := by
  cases act with
  | touched => exact settled
  | refused => exact settled
  | received => exact settled
  | gathered => exact settled
  | accepted response consumed fd inProgress time unfinished open_ ready granted => exact settled_open open_
  | parsed => exact settled
  | handled result msg done open_ room fed delivered effect =>
    cases effect with
    | stored => exact settled_open open_
    | ponged => exact settled_open open_
    | closeAnswered frame close idle written => exact fun _ => frame_nonempty written
    | closeHeld close busy =>
      intro _
      have slot := sound.slot
      exact lt_of_le_of_ne slot.1 fun same => busy same.symm
    | ignored => exact settled
  | discarded => exact settled
  | abandoned => exact settled
  | cleared => exact settled

/-- Until the first write after the upgrade, the slot is taken by the response. -/
def Fresh (s : Session) : Prop := s.handshakeDone = true → ¬ Idle s ∧ (s.closing = .started → s.pendingClose = true)

private theorem granted_nonempty {request response : Bytes} {consumed : Nat}
    (granted : wsBuildHandshakeResponse request 256 = .ok (response, consumed)) : response ≠ [] := by
  simp only [wsBuildHandshakeResponse] at granted
  repeat' split at granted
  all_goals cases granted
  have ending : responseSuffix ≠ [] := by decide +kernel
  simp [ending]

private theorem fresh_reads {s t : Session} {l l' : List Io} {h h' : Bytes} (fresh : Fresh s)
    (act : ReadsClient early ⟨s, l, h⟩ ⟨t, l', h'⟩) : Fresh t := by
  cases act with
  | touched => exact fresh
  | refused => exact fresh
  | received => exact fresh
  | gathered => exact fresh
  | accepted response consumed fd inProgress time unfinished open_ ready granted =>
    intro _
    refine ⟨?_, fun closing => by rw [show s.closing = .started from closing] at open_; cases open_⟩
    have some_ := List.length_pos_iff.mpr (granted_nonempty granted)
    exact (Nat.ne_of_gt some_)
  | parsed => exact fresh
  | handled result msg done open_ room fed delivered effect =>
    obtain ⟨busy, pending⟩ := fresh done
    cases effect with
    | stored => exact fresh
    | ponged frame ping idle written => exact absurd idle busy
    | closeAnswered frame close idle written => exact absurd idle busy
    | closeHeld => exact fun _ => ⟨busy, fun _ => rfl⟩
    | ignored => exact fresh
  | discarded => exact fresh
  | abandoned => exact fresh
  | cleared => exact fresh

def Scene.part (acts : Moment → Moment → Prop)
    (keeps : ∀ m n, Sound site.world.config m.session → acts m n → Sound site.world.config n.session)
    {hand : Bytes} (here : scene.At hand x) : Scene site where
  acts := acts
  start := ⟨x.session, x.log, hand⟩
  sound := here.sound
  keeps := keeps

theorem Scene.At.whole {acts : Moment → Moment → Prop} (included : ∀ m n, acts m n → scene.acts m n)
    {keeps} {hand later : Bytes} {y : Own} {here : scene.At hand x}
    (there : (Scene.part acts keeps here).At later y) : scene.At later y :=
  Relation.ReflTransGen.trans here (Relation.ReflTransGen.mono included _ _ there)

theorem Scene.Left.whole {acts : Moment → Moment → Prop} (included : ∀ m n, acts m n → scene.acts m n)
    {keeps} {hand : Bytes} {y : Own} {ends : Moment → Moment → Prop} {here : scene.At hand x}
    (left : (Scene.part acts keeps here).Left ends y) : scene.Left ends y := by
  obtain ⟨m, later, path, ending⟩ := left
  exact ⟨m, later, Relation.ReflTransGen.trans here (Relation.ReflTransGen.mono included _ _ path), ending⟩

theorem runUnlessReleased_yields {left : Own → Prop} {part rest : Proc Unit} {middle : Own → Prop}
    {alive : Unit → Own → Prop} (first : Yields site (fun _ => left) part (fun _ y => middle y) x)
    (live : ∀ y, middle y → y.session.closing ≠ .released)
    (last : ∀ y, middle y → Yields site (fun _ => left) rest alive y) :
    Yields site (fun _ => left) (runUnlessReleased site.id part rest) alive x := by
  refine yields_bind first (fun _ y holds => ?_) fun _ => .deref_bind _
  rw [yields_deref, if_neg (live y holds)]
  exact last y holds

/-- The READ and WRITE parts of a handler, each where it is asked for, and the
masks behind them. -/
theorem parts_yields (middle last : Own → Prop) {left : Own → Prop} {alive : Unit → Own → Prop}
    {readPart writePart : Proc Unit} {events : Events}
    (reads : events.read = true → Yields site (fun _ => left) readPart (fun _ => middle) x)
    (unread : events.read = false → middle x)
    (writes : ∀ y, middle y → events.write = true → Yields site (fun _ => left) writePart (fun _ => last) y)
    (unwritten : ∀ y, middle y → last y) (live : ∀ y, middle y ∨ last y → y.session.closing ≠ .released)
    (updates : ∀ y, last y → Yields site (fun _ => left) (sessionUpdateEvents env site.id) alive y) :
    Yields site (fun _ => left)
      (let write := if events.write then runUnlessReleased site.id writePart (sessionUpdateEvents env site.id)
       else sessionUpdateEvents env site.id
       if events.read then runUnlessReleased site.id readPart write else write) alive x := by
  have written : ∀ y, middle y → Yields site (fun _ => left)
      (if events.write then runUnlessReleased site.id writePart (sessionUpdateEvents env site.id)
          else sessionUpdateEvents env site.id) alive y := by
    intro y holds
    split
    next write => exact runUnlessReleased_yields (writes y holds write) (fun z kept => live z (.inr kept)) updates
    · exact updates y (unwritten y holds)
  dsimp only
  split
  next read => exact runUnlessReleased_yields (reads read) (fun y kept => live y (.inl kept)) written
  next silent => exact written x (unread (by simpa using silent))

/-- What a handler leaves of a session that it keeps. -/
structure Served (scene : Scene site) (env : Env) (y : Own) : Prop where
  here : scene.At [] y
  settled : Settled y.session
  masked : (∀ n side, env.loopModify n side = .ok ()) → Masked y

theorem updateEvents_serves {left : Own → Prop} (here : scene.At [] x) (settled : Settled x.session) :
    Yields site (fun _ => left) (sessionUpdateEvents env site.id) (fun _ => Served scene env) x := by
  refine updateEvents_yields here.sound.live fun y session log masked => ?_
  refine ⟨?_, session ▸ settled, masked⟩
  rw [Scene.At, session, log]
  exact here

private theorem sessionReadClient_part (reads : ∀ m n, ReadsClient early m n → scene.acts m n)
    (immediate : Immediate env → early) (here : scene.At [] x) (ready : x.session.clientTlsReady = true)
    (settled : Settled x.session) (before : x.session.handshakeDone = true → prior) :
    Yields site (fun _ => scene.Left (EndsClient prior)) (sessionReadClient env site.id)
      (fun _ y => scene.At [] y ∧ Settled y.session ∧ Answered prior y.session) x := by
  refine (sessionReadClient_yields
    (Scene.part (ReadsClient early) (fun _ _ => sound_readsClient) here) (fun _ _ act => act)
    immediate Relation.ReflTransGen.refl ready).weaken ?_ fun _ _ left => Scene.Left.whole reads left
  intro _ y there
  have begun : prior ∨ Fresh x.session := by
    by_cases done : x.session.handshakeDone = true
    · exact .inl (before done)
    · exact .inr fun finished => absurd finished done
  obtain ⟨sound, settled, fresh⟩ := path_keeps
    (fun m => Sound site.world.config m.session ∧ Settled m.session ∧ (prior ∨ Fresh m.session))
    (fun m n holds act =>
      ⟨sound_readsClient holds.1 act, settled_reads holds.1 holds.2.1 act, holds.2.2.imp_right (fresh_reads · act)⟩)
    ⟨here.sound, settled, begun⟩ there
  refine ⟨Scene.At.whole reads there, settled, fun closing answered => ?_⟩
  rcases fresh with before | fresh
  · exact before
  · exact absurd ((fresh (sound.upgraded_of_closing closing)).2 closing) (by simp [answered])

private theorem clientTransfer_yields {events : Events}
    (included : ∀ m n, ActsClient early events m n → scene.acts m n) (immediate : Immediate env → early)
    (here : scene.At [] x) (ready : x.session.clientTlsReady = true) (settled : Settled x.session)
    (before : x.session.handshakeDone = true → prior) :
    Yields site (fun _ => scene.Left (EndsClient prior))
      (clientTransfer env site.id events) (fun _ => Served scene env) x := by
  apply parts_yields (fun y => scene.At [] y ∧ Settled y.session ∧ Answered prior y.session) fun y =>
    scene.At [] y ∧ Settled y.session
  · exact fun read =>
      sessionReadClient_part (fun _ _ act => included _ _ (.inl ⟨read, act⟩)) immediate here ready settled before
  · exact fun _ => ⟨here, settled, fun closing _ => before (here.sound.upgraded_of_closing closing)⟩
  · rintro y ⟨there, settled, answered⟩ write
    exact sessionWriteClient_yields (fun _ _ act => included _ _ (.inr (.inl ⟨write, act⟩))) there answered
  · exact fun y holds => ⟨holds.1, holds.2.1⟩
  · rintro y (holds | holds)
    · exact holds.1.sound.live
    · exact holds.1.sound.live
  · exact fun y holds => updateEvents_serves holds.1 holds.2

theorem sessionHandleClientEvent_yields {events : Events}
    (included : ∀ m n, ActsClient early events m n → scene.acts m n) (immediate : Immediate env → early)
    (here : scene.At [] x) (settled : Settled x.session)
    (before : x.session.handshakeDone = true → prior) :
    Yields site (fun _ => scene.Left (EndsClient prior))
      (sessionHandleClientEvent env site.id events) (fun _ => Served scene env) x := by
  rw [sessionHandleClientEvent]
  split
  · exact yields_close here.sound.live (here.left (h := []) (.interrupted settled))
  · rw [yields_deref]
    split
    next unready =>
      have waiting : x.session.clientTlsReady = false := by simpa using unready
      rw [yields_driveClient waiting]
      split
      next =>
        have secured := here.step (y := { x with
            session := { x.session with clientTlsReady := true }
            log := x.log ++ [.handshake .client x.session.clientTransport (.ok ())]
            calls := x.calls + 1 }) (included _ _ (.inr (.inr (.secured waiting))))
        exact clientTransfer_yields included immediate secured rfl settled before
      next error _ =>
        have refused := here.step (y := { x with
            log := x.log ++ [.handshake .client x.session.clientTransport (.error error)]
            calls := x.calls + 1 }) (included _ _ (.inr (.inr (.refused error))))
        split
        · exact updateEvents_serves refused settled
        · exact yields_close refused.sound.live (refused.left (h := []) (.interrupted settled))
    next ready => exact clientTransfer_yields included immediate here (by simpa using ready) settled before

end Sockify.Proofs.Simulation
