import Sockify.Proofs.TargetEndings
import Sockify.Streams

/-! What `recv` answers to a target event, told from the session that the event
finds. -/

namespace Sockify.Proofs.TargetReads
open Sockify Stateful Behaviour Streams SessionLogic SessionSteps Soundness Simulation Lifetimes TargetEndings

def handshaken (env : Env) (n : Nat) (transport : Transport) : Option (Nat × Transport) :=
  if transportHandshake env n transport = .ok () then some (n + 1, transport) else none

/-- The calls that `session_handle_target_event` has made when its transfers
begin, and the transport they use; nothing if it does not come so far. -/
def transferPoint (config : Config) (env : Env) (s : Session) (n : Nat) (events : Events) : Option (Nat × Transport) :=
  if events.error then none
  else if s.targetConnecting ∧ events.write then
    if netSocketError env n s.targetFd ≠ .ok 0 then none
    else if config.targetTlsEnabled then
      match env.tlsCreate (n + 2) s.targetFd false (some
        (if config.targetTlsServerName = [] then config.targetEndpoint.host else config.targetTlsServerName)) with
      | .error _ => none
      | .ok connection => handshaken env (n + 3) ⟨.tls, s.targetFd, some connection⟩
    else some (n + 1, s.targetTransport)
  else if !s.targetConnecting ∧ !s.targetTlsReady then handshaken env n s.targetTransport
  else some (n, s.targetTransport)

/-- The answers to the loop of `session_read_target`. -/
def loopAnswers (env : Env) (transport : Transport) : Nat → Nat → Buffer → List (Except Err Bytes)
  | 0, _, _ => []
  | budget + 1, n, buffer =>
    if bufferIsHigh buffer then []
    else match transportRead env n transport ioChunk with
      | .error error => [.error error]
      | .ok bytes =>
        let out := bufferWrite buffer bytes
        .ok bytes :: if out.status ≠ .ok () ∨ out.written ≠ bytes.length then []
          else loopAnswers env transport budget (n + 1) out.buffer

def readAnswers (config : Config) (env : Env) (events : Events) (buffer : Buffer) :
    Option (Nat × Transport) → List (Except Err Bytes)
  | some (calls, transport) => if events.read then loopAnswers env transport config.readBudget calls buffer else []
  | none => []

/-- The answers to the reads of a target event. -/
def answers (config : Config) (env : Env) (s : Session) (events : Events) : List (Except Err Bytes) :=
  readAnswers config env events s.targetToClient (transferPoint config env s 0 events)

@[simp] def answer : Io → Option (Except Err Bytes)
  | .read .target _ _ reply => some reply
  | _ => none

/-- The answers to the reads from a target, as a record shows them. -/
def heard (log : List Io) : List (Except Err Bytes) := log.filterMap answer

variable {config : Config} {w : World} {site : Site} {env : Env} {x y : Own} {id : SessionId}
  {s t : Session} {l more past : List Io}
variable {expected : List (Except Err Bytes)} {events : Events}

@[simp] theorem heard_none : heard [] = [] := rfl

@[simp] theorem heard_append : heard (l ++ more) = heard l ++ heard more := List.filterMap_append

@[simp] theorem heard_cons (io : Io) : heard (io :: l) = (answer io).toList ++ heard l := by
  rw [heard, List.filterMap_cons]
  cases answer io <;> rfl

/-- A session that its target event keeps, and has heard so much. -/
structure Hearing (l : List Io) (expected : List (Except Err Bytes)) (y : Own) : Prop where
  live : y.session.closing ≠ .released
  log : ∃ more, y.log = l ++ more ∧ heard more = expected
  unended : .error .closed ∉ expected

/-- A session that its target event releases; nothing comes between the end of the
stream and the release. -/
def Silenced (l : List Io) (expected : List (Except Err Bytes)) (y : Own) : Prop :=
  ∃ more, y.log = l ++ more ∧ heard more = expected ∧
    (.error .closed ∈ expected →
      ∃ past transport limit, more = past ++ [.read .target transport limit (.error .closed)])

theorem Hearing.silenced (hearing : Hearing l expected x) : Silenced l expected x := by
  obtain ⟨more, log, same⟩ := hearing.log
  exact ⟨more, log, same, fun ended => absurd ended hearing.unended⟩

theorem Hearing.told (extra : List Io) (hearing : Hearing l expected x)
    (closing : y.session.closing = x.session.closing) (logged : y.log = x.log ++ extra)
    (unended : .error .closed ∉ heard extra) : Hearing l (expected ++ heard extra) y where
  live := closing ▸ hearing.live
  log := by
    obtain ⟨more, log, same⟩ := hearing.log
    exact ⟨more ++ extra, by rw [logged, log, List.append_assoc], by rw [heard_append, same]⟩
  unended := fun ended => (List.mem_append.mp ended).elim hearing.unended unended

theorem Hearing.moved (extra : List Io) (hearing : Hearing l expected x)
    (closing : y.session.closing = x.session.closing) (logged : y.log = x.log ++ extra)
    (quiet : heard extra = []) : Hearing l expected y := by
  have told := hearing.told extra closing logged (by simp [quiet])
  rwa [quiet, List.append_nil] at told

private theorem readTargetLoop_hears (budget : Nat) (hearing : Hearing l expected x) :
    Yields site (fun _ =>
      Silenced l (expected ++ loopAnswers env x.session.targetTransport budget x.calls x.session.targetToClient))
        (readTargetLoop env site.id budget)
        (fun _ => Hearing l
        (expected ++ loopAnswers env x.session.targetTransport budget x.calls x.session.targetToClient)) x := by
  induction budget generalizing x expected with
  | zero =>
    rw [readTargetLoop, yields_deref, loopAnswers, List.append_nil]
    exact yields_pure hearing
  | succ budget ih =>
    rw [loopAnswers]
    apply readTargetLoop_turn hearing.live
    · intro high
      rw [if_pos high, List.append_nil]
      exact hearing
    · intro low reply
      rw [if_neg (by simp [low]), reply]
      exact hearing.told [.read .target _ ioChunk (.error .again)] rfl rfl (by simp)
    · intro error low _ reply
      rw [if_neg (by simp [low]), reply]
      obtain ⟨more, log, same⟩ := hearing.log
      refine ⟨more ++ [.read .target x.session.targetTransport ioChunk (.error error)], by rw [log, List.append_assoc],
        by rw [heard_append, same]; rfl, fun ended => ⟨more, x.session.targetTransport, ioChunk, ?_⟩⟩
      rcases List.mem_append.mp ended with before | now
      · exact absurd before hearing.unended
      · obtain rfl : .closed = error := by simpa using now
        rfl
    · intro bytes low reply lost
      rw [if_neg (by simp [low]), reply]
      simp only [if_pos lost]
      exact Hearing.silenced
        (hearing.told [.read .target _ ioChunk (.ok bytes), .store .target bytes _] rfl rfl (by simp))
    · intro bytes low reply stored
      rw [if_neg (by simp [low]), reply]
      simp only [if_neg stored]
      rw [List.append_cons]
      exact ih (hearing.told [.read .target _ ioChunk (.ok bytes), .store .target bytes _] rfl rfl (by simp))

private theorem writeTargetLoop_hears (budget : Nat) (hearing : Hearing l expected x) :
    Yields site (fun _ => Silenced l expected)
      (writeTargetLoop env site.id budget) (fun _ => Hearing l expected) x := by
  induction budget generalizing x with
  | zero =>
    rw [writeTargetLoop, yields_deref]
    exact yields_pure hearing
  | succ budget ih =>
    apply writeTargetLoop_turn hearing.live
    · exact fun _ => hearing
    · exact fun _ _ => hearing.moved _ rfl rfl rfl
    · exact fun _ _ _ _ => Hearing.silenced (hearing.moved _ rfl rfl rfl)
    · exact fun sent _ _ => ih (hearing.moved _ rfl rfl rfl)

private theorem updateEvents_hears (hearing : Hearing l expected x) :
    Yields site (fun _ => Silenced l expected) (sessionUpdateEvents env site.id) (fun _ => Hearing l expected) x := by
  apply updateEvents_yields hearing.live
  intro y session log _
  exact hearing.moved [] (by rw [session]) (by simp [log]) rfl

/-- The transfers of an event that has read nothing on its way to them. -/
theorem targetTransfer_hears (events : Events) (hearing : Hearing l [] x) :
    Yields site (fun _ => Silenced l (readAnswers site.world.config env events x.session.targetToClient
      (some (x.calls, x.session.targetTransport))))
        (targetTransfer env site.id events)
        (fun _ => Hearing l (readAnswers site.world.config env events x.session.targetToClient
        (some (x.calls, x.session.targetTransport)))) x := by
  generalize told : readAnswers site.world.config env events x.session.targetToClient
    (some (x.calls, x.session.targetTransport)) = expected
  rw [readAnswers] at told
  apply parts_yields (Hearing l expected) (Hearing l expected)
  · intro reads
    rw [if_pos reads] at told
    rw [sessionReadTarget, yields_config, ← told]
    exact readTargetLoop_hears _ hearing
  · intro silent
    rw [if_neg (by simp [silent])] at told
    exact told ▸ hearing
  · intro y hearing _
    rw [sessionWriteTarget, yields_config]
    exact writeTargetLoop_hears _ hearing
  · exact fun y hearing => hearing
  · exact fun y either => (or_self_iff.mp either).live
  · exact fun y hearing => updateEvents_hears hearing

private theorem targetSecured_hears (events : Events) (hearing : Hearing l [] x)
    (point : expected = readAnswers site.world.config env events x.session.targetToClient
      (if !x.session.targetConnecting ∧ !x.session.targetTlsReady then handshaken env x.calls x.session.targetTransport
       else some (x.calls, x.session.targetTransport))) :
    Yields site (fun _ => Silenced l expected) (targetSecured env site.id events) (fun _ => Hearing l expected) x := by
  rw [targetSecured, yields_deref]
  subst point
  split
  next waiting =>
    obtain ⟨-, unready⟩ : x.session.targetConnecting = false ∧ x.session.targetTlsReady = false := by
      simpa using waiting
    rw [yields_driveTarget unready, handshaken]
    split
    next reply =>
      rw [if_pos reply]
      exact targetTransfer_hears events (hearing.moved [.handshake .target _ (.ok ())] rfl rfl rfl)
    next error reply =>
      rw [if_neg (by simp [reply])]
      split
      · exact updateEvents_hears (hearing.moved _ rfl rfl rfl)
      · exact yields_close hearing.live (Hearing.silenced (hearing.moved _ rfl rfl rfl))
  · exact targetTransfer_hears events hearing

/-- A connect that completes leaves the session where its transfers are secured,
or its event reads nothing. -/
def Connected (config : Config) (env : Env) (events : Events) (l : List Io)
    (expected : List (Except Err Bytes)) (rc : Except Err Unit) (y : Own) : Prop :=
  Hearing l [] y ∧ if rc = .ok () then expected = readAnswers config env events y.session.targetToClient
      (if !y.session.targetConnecting ∧ !y.session.targetTlsReady then handshaken env y.calls y.session.targetTransport
       else some (y.calls, y.session.targetTransport))
    else expected = []

private theorem completeTargetConnect_hears (noError : events.error = false)
    (writes : events.write = true) (hearing : Hearing l [] x)
    (pending : x.session.targetConnecting = true)
    (contexts : site.world.targetTlsContext = site.world.config.targetTlsEnabled) :
    Yields site (fun _ _ => False) (sessionCompleteTargetConnect env site.id)
      (Connected site.world.config env events l (readAnswers site.world.config env events x.session.targetToClient
        (transferPoint site.world.config env x.session x.calls events))) x := by
  rw [transferPoint, if_neg (by simp [noError]), if_pos ⟨pending, writes⟩]
  apply completeTargetConnect_cases pending
  · intro failed
    rw [if_pos failed]
    exact ⟨hearing.moved _ rfl rfl rfl, rfl⟩
  · intro worked plain
    rw [if_neg (not_not.mpr worked), if_neg (by simp [plain])]
    exact ⟨hearing.moved _ rfl rfl rfl, rfl⟩
  · intro error calls worked secure failed
    rw [if_neg (not_not.mpr worked), if_pos secure, failed (contexts.trans secure)]
    exact ⟨hearing.moved _ rfl rfl rfl, rfl⟩
  · intro connection worked secure created
    rw [if_neg (not_not.mpr worked), if_pos secure, created]
    exact ⟨hearing.moved _ rfl rfl rfl, rfl⟩

private theorem sessionHandleTargetEvent_hears (events : Events) (hearing : Hearing l [] x)
    (contexts : site.world.targetTlsContext = site.world.config.targetTlsEnabled)
    (told : expected = readAnswers site.world.config env events x.session.targetToClient
      (transferPoint site.world.config env x.session x.calls events)) :
    Yields site (fun _ => Silenced l expected)
      (sessionHandleTargetEvent env site.id events) (fun _ => Hearing l expected) x := by
  subst told
  rw [sessionHandleTargetEvent]
  split
  next failed =>
    rw [transferPoint, if_pos failed]
    exact yields_close hearing.live hearing.silenced
  next fine =>
    have noError : events.error = false := by simpa using fine
    rw [yields_deref]
    split
    next completes =>
      refine yields_bind_kept (completeTargetConnect_hears noError completes.2 hearing completes.1 contexts)
        fun rc y connected => ?_
      obtain ⟨hearing, told⟩ := connected
      split
      next failed =>
        rw [if_neg failed] at told
        rw [told]
        exact yields_close hearing.live hearing.silenced
      next worked =>
        rw [if_pos (not_not.mp worked)] at told
        exact targetSecured_hears events hearing told
    next waits =>
      rw [transferPoint, if_neg fine, if_neg waits]
      exact targetSecured_hears events hearing rfl

/-- What a target event has heard when it keeps its session, and when it releases it. -/
theorem target_hears (env : Env) (events : Events) (inv : Invariant config True w)
    (present : w.session? id = some s) :
    (∃ more, (w.after env (.target id events)).log id = w.log id ++ more ∧ heard more = answers config env s events ∧
      .error .closed ∉ answers config env s events) ∨
    ∃ more t, (w.after env (.target id events)).log id = w.log id ++ more ++ [.release t] ∧
      heard more = answers config env s events ∧
      (.error .closed ∈ answers config env s events →
        ∃ past transport limit, more = past ++ [.read .target transport limit (.error .closed)]) := by
  have lived := inv.lived id s present
  have hearing : Hearing (w.log id) [] ⟨s, w.log id, w.interest id, 0⟩ :=
    ⟨lived.sound.live, ⟨[], by simp, rfl⟩, by simp⟩
  have runs : (sessionHandleTargetEvent env id events w.begin).2 = w.after env (.target id events) := rfl
  have event : ∀ site : Site, site.id = id →
      site.world.config = config → site.world.targetTlsContext = config.targetTlsEnabled →
      Sound site.world.config s → Yields site (fun _ => Silenced (w.log id) (answers config env s events))
        (sessionHandleTargetEvent env id events)
        (fun _ => Hearing (w.log id) (answers config env s events)) ⟨s, w.log id, w.interest id, 0⟩ := by
    rintro site rfl rfl contexts -
    exact sessionHandleTargetEvent_hears events hearing contexts rfl
  rcases session_left inv present runs event
    with ⟨y, ⟨-, ⟨more, log, same⟩, unended⟩, -, mine⟩ | ⟨y, ⟨more, log, same, ends⟩, -, mine⟩
  · exact .inl ⟨more, mine.trans log, same, unended⟩
  · exact .inr ⟨more, y.session, by rw [mine, log], same, ends⟩

/-- All answers but the last one bring bytes. -/
theorem loopAnswers_bring {transport : Transport} {budget calls : Nat} {buffer : Buffer}
    {front : List (Except Err Bytes)} {last reply : Except Err Bytes}
    (layout : loopAnswers env transport budget calls buffer = front ++ [last]) (member : reply ∈ front) :
    ∃ bytes, bytes ≠ [] ∧ reply = .ok bytes := by
  induction budget generalizing calls buffer front with
  | zero => simp [loopAnswers] at layout
  | succ budget ih =>
    rw [loopAnswers] at layout
    split at layout
    · simp at layout
    · cases front with
      | nil => cases member
      | cons first front =>
        split at layout
        · simp at layout
        next bytes received =>
          obtain ⟨rfl, rest⟩ := List.cons.inj layout
          rcases List.mem_cons.mp member with rfl | later
          · exact ⟨bytes, (transportRead_fits received).1, rfl⟩
          · split at rest
            · simp at rest
            · exact ih rest later

theorem answers_bring {front : List (Except Err Bytes)} {last reply : Except Err Bytes}
    (layout : answers config env s events = front ++ [last]) (member : reply ∈ front) :
    ∃ bytes, bytes ≠ [] ∧ reply = .ok bytes := by
  rw [answers] at layout
  generalize transferPoint config env s 0 events = point at layout
  cases point with
  | none => simp [readAnswers] at layout
  | some point =>
    rw [readAnswers] at layout
    split at layout
    · exact loopAnswers_bring layout member
    · simp at layout

private theorem received_heard : received .target l = (heard l).flatMap fun reply => reply.toOption.getD [] := by
  induction l with
  | nil => rfl
  | cons io l ih =>
    rw [received_cons, ih]
    cases io with
    | read side _ _ reply => cases side <;> cases reply <;> rfl
    | _ => rfl

/-- Answers that bring bytes are none where no bytes were received. -/
theorem heard_nil (bring : ∀ reply ∈ heard l, ∃ bytes, bytes ≠ [] ∧ reply = .ok bytes) :
    heard l = [] ↔ received .target l = [] := by
  rw [received_heard, List.flatMap_eq_nil_iff, List.eq_nil_iff_forall_not_mem]
  constructor
  · exact fun none reply member => absurd member (none reply)
  · intro nothing reply member
    obtain ⟨bytes, some_, rfl⟩ := bring reply member
    exact some_ (nothing _ member)

end Sockify.Proofs.TargetReads
