import Sockify.Proofs.Absorption
import Sockify.Proofs.FrameLayout

/-! Which events end in a lookup of the session that they have released. A
handler looks its session up behind each of its READ and WRITE parts, and so it
fails exactly on those events that make a part release the session. Each part's
way through an event is followed turn by turn; a turn that goes wrong is `False`. -/

namespace Sockify.Proofs.ReleasedLookups
open Sockify Stateful Behaviour Framing SessionLogic SessionSteps Soundness Simulation Lifetimes Absorption

def answering (s : Session) (msg : WsMessage) : Session :=
  if IsData msg.opcode then { s with clientToTarget := (bufferWrite s.clientToTarget msg.payload).buffer }
  else if msg.opcode = Opcode.ping then fill s (serverFrame Opcode.pong msg.payload)
  else if msg.opcode = Opcode.close then
    let closing := { s with closing := .started, pendingClosePayload := msg.payload.take 125, pendingClose := true }
    if Idle s then { fill closing (serverFrame Opcode.close (msg.payload.take 125)) with pendingClose := false }
      else closing
  else s

/-- The parser takes the bytes as far as there is room for them, and no PING
finds the output slot taken. -/
def FramesWell (next : Session → Prop) : Nat → Session → Bytes → Prop
  | 0, _, _ => False
  | fuel + 1, s, data =>
    if data = [] ∨ s.closing ≠ .no ∨ payloadCapacity s = 0 then next s
    else
      let result := wsParserFeed s.wsParser data (payloadCapacity s)
      match result.outcome with
      | .ok msg => (msg.opcode = Opcode.ping → Idle s) ∧
          FramesWell next fuel (answering { s with wsParser := result.parser } msg) (data.drop result.used)
      | .error error =>
        error = .again ∧ FramesWell next fuel { s with wsParser := result.parser } (data.drop result.used)

/-- An upgrade request grows within its limit, or is granted and its target started. -/
def RequestWell (env : Env) (next : Session → Nat → Prop) (s : Session) (n : Nat) (bytes : Bytes) : Prop :=
  bytes.length ≤ wsMaxHttpRequest - s.handshake.length ∧
    let gathered := { s with handshake := s.handshake ++ bytes }
    match wsBuildHandshakeResponse gathered.handshake 256 with
    | .error error => error = .again ∧ next gathered n
    | .ok (response, consumed) =>
      match env.connect n with
      | .error _ => False
      | .ok (fd, inProgress) => env.loopAdd (n + 1) .target = .ok () ∧
          FramesWell (fun t => next { t with handshake := [] } (n + 2)) ((gathered.handshake.drop consumed).length + 1)
            (upgraded gathered response fd inProgress (env.time (n + 1))) (gathered.handshake.drop consumed)

def BytesWell (env : Env) (next : Session → Nat → Prop) (s : Session) (n : Nat) (bytes : Bytes) : Prop :=
  if s.handshakeDone = true then FramesWell (next · n) (bytes.length + 1) s bytes else RequestWell env next s n bytes

/-- `session_read_client` goes well: every read brings bytes that do, or nothing. -/
def ClientReadsWell (env : Env) (next : Session → Nat → Prop) : Nat → Session → Nat → Prop
  | 0, s, n => next s n
  | budget + 1, s, n =>
    if s.closing ≠ .no ∨ (s.handshakeDone = true ∧ readLimit s = 0) then next s n
    else
      match transportRead env n s.clientTransport (readLimit s) with
      | .error error => error = .again ∧ next s (n + 1)
      | .ok bytes =>
        BytesWell env
          (fun t m =>
            if t.handshakeDone = true ∧ bufferIsHigh t.clientToTarget = false
            then ClientReadsWell env next budget t m else next t m)
          { s with lastActivityAt := env.time (n + 1) } (n + 1) bytes

/-- A session that is closing, its answer given, still has output to send. -/
def Lingers (s : Session) : Prop := s.closing = .started → s.pendingClose = false → s.clientOutPos < s.clientOutLen

/-- `session_write_client` goes well: no write fails, and no close comes to its end. -/
def ClientWritesWell (env : Env) : Nat → Session → Nat → Prop
  | 0, s, _ => Lingers s
  | budget + 1, s, n =>
    if s.clientOutPos < s.clientOutLen then
      match transportWrite env n s.clientTransport s.unsent with
      | .error error => error = .again
      | .ok sent =>
        ClientWritesWell env budget
          { s with clientOutPos := s.clientOutPos + sent, lastActivityAt := env.time (n + 1) } (n + 1)
    else Lingers s

/-- `session_read_target` goes well: every read brings bytes for which there is room, or nothing. -/
def TargetReadsWell (env : Env) (next : Session → Nat → Prop) : Nat → Session → Nat → Prop
  | 0, s, n => next s n
  | budget + 1, s, n =>
    if bufferIsHigh s.targetToClient = true then next s n
    else
      match transportRead env n s.targetTransport ioChunk with
      | .error error => error = .again ∧ next s (n + 1)
      | .ok bytes => bytes.length ≤ bufferWritable s.targetToClient ∧
          TargetReadsWell env next budget
            { s with lastActivityAt := env.time (n + 1), targetToClient := (bufferWrite s.targetToClient bytes).buffer }
              (n + 1)

/-- `session_write_target` goes well: no write fails. -/
def TargetWritesWell (env : Env) : Nat → Session → Nat → Prop
  | 0, _, _ => True
  | budget + 1, s, n =>
    if bufferReadable s.clientToTarget = 0 then True
    else
      match transportWrite env n s.targetTransport
          (bufferPeek s.clientToTarget (minSize ioChunk (bufferReadable s.clientToTarget))) with
      | .error error => error = .again
      | .ok sent =>
        TargetWritesWell env budget
          { s with
            lastActivityAt := if sent ≠ 0 then env.time (n + 1) else s.lastActivityAt
            clientToTarget := (bufferConsume s.clientToTarget sent).1 } (n + 1)

/-- The READ part goes well, and the WRITE part behind it, where they are asked for. -/
def PartsWell (events : Events) (reads : (Session → Nat → Prop) → Session → Nat → Prop) (writes : Session → Nat → Prop)
    (s : Session) (n : Nat) : Prop :=
  let rest := fun t m => events.write = true → writes t m
  if events.read = true then reads rest s n else rest s n

def ClientPartsWell (config : Config) (env : Env) (events : Events) : Session → Nat → Prop :=
  PartsWell events (fun next => ClientReadsWell env next config.readBudget) (ClientWritesWell env config.writeBudget)

def TargetPartsWell (config : Config) (env : Env) (events : Events) : Session → Nat → Prop :=
  PartsWell events (fun next => TargetReadsWell env next config.readBudget) (TargetWritesWell env config.writeBudget)

/-- A client event that has parts has parts that go well. -/
def ClientWell (config : Config) (env : Env) (events : Events) (s : Session) : Prop :=
  events.error = true ∨
    if s.clientTlsReady = true then ClientPartsWell config env events s 0
    else transportHandshake env 0 s.clientTransport = .ok () →
      ClientPartsWell config env events { s with clientTlsReady := true } 1

def SecuredWell (config : Config) (env : Env) (events : Events) (s : Session) (n : Nat) : Prop :=
  if s.targetConnecting = false ∧ s.targetTlsReady = false then
    transportHandshake env n s.targetTransport = .ok () →
      TargetPartsWell config env events { s with targetTlsReady := true } (n + 1)
  else TargetPartsWell config env events s n

/-- How a pending connect completes. -/
inductive Completes (config : Config) (env : Env) (s : Session) : Session → Nat → Prop
  | plain (connected : netSocketError env 0 s.targetFd = .ok 0) (insecure : config.targetTlsEnabled = false) :
      Completes config env s
        { s with
          targetConnecting := false, connectStartedAt := 0
          lastActivityAt := env.time 1, targetTlsReady := true } 1
  | tls (connection : TlsConnection) (connected : netSocketError env 0 s.targetFd = .ok 0)
      (secure : config.targetTlsEnabled = true)
      (created : env.tlsCreate 2 s.targetFd false
        (some (if config.targetTlsServerName = [] then config.targetEndpoint.host else config.targetTlsServerName)) =
        .ok connection) :
      Completes config env s
        { s with
          targetConnecting := false, connectStartedAt := 0, lastActivityAt := env.time 1
          targetTransport := ⟨.tls, s.targetFd, some connection⟩, targetTlsReady := false } 3

/-- A target event that has parts has parts that go well. -/
def TargetWell (config : Config) (env : Env) (events : Events) (s : Session) : Prop :=
  events.error = true ∨
    if s.targetConnecting = true ∧ events.write = true
    then ∀ t n, Completes config env s t n → SecuredWell config env events t n
    else SecuredWell config env events s 0

variable {config : Config} {site : Site} {env : Env} {events : Events} {x : Own} {w : World}
  {id : SessionId} {s : Session} {data bytes : Bytes} {msg : WsMessage}
variable {next : Session → Nat → Prop}

/-! Bytes of frames. -/

theorem answering_handled (sound : Sound config s) (fitting : Fitting s msg)
    (free : msg.opcode = Opcode.ping → Idle s) :
    ∃ entries, Handled s msg (answering s msg) entries := by
  unfold answering
  split
  next data => exact ⟨_, .stored data fitting.data⟩
  next other =>
    split
    next ping =>
      have short : msg.payload.length ≤ 125 := fitting.control (by simp [isControlOpcode, ping, Opcode.ping])
      obtain ⟨frame, written⟩ := control_fits Opcode.pong rfl sound.capacity short
      rw [← FrameLayout.wsWriteFrame_layout written]
      exact ⟨_, .ponged frame ping (free ping) written⟩
    next notPing =>
      split
      next close =>
        dsimp only
        split
        next idle =>
          have short : (msg.payload.take 125).length ≤ 125 := by
            rw [List.length_take]
            omega
          obtain ⟨frame, written⟩ := control_fits Opcode.close rfl sound.capacity short
          rw [← FrameLayout.wsWriteFrame_layout written]
          exact ⟨_, .closeAnswered frame close idle written⟩
        next busy => exact ⟨_, .closeHeld close busy⟩
      next notClose => exact ⟨_, .ignored ⟨other, notPing, notClose⟩⟩

/-- The session is kept, and its handler goes on with it. -/
def Fine (next : Session → Prop) : Absorbed → Prop
  | .kept t _ rc => (rc = .ok () ∨ rc = .error .again) ∧ next t
  | .lost => False

private theorem fine_behind {next : Session → Prop} (entries : List Io) (outcome : Absorbed) :
    Fine next (outcome.behind entries) ↔ Fine next outcome := by
  cases outcome with
  | kept => rfl
  | lost => rfl

private theorem framesWell_absorb {next : Session → Prop} (fuel : Nat) (enough : data.length < fuel)
    (sound : Sound config s) (done : s.handshakeDone = true) :
    FramesWell next fuel s data ↔ Fine next (absorb fuel s data) := by
  induction fuel generalizing s data with
  | zero => omega
  | succ fuel ih =>
    rw [FramesWell]
    by_cases settled : data = [] ∨ s.closing ≠ .no
    · rw [if_pos (settled.imp_right .inl), absorb_settled fuel settled]
      exact ⟨fun holds => ⟨.inl rfl, holds⟩, fun holds => holds.2⟩
    · obtain ⟨more, open_⟩ : data ≠ [] ∧ s.closing = .no := by simpa using settled
      have some_ : 0 < data.length := List.length_pos_iff.mpr more
      by_cases full : payloadCapacity s = 0
      · rw [if_pos (.inr (.inr full)), absorb_full fuel more open_ full]
        exact ⟨fun holds => ⟨.inr rfl, holds⟩, fun holds => holds.2⟩
      · rw [if_neg (by simp [more, open_, full])]
        obtain ⟨result, fed⟩ : ∃ result, wsParserFeed s.wsParser data (payloadCapacity s) = result := ⟨_, rfl⟩
        simp only [fed]
        cases outcome : result.outcome with
        | ok msg =>
          obtain ⟨progress, within, fitting⟩ := delivered_fits sound full fed outcome
          have parsed := sound_parsed sound done full fed (.inr ⟨msg, outcome⟩)
          simp only
          by_cases free : msg.opcode = Opcode.ping → Idle s
          · obtain ⟨entries, effect⟩ := answering_handled parsed fitting free
            obtain ⟨kept, still⟩ := sound_handled parsed done open_ effect
            rw [absorb_message fuel more open_ full fed outcome (handled_absorbs effect), fine_behind,
              ← ih (by rw [List.length_drop]; omega) kept still]
            exact and_iff_right free
          · obtain ⟨ping, busy⟩ := Classical.not_imp.mp free
            rw [absorb_lost fuel more open_ full fed outcome (busy_ping_lost ping busy)]
            exact iff_of_false (fun holds => free holds.1) id
        | error error =>
          simp only
          by_cases again : error = .again
          · subst again
            have parsed := sound_parsed sound done full fed (.inl outcome)
            have all := exhausted_uses sound full fed outcome
            rw [absorb_again fuel more open_ full fed outcome,
              fine_behind, ← ih (by rw [List.length_drop]; omega) parsed done]
            exact and_iff_right rfl
          · rw [absorb_refused fuel more open_ full fed outcome again]
            refine iff_of_false (fun holds => again holds.1) fun holds => ?_
            rcases holds.1 with impossible | same
            · cases impossible
            · exact again (Except.error.inj same)

/-! The parts of a client event. -/

private theorem requestWell_granted {response : Bytes} {consumed : Nat} {fd : Socket}
    {inProgress : Bool} {n : Nat} (fits : bytes.length ≤ wsMaxHttpRequest - s.handshake.length)
    (granted : wsBuildHandshakeResponse (s.handshake ++ bytes) 256 = .ok (response, consumed))
    (connect : env.connect n = .ok (fd, inProgress)) (added : env.loopAdd (n + 1) .target = .ok ()) :
    RequestWell env next s n bytes ↔
      FramesWell (fun t => next { t with handshake := [] } (n + 2))
        (((s.handshake ++ bytes).drop consumed).length + 1)
          (upgraded { s with handshake := s.handshake ++ bytes } response fd inProgress (env.time (n + 1)))
          ((s.handshake ++ bytes).drop consumed) := by
  rw [RequestWell]
  simp only [granted, connect, added]
  exact ⟨fun well => well.2.2, fun well => ⟨fits, trivial, well⟩⟩

private theorem handshakeBytes_well (sound : Sound site.world.config x.session)
    (unfinished : x.session.handshakeDone = false) (ready : x.session.clientTlsReady = true) :
    Yields site (fun _ _ => ¬ RequestWell env next x.session x.calls bytes)
      (sessionHandleHandshakeBytes env site.id bytes)
        (fun _ y => Sound site.world.config y.session ∧ y.session.clientTlsReady = true ∧
          (RequestWell env next x.session x.calls bytes ↔ next y.session y.calls)) x := by
  have gathered : Sound site.world.config { x.session with handshake := x.session.handshake ++ bytes } := { sound with }
  apply handshakeBytes_cases sound unfinished
  · intro long well
    exact absurd well.1 (Nat.not_le.mpr long)
  · intro fits again
    refine ⟨gathered, ready, ?_⟩
    rw [RequestWell]
    simp only [again]
    exact ⟨fun well => well.2.2, fun well => ⟨fits, trivial, well⟩⟩
  · intro error _ other failed well
    obtain ⟨-, rest⟩ := well
    simp only [failed] at rest
    exact other rest.1
  · intro response consumed session calls _ granted _ failed well
    obtain ⟨-, rest⟩ := well
    simp only [granted] at rest
    cases connect : env.connect x.calls with
    | error error =>
      simp only [connect] at rest
    | ok reply =>
      obtain ⟨error, added⟩ := failed reply connect
      simp only [connect] at rest
      cases added.symm.trans rest.1
  · intro response consumed fd inProgress fits granted connect added
    have open_ := (sound.early unfinished).1
    have kept : Sound site.world.config (upgraded { x.session with handshake := x.session.handshake ++ bytes }
        response fd inProgress (env.time (x.calls + 1))) :=
      sound_readsClient gathered (show ReadsClient True ⟨_, [], []⟩ ⟨_, _, _⟩ from
        .accepted response consumed fd inProgress _ unfinished open_ ready granted fun _ => trivial)
    have account := (requestWell_granted fits granted connect added : RequestWell env next x.session x.calls bytes ↔ _)
    rw [framesWell_absorb _ (Nat.lt_succ_self _) kept rfl] at account
    apply (handshakeRest_absorbs rfl kept rfl).weaken
    · intro _ y taken
      obtain ⟨t, entries, rc, absorbed, fine, session, -, counted, sound, done⟩ := taken
      have later : Sound site.world.config y.session := session ▸ { sound with }
      refine ⟨later, session ▸ (sound.late done).2.2, ?_⟩
      apply (account.trans (iff_of_eq (congrArg (Fine _) absorbed))).trans
      rw [counted, session]
      exact and_iff_right fine
    · intro stopped _ left well
      rcases left with ⟨lost, -⟩ | ⟨t, entries, error, refused, other⟩
      · exact (iff_of_eq (congrArg (Fine _) lost)).mp (account.mp well)
      · have fine := ((iff_of_eq (congrArg (Fine _) refused)).mp (account.mp well)).1
        rcases fine with impossible | same
        · cases impossible
        · exact other (Except.error.inj same)

private theorem readClientBytes_well (sound : Sound site.world.config x.session)
    (ready : x.session.clientTlsReady = true) :
    Yields site (fun _ _ => ¬ BytesWell env next x.session x.calls bytes) (readClientBytes env site.id bytes)
      (fun more y => Sound site.world.config y.session ∧ y.session.clientTlsReady = true ∧
        (more = true ↔ y.session.handshakeDone = true ∧ bufferIsHigh y.session.clientToTarget = false) ∧
        (BytesWell env next x.session x.calls bytes ↔ next y.session y.calls)) x := by
  rw [readClientBytes, yields_deref]
  by_cases done : x.session.handshakeDone = true
  · rw [if_neg (by simp [done]), BytesWell, if_pos done, framesWell_absorb _ (Nat.lt_succ_self _) sound done]
    refine yields_bind_stops (sessionProcessWsBytes_absorbs bytes sound done) ?_ ?_ ?_
    · intro rc y computes
      obtain ⟨entries, absorbed, -⟩ := computes.absorbs
      rw [absorbed]
      by_cases fine : rc = .ok () ∨ rc = .error .again
      · have kept := computes.sound fine
        rw [if_neg (by tauto), yields_deref]
        refine yields_pure ⟨kept, (kept.late computes.done).2.2, by simp [computes.done], ?_⟩
        rw [computes.calls]
        exact and_iff_right fine
      · rw [if_pos (by tauto)]
        exact yields_bind (m := fun _ _ => False) (yields_close computes.live fun well => fine well.1)
          (fun _ _ impossible => impossible.elim) fun _ => .pure _
    · intro y impossible
      cases impossible.1
    · intro y gone
      rw [gone.2.lost]
      exact id
  · have unfinished : x.session.handshakeDone = false := by simpa using done
    rw [if_pos (by simp [unfinished]), BytesWell, if_neg done]
    refine yields_bind_misses (handshakeBytes_well sound unfinished ready) ?_ (fun _ => .deref_bind _)
      fun _ gone => gone
    intro _ y taken
    obtain ⟨kept, still, account⟩ := taken
    rw [yields_deref]
    split
    next waits =>
      have early : y.session.handshakeDone = false := by simpa [kept.live] using waits
      exact yields_pure ⟨kept, still, by simp [early], account⟩
    next finished =>
      have late : y.session.handshakeDone = true := by simpa [kept.live] using finished
      exact yields_pure ⟨kept, still, by simp [late], account⟩

private theorem readClientLoop_well (budget : Nat) (sound : Sound site.world.config x.session)
    (ready : x.session.clientTlsReady = true) :
    Yields site (fun _ _ => ¬ ClientReadsWell env next budget x.session x.calls) (readClientLoop env site.id budget)
      (fun _ y => Sound site.world.config y.session ∧
      (ClientReadsWell env next budget x.session x.calls ↔ next y.session y.calls)) x := by
  induction budget generalizing x with
  | zero =>
    rw [readClientLoop, yields_deref]
    exact yields_pure ⟨sound, Iff.rfl⟩
  | succ budget ih =>
    rw [ClientReadsWell]
    apply readClientLoop_turn
    · intro closing
      rw [if_pos (.inl closing)]
      exact ⟨sound, Iff.rfl⟩
    · intro _ full
      rw [if_pos (.inr full)]
      exact ⟨sound, Iff.rfl⟩
    · intro open_ room reply
      rw [if_neg (by tauto), reply]
      exact ⟨{ sound with }, and_iff_right rfl⟩
    · intro error open_ room other reply
      rw [if_neg (by tauto), reply]
      exact fun well => other well.1
    · intro bytes open_ room reply
      rw [if_neg (by tauto), reply]
      simp only
      have touched : Sound site.world.config { x.session with lastActivityAt := env.time (x.calls + 1) } :=
        { sound with }
      refine yields_bind (readClientBytes_well touched ready) ?_ fun _ => .onlyIf (readClientLoop_inert _)
      intro more y taken
      obtain ⟨kept, still, goes, account⟩ := taken
      apply yields_onlyIf
      · intro again
        rw [if_pos (goes.mp again)] at account
        rw [account]
        exact ih kept still
      · intro stops
        rw [if_neg fun onward => stops (goes.mpr onward)] at account
        exact ⟨kept, account⟩

private theorem refillClientOut_well (sound : Sound site.world.config x.session) :
    Yields site (fun _ _ => ¬ Lingers x.session)
      (refillClientOut site.id) (fun _ y => y.session.closing ≠ .released ∧ Lingers x.session) x := by
  have open_lingers : x.session.closing = .no → Lingers x.session := by
    intro open_ started
    cases open_.symm.trans started
  apply refillClientOut_cases sound
  · exact fun busy => ⟨sound.live, fun _ _ => busy⟩
  · intro frame _ pending _
    refine ⟨sound.live, fun _ settled => ?_⟩
    cases pending.symm.trans settled
  · exact fun sent settled started lingers => sent (lingers started settled)
  · exact fun frame _ _ open_ _ _ _ => ⟨sound.live, open_lingers open_⟩
  · exact fun _ _ open_ => ⟨sound.live, open_lingers open_⟩

private theorem writeClientLoop_well (budget : Nat) (sound : Sound site.world.config x.session) :
    Yields site (fun _ _ => ¬ ClientWritesWell env budget x.session x.calls) (writeClientLoop env site.id budget)
      (fun finished y => Sound site.world.config y.session ∧
        (ClientWritesWell env budget x.session x.calls ↔ (finished = true → Lingers y.session))) x := by
  induction budget generalizing x with
  | zero =>
    rw [writeClientLoop, yields_deref]
    exact yields_pure ⟨sound, fun lingers _ => lingers, fun lingers => lingers rfl⟩
  | succ budget ih =>
    rw [ClientWritesWell]
    apply writeClientLoop_turn sound
    · intro idle
      rw [if_neg idle]
      exact ⟨sound, fun lingers _ => lingers, fun lingers => lingers rfl⟩
    · intro busy reply
      rw [if_pos busy, reply]
      refine ⟨{ sound with }, fun _ ends => ?_, fun _ => rfl⟩
      cases ends
    · intro error busy other reply
      rw [if_pos busy, reply]
      exact other
    · intro sent busy reply
      obtain ⟨fits, -⟩ := transportWrite_fits reply
      have slot : Sound site.world.config { x.session with clientOutPos := x.session.clientOutPos + sent } :=
        sound_writesClient sound (show WritesClient ⟨_, [], []⟩ ⟨_, _, _⟩ from .sent sent busy fits)
      rw [if_pos busy, reply]
      exact ih { slot with }

private theorem sessionWriteClient_well (sound : Sound site.world.config x.session) :
    Yields site (fun _ _ => ¬ ClientWritesWell env site.world.config.writeBudget x.session x.calls)
      (sessionWriteClient env site.id)
        (fun _ y => y.session.closing ≠ .released ∧
      ClientWritesWell env site.world.config.writeBudget x.session x.calls) x := by
  rw [sessionWriteClient, yields_config]
  refine yields_bind (writeClientLoop_well _ sound) ?_ fun _ => .onlyIf refillClientOut_inert
  intro finished y written
  obtain ⟨kept, account⟩ := written
  rw [account]
  apply yields_onlyIf
  · intro ends
    apply (refillClientOut_well kept).weaken
    · exact fun _ z holds => ⟨holds.1, fun _ => holds.2⟩
    · exact fun _ z drained well => drained (well ends)
  · exact fun stops => ⟨kept.live, fun ends => absurd ends stops⟩

/-! The parts of a target event. -/

private theorem readTargetLoop_well (budget : Nat) (sound : Sound site.world.config x.session)
    (started : x.session.handshakeDone = true) :
    Yields site (fun _ _ => ¬ TargetReadsWell env next budget x.session x.calls) (readTargetLoop env site.id budget)
      (fun _ y => Sound site.world.config y.session ∧
      (TargetReadsWell env next budget x.session x.calls ↔ next y.session y.calls)) x := by
  induction budget generalizing x with
  | zero =>
    rw [readTargetLoop, yields_deref]
    exact yields_pure ⟨sound, Iff.rfl⟩
  | succ budget ih =>
    have valid := sound.targetToClient.valid
    rw [TargetReadsWell]
    apply readTargetLoop_turn sound.live
    · intro high
      rw [if_pos high]
      exact ⟨sound, Iff.rfl⟩
    · intro low reply
      simp only [low, reply, Bool.false_eq_true, if_false]
      exact ⟨{ sound with }, and_iff_right trivial⟩
    · intro error low other reply
      simp only [low, reply, Bool.false_eq_true, if_false]
      exact fun well => other well.1
    · intro bytes low reply failed
      simp only [low, reply, Bool.false_eq_true, if_false]
      exact fun well => bufferWrite_short valid failed well.1
    · intro bytes low reply stored
      simp only [low, reply, Bool.false_eq_true, if_false, and_iff_right (bufferWrite_whole valid stored)]
      have kept : Sound site.world.config { x.session with
          lastActivityAt := env.time (x.calls + 1), targetToClient :=
              (bufferWrite x.session.targetToClient bytes).buffer } := by
        refine { sound with targetToClient := sound.targetToClient.written _, early := fun unfinished => ?_ }
        cases started.symm.trans unfinished
      exact ih kept started

private theorem writeTargetLoop_well (budget : Nat) (live : x.session.closing ≠ .released) :
    Yields site (fun _ _ => ¬ TargetWritesWell env budget x.session x.calls) (writeTargetLoop env site.id budget)
      (fun _ y => y.session.closing ≠ .released ∧ TargetWritesWell env budget x.session x.calls) x := by
  induction budget generalizing x with
  | zero =>
    rw [writeTargetLoop, yields_deref]
    exact yields_pure ⟨live, trivial⟩
  | succ budget ih =>
    rw [TargetWritesWell]
    apply writeTargetLoop_turn live
    · intro empty
      rw [if_pos empty]
      exact ⟨live, trivial⟩
    · intro some_ reply
      rw [if_neg some_, reply]
      exact ⟨live, rfl⟩
    · intro error some_ other reply
      rw [if_neg some_, reply]
      exact other
    · intro sent some_ reply
      rw [if_neg some_, reply]
      exact ih live

/-! The handlers. -/

/-- A handler stops if a part went wrong, and only then. -/
def Tells (well : Prop) (stopped : Bool) (_ : Own) : Prop := stopped = true ↔ ¬ well

private theorem tells_closed {well : Prop} (holds : well) : Tells well false x :=
  iff_of_false Bool.false_ne_true (not_not.mpr holds)

private theorem runUnlessReleased_well {well : Prop} {part rest : Proc Unit} {middle : Own → Prop}
    (first : Yields site (fun _ _ => ¬ well) part (fun _ => middle) x)
    (live : ∀ y, middle y → y.session.closing ≠ .released)
    (last : ∀ y, middle y → Yields site (Tells well) rest (fun _ _ => well) y) :
    Yields site (Tells well) (runUnlessReleased site.id part rest) (fun _ _ => well) x := by
  refine yields_bind_misses first ?_ (fun _ => .deref_bind _) fun _ wrong => iff_of_true rfl wrong
  intro _ y holds
  rw [yields_deref, if_neg (live y holds)]
  exact last y holds

private theorem updateEvents_well {well : Prop} (live : x.session.closing ≠ .released) (holds : well) :
    Yields site (Tells well) (sessionUpdateEvents env site.id) (fun _ _ => well) x :=
  updateEvents_yields live fun _ _ _ _ => holds

/-- The two parts of a handler, one behind the other. -/
theorem parts_well {reads : (Session → Nat → Prop) → Session → Nat → Prop}
    {writes : Session → Nat → Prop} {readPart writePart : Proc Unit}
    (sound : Sound site.world.config x.session)
    (reading : ∀ next, Yields site (fun _ _ => ¬ reads next x.session x.calls) readPart
      (fun _ y => Sound site.world.config y.session ∧ (reads next x.session x.calls ↔ next y.session y.calls)) x)
    (writing : ∀ y : Own, Sound site.world.config y.session → Yields site (fun _ _ =>
      ¬ writes y.session y.calls) writePart (fun _ z => z.session.closing ≠ .released ∧ writes y.session y.calls) y) :
    Yields site (Tells (PartsWell events reads writes x.session x.calls))
      (let write := if events.write then runUnlessReleased site.id writePart (sessionUpdateEvents env site.id)
       else sessionUpdateEvents env site.id
       if events.read then runUnlessReleased site.id readPart write else write)
      (fun _ _ => PartsWell events reads writes x.session x.calls) x := by
  have written : ∀ y : Own, Sound site.world.config y.session →
      Yields site (Tells (events.write = true → writes y.session y.calls))
      (if events.write then runUnlessReleased site.id writePart (sessionUpdateEvents env site.id)
        else sessionUpdateEvents env site.id)
      (fun _ _ => events.write = true → writes y.session y.calls) y := by
    intro y kept
    split
    next write =>
      have first :=
        (writing y kept).weaken (fun _ _ holds => And.imp_right (fun well (_ : events.write = true) => well) holds)
          fun _ _ wrong (well : events.write = true → writes y.session y.calls) => wrong (well write)
      exact runUnlessReleased_well first (fun z holds => holds.1) fun z holds => updateEvents_well holds.1 holds.2
    next silent => exact updateEvents_well kept.live fun write => absurd write silent
  dsimp only
  by_cases read : events.read = true
  · rw [PartsWell, if_pos read, if_pos read]
    apply runUnlessReleased_well (reading _) (fun y holds => holds.1.live)
    intro y holds
    rw [holds.2]
    exact written y holds.1
  · rw [PartsWell, if_neg read, if_neg read]
    exact written x sound

private theorem clientTransfer_well (sound : Sound site.world.config x.session)
    (ready : x.session.clientTlsReady = true) :
    Yields site (Tells (ClientPartsWell site.world.config env events x.session x.calls))
      (clientTransfer env site.id events)
        (fun _ _ => ClientPartsWell site.world.config env events x.session x.calls) x := by
  apply parts_well sound
  · intro next
    rw [sessionReadClient, yields_config]
    exact readClientLoop_well _ sound ready
  · exact fun y kept => sessionWriteClient_well kept

private theorem sessionHandleClientEvent_well (sound : Sound site.world.config x.session)
    (begun : x.calls = 0) :
    Yields site (Tells (ClientWell site.world.config env events x.session))
      (sessionHandleClientEvent env site.id events)
        (fun _ _ => ClientWell site.world.config env events x.session) x := by
  rw [sessionHandleClientEvent]
  split
  next error => exact yields_close sound.live (tells_closed (.inl error))
  next fine =>
    rw [yields_deref]
    by_cases ready : x.session.clientTlsReady = true
    · have account : ClientWell site.world.config env events x.session ↔
          ClientPartsWell site.world.config env events x.session x.calls := by
        rw [ClientWell, if_pos ready, begun]
        exact or_iff_right fine
      rw [if_neg (by simp [ready]), account]
      exact clientTransfer_well sound ready
    · have account : ClientWell site.world.config env events x.session ↔
            (transportHandshake env x.calls x.session.clientTransport = .ok () →
          ClientPartsWell site.world.config env events { x.session with clientTlsReady := true } (x.calls + 1)) := by
        rw [ClientWell, if_neg ready, begun]
        exact or_iff_right fine
      rw [if_pos (by simpa using ready), account, yields_driveClient (by simpa using ready)]
      cases reply : transportHandshake env x.calls x.session.clientTransport with
      | ok =>
        simp only [forall_const]
        exact clientTransfer_well
          { sound with late := fun done => ⟨(sound.late done).1, (sound.late done).2.1, rfl⟩ } rfl
      | error error =>
        have vacuous : (Except.error error : Except Err Unit) = .ok () →
            ClientPartsWell site.world.config env events { x.session with clientTlsReady := true } (x.calls + 1) := by
          intro impossible
          cases impossible
        simp only
        split
        · exact updateEvents_well sound.live vacuous
        · exact yields_close sound.live (tells_closed vacuous)

private theorem targetTransfer_well (sound : Sound site.world.config x.session)
    (done : x.session.handshakeDone = true) :
    Yields site (Tells (TargetPartsWell site.world.config env events x.session x.calls))
      (targetTransfer env site.id events)
        (fun _ _ => TargetPartsWell site.world.config env events x.session x.calls) x := by
  apply parts_well sound
  · intro next
    rw [sessionReadTarget, yields_config]
    exact readTargetLoop_well _ sound done
  · intro y kept
    rw [sessionWriteTarget, yields_config]
    exact writeTargetLoop_well _ kept.live

private theorem targetSecured_well (sound : Sound site.world.config x.session) (done : x.session.handshakeDone = true) :
    Yields site (Tells (SecuredWell site.world.config env events x.session x.calls)) (targetSecured env site.id events)
      (fun _ _ => SecuredWell site.world.config env events x.session x.calls) x := by
  rw [targetSecured, yields_deref, SecuredWell]
  by_cases waiting : x.session.targetConnecting = false ∧ x.session.targetTlsReady = false
  · obtain ⟨connected, unready⟩ := waiting
    rw [if_pos ⟨connected, unready⟩, if_pos (by simp [connected, unready]), yields_driveTarget unready]
    cases reply : transportHandshake env x.calls x.session.targetTransport with
    | ok =>
      simp only [forall_const]
      exact targetTransfer_well { sound with } done
    | error error =>
      have vacuous : (Except.error error : Except Err Unit) = .ok () →
          TargetPartsWell site.world.config env events { x.session with targetTlsReady := true } (x.calls + 1) := by
        intro impossible
        cases impossible
      simp only
      split
      · exact updateEvents_well sound.live vacuous
      · exact yields_close sound.live (tells_closed vacuous)
  · rw [if_neg waiting, if_neg (by simpa using waiting)]
    exact targetTransfer_well sound done

theorem Completes.unique {t u : Session} {n m : Nat} (one : Completes config env s t n)
    (other : Completes config env s u m) : t = u ∧ n = m := by
  cases one with
  | plain _ insecure =>
    cases other with
    | plain => exact ⟨rfl, rfl⟩
    | tls _ _ secure _ => cases secure.symm.trans insecure
  | tls first _ secure created =>
    cases other with
    | plain _ insecure => cases secure.symm.trans insecure
    | tls second _ _ again =>
      cases created.symm.trans again
      exact ⟨rfl, rfl⟩

/-- The connect completes, or the handler has nothing more to do. -/
theorem completeTargetConnect_completes (sound : Sound site.world.config x.session)
    (done : x.session.handshakeDone = true) (pending : x.session.targetConnecting = true)
    (begun : x.calls = 0) (context : site.world.targetTlsContext = site.world.config.targetTlsEnabled) :
    Yields site (fun _ _ => False) (sessionCompleteTargetConnect env site.id)
      (fun rc y => y.session.closing ≠ .released ∧
          if rc = .ok () then Completes site.world.config env x.session y.session y.calls ∧
          Sound site.world.config y.session ∧ y.session.handshakeDone = true
        else ∀ t n, ¬ Completes site.world.config env x.session t n) x := by
  have present : site.world.config.targetTlsEnabled = true → site.world.targetTlsContext = true :=
    fun secure => context.trans secure
  apply completeTargetConnect_cases pending
  · intro failed
    rw [begun] at failed
    refine ⟨sound.live, ?_⟩
    rw [if_neg (by simp)]
    intro t n completes
    cases completes with
    | plain connected => exact failed connected
    | tls _ connected => exact failed connected
  · intro worked insecure
    rw [begun] at worked ⊢
    refine ⟨sound.live, ?_⟩
    rw [if_pos rfl]
    exact ⟨.plain worked insecure, sound_actsTarget sound (show ActsTarget _ True ⟨_, [], []⟩ ⟨_, _, _⟩ from
      .connectedPlain _ insecure pending), done⟩
  · intro error calls _ secure refused
    have failed := refused (present secure)
    rw [begun] at failed
    refine ⟨sound.live, ?_⟩
    rw [if_neg (by simp)]
    intro t n completes
    cases completes with
    | plain _ insecure => cases secure.symm.trans insecure
    | tls connection _ _ created => cases failed.symm.trans created
  · intro connection worked secure created
    rw [begun] at worked created ⊢
    refine ⟨sound.live, ?_⟩
    rw [if_pos rfl]
    exact ⟨.tls connection worked secure created,
      sound_actsTarget sound (show ActsTarget _ True ⟨_, [], []⟩ ⟨_, _, _⟩ from
      .connectedTls _ connection secure pending), done⟩

private theorem sessionHandleTargetEvent_well (sound : Sound site.world.config x.session)
    (registered : x.session.targetRegistered = true) (begun : x.calls = 0)
    (context : site.world.targetTlsContext = site.world.config.targetTlsEnabled) :
    Yields site (Tells (TargetWell site.world.config env events x.session))
      (sessionHandleTargetEvent env site.id events)
        (fun _ _ => TargetWell site.world.config env events x.session) x := by
  have done : x.session.handshakeDone = true := by
    by_contra unfinished
    obtain ⟨-, -, -, -, -, -, unregistered, -⟩ := sound.early (by simpa using unfinished)
    cases registered.symm.trans unregistered
  rw [sessionHandleTargetEvent]
  split
  next error => exact yields_close sound.live (tells_closed (.inl error))
  next fine =>
    rw [yields_deref]
    by_cases completes : x.session.targetConnecting = true ∧ events.write = true
    · have account : TargetWell site.world.config env events x.session ↔
            ∀ t n, Completes site.world.config env x.session t n →
          SecuredWell site.world.config env events t n := by
        rw [TargetWell, if_pos completes]
        exact or_iff_right fine
      rw [if_pos completes, account]
      refine yields_bind_kept (completeTargetConnect_completes sound done completes.1 begun context) ?_
      rintro rc y ⟨live, outcome⟩
      split at outcome
      next ok =>
        obtain ⟨completed, kept, still⟩ := outcome
        have only :
            (∀ t n, Completes site.world.config env x.session t n → SecuredWell site.world.config env events t n) ↔
            SecuredWell site.world.config env events y.session y.calls := by
          constructor
          · exact fun every => every _ _ completed
          · intro well t n other
            obtain ⟨rfl, rfl⟩ := completed.unique other
            exact well
        rw [if_neg (by simp [ok]), only]
        exact targetSecured_well kept still
      next failed =>
        rw [if_pos failed]
        exact yields_close live (tells_closed fun t n completed => absurd completed (outcome t n))
    · have account : TargetWell site.world.config env events x.session ↔
          SecuredWell site.world.config env events x.session x.calls := by
        rw [TargetWell, if_neg completes, begun]
        exact or_iff_right fine
      rw [if_neg completes, account]
      exact targetSecured_well sound done

def Handles : Call → Prop
  | .client _ _ | .target _ _ => True
  | .accept _ | .tick => False

def Well (config : Config) (w : World) (env : Env) : Call → Prop
  | .client id events => ∀ s, w.session? id = some s → ClientWell config env events s
  | .target id events => ∀ s, w.session? id = some s → TargetWell config env events s
  | .accept _ | .tick => True

def FindsAll (w : World) (env : Env) (call : Call) : Prop := ∀ id, (call.run env w.begin).1 ≠ .error (.noSuchSession id)

private theorem findsAll_of_ok {call : Call} (worked : (call.run env w.begin).1 = .ok ()) : FindsAll w env call := by
  intro id failed
  cases worked.symm.trans failed

private theorem tells_lookups {well : Prop} {program : Proc Unit}
    (yields : Yields site (Tells well) program (fun _ _ => well) x) :
    (∀ id, (program (site.place x)).1 ≠ .error (.noSuchSession id)) ↔ well := by
  unfold Yields Ensures at yields
  generalize program (site.place x) = result at *
  obtain ⟨outcome, after⟩ := result
  cases outcome with
  | error reason =>
    obtain ⟨missing, y, tells, -⟩ := yields
    exact iff_of_false (fun finds => finds site.id (congrArg Except.error missing)) (tells.mp rfl)
  | ok =>
    refine iff_of_true (fun id impossible => by cases impossible) ?_
    rcases yields with ⟨y, holds, -⟩ | ⟨y, tells, -⟩
    · exact holds
    · by_contra wrong
      cases tells.mpr wrong

private theorem handler_finds {call : Call} (reachable : Reachable config w) (handles : Handles call)
    (enabled : call.Enabled w) :
    FindsAll w env call ↔ Well config w env call := by
  have inv := reachable_invariant reachable
  obtain ⟨order, linked⟩ := inv.linked
  have same : w.config = config := inv.configured
  have context : w.targetTlsContext = w.config.targetTlsEnabled := same ▸ inv.contexts.2
  cases call with
  | client id events =>
    obtain ⟨s, alive, -⟩ := enabled
    have sound : Sound w.config s := same ▸ (inv.lived id s alive).sound
    let site := siteOf linked alive
    let own : Own := ⟨s, w.log id, w.interest id, 0⟩
    have handled : Yields site (Tells (ClientWell site.world.config env events own.session))
        (sessionHandleClientEvent env site.id events)
        (fun _ _ => ClientWell site.world.config env events own.session) own := sessionHandleClientEvent_well sound rfl
    have told := tells_lookups handled
    rw [show site.place own = w.begin from site.place_own alive] at told
    apply told.trans
    change ClientWell w.config env events s ↔ ∀ t, w.session? id = some t → ClientWell config env events t
    rw [same, alive]
    simp
  | target id events =>
    obtain ⟨s, alive, registered⟩ := enabled
    have sound : Sound w.config s := same ▸ (inv.lived id s alive).sound
    let site := siteOf linked alive
    let own : Own := ⟨s, w.log id, w.interest id, 0⟩
    have handled : Yields site (Tells (TargetWell site.world.config env events own.session))
        (sessionHandleTargetEvent env site.id events)
        (fun _ _ => TargetWell site.world.config env events own.session) own :=
          sessionHandleTargetEvent_well sound registered rfl context
    have told := tells_lookups handled
    rw [show site.place own = w.begin from site.place_own alive] at told
    apply told.trans
    change TargetWell w.config env events s ↔ ∀ t, w.session? id = some t → TargetWell config env events t
    rw [same, alive]
    simp
  | accept => exact handles.elim
  | tick => exact handles.elim

/-- In a run of callbacks that go well, and in no other callback from a state that
can be reached, every lookup of a handler finds its session. -/
theorem lookups_succeed (config : Config) :
    (∀ w env call, Runs (Well config) (serverInit config) w →
    Handles call → call.Enabled w → Well config w env call → FindsAll w env call) ∧
    ∀ w env call, Reachable config w → Handles call →
    call.Enabled w → (FindsAll w env call ↔ Well config w env call) := by
  constructor
  · intro w env call run handles enabled well
    have reachable : Reachable config w := Relation.ReflTransGen.mono (fun _ _ step => by
      obtain ⟨env, call, -, enabled, same⟩ := step
      exact ⟨env, call, trivial, enabled, same⟩) _ _ run
    exact (handler_finds reachable handles enabled).mpr well
  · exact fun w env call reachable handles enabled => handler_finds reachable handles enabled

theorem lookups_succeed_opened :
    FindsAll (opened (sampleConfig 64) true) (.scripted [] true 4096) (.client 0 .writing) := by
  obtain ⟨⟨asks, upgrade⟩, flushes, written⟩ : ((Call.client 0 .reading).Enabled (connected (sampleConfig 64)) ∧
      ((Call.client 0 .reading).run (.scripted [.ok sampleRequest] true 0) (connected (sampleConfig 64)).begin).1 =
        .ok ()) ∧
      (Call.client 0 .writing).Enabled (opened (sampleConfig 64) true) ∧
      ((Call.client 0 .writing).run (.scripted [] true 4096) (opened (sampleConfig 64) true).begin).1 = .ok () := by
    decide +kernel
  obtain ⟨runs, finds⟩ := lookups_succeed (sampleConfig 64)
  have granted :=
    (finds _ (.scripted [.ok sampleRequest] true 0) (.client 0 .reading) (connected_runs trivial) trivial asks).mp
      (findsAll_of_ok upgrade)
  have flushed :=
    (finds _ (.scripted [] true 4096) (.client 0 .writing) (opened_runs trivial trivial asks) trivial flushes).mp
      (findsAll_of_ok written)
  exact runs _ _ (.client 0 .writing) (opened_runs trivial granted asks) trivial flushes flushed

/-- The connection of the client is lost. -/
theorem read_consults_released :
    (sampleConfig 64).Accepted ∧ Reachable (sampleConfig 64) (opened (sampleConfig 64) true) ∧
    (Call.client 0 .reading).Enabled (opened (sampleConfig 64) true) ∧
    ((Call.client 0 .reading).run (.scripted [.error .closed] true 0) (opened (sampleConfig 64) true).begin).1 =
    .error (.noSuchSession 0) :=
  ⟨by decide, And.imp_left (opened_runs trivial trivial) (by decide +kernel)⟩

end Sockify.Proofs.ReleasedLookups
