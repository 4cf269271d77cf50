import Sockify.Proofs.Lifetimes
import Sockify.Proofs.UpgradeSegmentation

/-! Runs in which a new session reads its upgrade request: what becomes of the
session is what the gathered bytes are answered with, read by read. -/

namespace Sockify.Proofs.UpgradeRuns
open Sockify Stateful Behaviour SessionLogic SessionSteps Soundness Simulation Lifetimes UpgradeSegmentation

/-- The response that a session has placed in its slot. -/
def upgradeResponse (log : List Io) : Option Bytes :=
  log.findSome? fun
    | .response bytes => some bytes
    | _ => none

/-- The session has queued this response, and counts as upgraded while it lives. -/
def Accepts (w : World) (id : SessionId) (response : Bytes) : Prop :=
  upgradeResponse (w.log id) = some response ∧ ∀ s, w.session? id = some s → s.handshakeDone = true

def Starts (env : Env) : Prop := (∀ n, ∃ reply, env.connect n = .ok reply) ∧ ∀ n, env.loopAdd n .target = .ok ()

/-- The first read of a callback brings these bytes. -/
def Brings (env : Env) (s : Session) (chunk : Bytes) : Prop := transportRead env 0 s.clientTransport ioChunk = .ok chunk

structure Waits (w : World) (id : SessionId) (s : Session) : Prop where
  alive : w.session? id = some s
  unfinished : s.handshakeDone = false
  ready : s.clientTlsReady = true

/-- A run in which the session reads these chunks until it is upgraded or
released. Other callbacks may come between the reads. -/
inductive Delivers (id : SessionId) : World → List Bytes → World → Prop
  | whole (w : World) : Delivers id w [] w
  | settled {w chunks} (left : ∀ s, ¬ Waits w id s) : Delivers id w chunks w
  | between {w after last s chunks} (step : Step (fun _ _ _ => True) w after) (waits : Waits w id s)
      (still : after.session? id = some s) (rest : Delivers id after chunks last) : Delivers id w chunks last
  | read {w last s chunk chunks} (env : Env)
      (events : Events) (reads : events.read = true) (fine : events.error = false)
      (starts : Starts env) (waits : Waits w id s) (brings : Brings env s chunk)
      (rest : Delivers id (w.after env (.client id events)) chunks last) : Delivers id w (chunk :: chunks) last

/-- What one read leaves of a session and of its response. -/
inductive Upshot (s : Session) (chunk : Bytes) : Option Session → Option Bytes → Prop
  | waits (t : Session) (fits : chunk.length ≤ wsMaxHttpRequest - s.handshake.length)
      (again : wsBuildHandshakeResponse (s.handshake ++ chunk) 256 = .error .again)
      (unfinished : t.handshakeDone = false)
      (gathered : t.handshake = s.handshake ++ chunk) (ready : t.clientTlsReady = true)
      (transport : t.clientTransport = s.clientTransport) : Upshot s chunk (some t) none
  | oversized (excess : chunk.length > wsMaxHttpRequest - s.handshake.length) : Upshot s chunk none none
  | invalid (error : Err) (fits : chunk.length ≤ wsMaxHttpRequest - s.handshake.length) (other : error ≠ .again)
      (refused : wsBuildHandshakeResponse (s.handshake ++ chunk) 256 = .error error) : Upshot s chunk none none
  | accepted (state : Option Session)
      (response : Bytes) (consumed : Nat) (fits : chunk.length ≤ wsMaxHttpRequest - s.handshake.length)
      (granted : wsBuildHandshakeResponse (s.handshake ++ chunk) 256 = .ok (response, consumed))
      (done : ∀ t, state = some t → t.handshakeDone = true) : Upshot s chunk state (some response)

variable {config : Config} {w after last : World} {id : SessionId} {s t : Session} {env : Env}
  {events : Events} {site : Site} {x y : Own}
variable {stream chunk response : Bytes} {chunks : List Bytes} {l l' more : List Io} {h h' : Bytes}
  {consumed : Nat} {m n : Moment}

private theorem upgradeResponse_append :
    upgradeResponse (l ++ more) = (upgradeResponse l).or (upgradeResponse more) :=
  List.findSome?_append

/-- A session that is upgraded stays so, and its response is the one in the record. -/
def AnsweredWith (response : Bytes) (m : Moment) : Prop :=
  m.session.handshakeDone = true ∧ upgradeResponse m.log = some response

private theorem upgraded_still (upgraded : AnsweredWith response ⟨s, l, h⟩)
    (done : t.handshakeDone = s.handshakeDone) (more : List Io) (logged : l' = l ++ more) :
    AnsweredWith response ⟨t, l', h'⟩ := by
  obtain ⟨before, answered⟩ := upgraded
  refine ⟨done.trans before, ?_⟩
  simp only at answered ⊢
  rw [logged, upgradeResponse_append, answered]
  rfl

private theorem upgraded_actsClient (upgraded : AnsweredWith response m)
    (act : ActsClient True .both m n) : AnsweredWith response n := by
  obtain ⟨s, l, h⟩ := m
  obtain ⟨t, l', h'⟩ := n
  rcases act with ⟨-, reads⟩ | ⟨-, writes⟩ | secures
  · cases reads with
    | gathered unfinished | accepted response consumed fd inProgress time unfinished =>
      exact absurd upgraded.1 (by simp [unfinished])
    | handled result msg done open_ room fed delivered effect =>
      cases effect <;> exact upgraded_still upgraded rfl _ rfl
    | touched | discarded | cleared => exact upgraded_still upgraded rfl [] (by simp)
    | _ => exact upgraded_still upgraded rfl _ rfl
  · cases writes with
    | touched | emptied => exact upgraded_still upgraded rfl [] (by simp)
    | _ => exact upgraded_still upgraded rfl _ rfl
  · cases secures <;> exact upgraded_still upgraded rfl _ rfl

private theorem ends_grows {prior : Prop} (ending : EndsClient prior m n) : ∃ more, n.log = m.log ++ more := by
  cases ending with
  | here | interrupted | drained => exact ⟨[], (List.append_nil _).symm⟩
  | unparsed | unstarted => exact ⟨_, rfl⟩

/-- The way of a session from the moment of its upgrade on. -/
structure Onward (response : Bytes) (scene : Scene site) : Prop where
  acts : scene.acts = ActsClient True .both
  start : AnsweredWith response scene.start

namespace Onward
variable {scene : Scene site} (onward : Onward response scene)
include onward

theorem path {hand : Bytes} (here : scene.At hand x) : AnsweredWith response ⟨x.session, x.log, hand⟩ := by
  apply path_keeps (AnsweredWith response) ?_ onward.start here
  intro m n answered act
  rw [onward.acts] at act
  exact upgraded_actsClient answered act

theorem left (left : scene.Left (EndsClient True) y) : upgradeResponse y.log = some response := by
  obtain ⟨m, hand, path, ending⟩ := left
  have answered : AnsweredWith response m := by
    apply path_keeps (AnsweredWith response) ?_ onward.start path
    intro m n answered act
    rw [onward.acts] at act
    exact upgraded_actsClient answered act
  obtain ⟨more, grown⟩ := ends_grows ending
  simp only at grown
  rw [grown, upgradeResponse_append, answered.2]
  rfl

theorem reads : ∀ m n, ReadsClient True m n → scene.acts m n := by
  intro m n act
  rw [onward.acts]
  exact .inl ⟨rfl, act⟩

theorem writes : ∀ m n, WritesClient m n → scene.acts m n := by
  intro m n act
  rw [onward.acts]
  exact .inr (.inl ⟨rfl, act⟩)

end Onward

private theorem onward_begins {hand : Bytes} {log : List Io} (sound : Sound site.world.config s)
    (done : s.handshakeDone = true) (answered : upgradeResponse log = some response)
    (interest : Side → Option Events) (calls : Nat) :
    ∃ scene : Scene site, Onward response scene ∧ scene.At hand ⟨s, log, interest, calls⟩ :=
  ⟨⟨ActsClient True .both, ⟨s, log, hand⟩, sound, fun _ _ sound act => sound_actsClient sound act⟩,
    ⟨rfl, done, answered⟩, .refl⟩

/-- The session behind a read of `chunk`: it still waits, or it is upgraded. -/
inductive Read (site : Site) (s : Session) (chunk : Bytes) (y : Own) : Prop
  | waits (unfinished : y.session.handshakeDone = false) (sound : Sound site.world.config y.session)
      (upshot : Upshot s chunk (some y.session) (upgradeResponse y.log))
  | upgraded (response : Bytes) (consumed : Nat) (fits : chunk.length ≤ wsMaxHttpRequest - s.handshake.length)
      (granted : wsBuildHandshakeResponse (s.handshake ++ chunk) 256 = .ok (response, consumed))
      (scene : Scene site) (onward : Onward response scene) (here : scene.At [] y)

/-- The session behind a read of `chunk` that has released it. -/
def Gone (s : Session) (chunk : Bytes) (y : Own) : Prop := Upshot s chunk none (upgradeResponse y.log)

private theorem handshakeBytes_reads (chunk : Bytes) (starts : Starts env)
    (sound : Sound site.world.config x.session) (unfinished : x.session.handshakeDone = false)
    (ready : x.session.clientTlsReady = true) (silent : upgradeResponse x.log = none) :
    Yields site (fun _ => Gone x.session chunk)
      (sessionHandleHandshakeBytes env site.id chunk) (fun _ => Read site x.session chunk) x := by
  have gathered : Sound site.world.config { x.session with handshake := x.session.handshake ++ chunk } := { sound with }
  apply handshakeBytes_cases sound unfinished
  · intro excess
    rw [Gone, silent]
    exact .oversized excess
  · intro fits again
    refine .waits unfinished gathered ?_
    rw [silent]
    exact .waits _ fits again unfinished rfl ready rfl
  · intro error fits other refused
    rw [Gone, silent]
    exact .invalid error fits other refused
  · intro _ _ _ _ _ _ _ failed
    obtain ⟨reply, connect⟩ := starts.1 x.calls
    obtain ⟨error, added⟩ := failed reply connect
    cases (starts.2 _).symm.trans added
  · intro response consumed fd inProgress fits granted connect added
    have soundly : Sound site.world.config
        (upgraded { x.session with handshake := x.session.handshake ++ chunk } response fd inProgress
        (env.time (x.calls + 1))) := sound_readsClient gathered
      (show ReadsClient True ⟨_, [], []⟩ ⟨_, _, _⟩ from
        .accepted response consumed fd inProgress
          (env.time (x.calls + 1)) unfinished (sound.early unfinished).1 ready granted fun _ => trivial)
    have answered : upgradeResponse (x.log ++ [.response response, .connect (.ok (fd, inProgress))]) =
        some response := by
      rw [upgradeResponse_append, silent]
      rfl
    obtain ⟨scene, onward, here⟩ :=
      onward_begins soundly rfl answered (Function.update x.interest .target (some .writing)) (x.calls + 2)
    have rest : Yields site (fun _ => scene.Left (EndsClient True)) (handshakeRest site.id consumed) _ _ :=
      handshakeRest_yields onward.reads here rfl
    refine rest.weaken ?_ ?_
    · intro _ y holds
      exact .upgraded response consumed fits granted scene onward holds.1
    · intro _ y left
      rw [Gone, onward.left left]
      refine .accepted none response consumed fits granted ?_
      intro t impossible
      cases impossible

theorem Upshot.congr {state : Option Session} {answered : Option Bytes}
    (upshot : Upshot s chunk state answered) (handshake : t.handshake = s.handshake)
    (transport : t.clientTransport = s.clientTransport) : Upshot t chunk state answered := by
  cases upshot with
  | waits u fits again unfinished gathered ready same =>
    rw [← handshake] at fits again gathered
    exact .waits u fits again unfinished gathered ready (same.trans transport.symm)
  | oversized excess => exact .oversized (handshake ▸ excess)
  | invalid error fits other refused => exact .invalid error (handshake ▸ fits) other (handshake ▸ refused)
  | accepted state response consumed fits granted done =>
    exact .accepted state response consumed (handshake ▸ fits) (handshake ▸ granted) done

theorem Read.congr (read : Read site s chunk y) (handshake : t.handshake = s.handshake)
    (transport : t.clientTransport = s.clientTransport) :
    Read site t chunk y := by
  cases read with
  | waits unfinished sound upshot => exact .waits unfinished sound (upshot.congr handshake transport)
  | upgraded response consumed fits granted scene onward here =>
    exact .upgraded response consumed (handshake ▸ fits) (handshake ▸ granted) scene onward here

theorem Read.sound (read : Read site s chunk y) : Sound site.world.config y.session := by
  cases read with
  | waits unfinished sound upshot => exact sound
  | upgraded response consumed fits granted scene onward here => exact here.sound

/-- The part of an event that reads, when its first read brings the chunk. -/
theorem readClient_reads (starts : Starts env) (sound : Sound site.world.config x.session)
    (unfinished : x.session.handshakeDone = false) (ready : x.session.clientTlsReady = true)
    (silent : upgradeResponse x.log = none) (budget : site.world.config.readBudget ≠ 0)
    (first : x.calls = 0) (brings : Brings env x.session chunk) :
    Yields site (fun _ => Gone x.session chunk)
      (sessionReadClient env site.id) (fun _ => Read site x.session chunk) x := by
  obtain ⟨still, -⟩ := sound.early unfinished
  obtain ⟨budget, turns⟩ := Nat.exists_eq_succ_of_ne_zero budget
  have limit : readLimit x.session = ioChunk := by rw [readLimit, if_neg (by simp [unfinished])]
  have brought : transportRead env x.calls x.session.clientTransport (readLimit x.session) = .ok chunk := by
    rw [first, limit]
    exact brings
  rw [sessionReadClient, yields_config, turns]
  apply readClientLoop_turn
  · exact fun closing => absurd still closing
  · intro _ full
    cases unfinished.symm.trans full.1
  · intro _ _ again
    cases brought.symm.trans again
  · intro error _ _ _ failed
    cases brought.symm.trans failed
  intro bytes _ _ reply
  obtain rfl : chunk = bytes := Except.ok.inj (brought.symm.trans reply)
  rw [readClientBytes, yields_bind_assoc, yields_deref, if_pos (by simp [unfinished]), yields_bind_assoc]
  have quiet : upgradeResponse
      (x.log ++ [.read .client x.session.clientTransport (readLimit x.session) (.ok chunk)]) = none := by
    rw [upgradeResponse_append, silent]
    rfl
  let touched : Own :=
    { x with
      session := { x.session with lastActivityAt := env.time (x.calls + 1) }
      log := x.log ++ [.read .client x.session.clientTransport (readLimit x.session) (.ok chunk)]
      calls := x.calls + 1 }
  have sound : Sound site.world.config touched.session := { sound with }
  have handshake := handshakeBytes_reads (x := touched) chunk starts sound unfinished ready quiet
  refine yields_bind (m := fun _ => Read site x.session chunk) ?_ ?_ ?_
  · refine handshake.weaken ?_ ?_
    · intro _ y read
      exact read.congr rfl rfl
    · intro _ y gone
      exact Upshot.congr gone rfl rfl
  · intro _ y read
    rw [yields_bind_assoc, yields_deref]
    split
    next waiting =>
      rw [yields_pure_bind]
      exact yields_onlyIf (fun again => by cases again) fun _ => read
    next done =>
      rw [yields_pure_bind]
      apply yields_onlyIf
      · intro _
        cases read with
        | waits unfinished => exact absurd (.inl (by simp [unfinished])) done
        | upgraded response consumed fits granted scene onward here =>
          have ready := (here.sound.late (onward.path here).1).2.2
          have turns : Yields site (fun _ => scene.Left (EndsClient True)) (readClientLoop env site.id budget) _ _ :=
            readClientLoop_yields onward.reads (fun _ => trivial) budget here ready
          refine turns.weaken ?_ ?_
          · intro _ z there
            exact .upgraded response consumed fits granted scene onward there
          · intro _ z left
            rw [Gone, onward.left left]
            refine .accepted none response consumed fits granted ?_
            intro t impossible
            cases impossible
      · exact fun _ => read
  · intro _
    exact .bind (.deref_bind _) fun _ => .onlyIf (readClientLoop_inert _)

theorem Read.moved (read : Read site s chunk x) (session : y.session = x.session) (log : y.log = x.log) :
    Read site s chunk y := by
  cases read with
  | waits unfinished sound upshot =>
    rw [← session] at unfinished sound upshot
    rw [← log] at upshot
    exact .waits unfinished sound upshot
  | upgraded response consumed fits granted scene onward here =>
    refine .upgraded response consumed fits granted scene onward ?_
    rw [Scene.At, session, log]
    exact here

/-- A session that still waits has nothing to write. -/
theorem writeClient_reads (read : Read site s chunk x) :
    Yields site (fun _ => Gone s chunk) (sessionWriteClient env site.id) (fun _ => Read site s chunk) x := by
  cases read with
  | waits unfinished sound upshot =>
    obtain ⟨still, settled, ⟨length, position⟩, -⟩ := sound.early unfinished
    rw [sessionWriteClient, yields_config]
    have idle : Yields site (fun _ => Gone s chunk) (refillClientOut site.id) (fun _ => Read site s chunk) x := by
      rw [refillClientOut, yields_deref,
        if_neg (by omega), yields_update, yields_deref, if_neg (by simp [settled]), if_neg (by simp [still]),
        if_neg (by simp [unfinished])]
      refine yields_pure (.waits unfinished ?_ ?_)
      · exact { sound with
          slot := ⟨Nat.le_refl _, Nat.zero_le _⟩
          early := fun unfinished => ⟨still, settled, ⟨rfl, rfl⟩, (sound.early unfinished).2.2.2⟩ }
      · generalize upgradeResponse x.log = answered at upshot ⊢
        cases upshot with
        | waits t fits again unfinished gathered ready transport =>
          exact .waits _ fits again unfinished gathered ready transport
        | accepted state response consumed fits granted done => exact absurd (done _ rfl) (by simp [unfinished])
    rw [writeClientLoop_idle _ _ (by exact length.trans position.symm), onlyIf, if_pos rfl]
    exact idle
  | upgraded response consumed fits granted scene onward here =>
    have writes : Yields site (fun _ => scene.Left (EndsClient True)) (sessionWriteClient env site.id) _ _ :=
      sessionWriteClient_yields onward.writes here fun _ _ => trivial
    refine writes.weaken ?_ ?_
    · intro _ z there
      exact .upgraded response consumed fits granted scene onward there.1
    · intro _ z left
      rw [Gone, onward.left left]
      refine .accepted none response consumed fits granted ?_
      intro t impossible
      cases impossible

private theorem clientEvent_reads (reads : events.read = true) (fine : events.error = false)
    (starts : Starts env) (sound : Sound site.world.config x.session)
    (unfinished : x.session.handshakeDone = false) (ready : x.session.clientTlsReady = true)
    (silent : upgradeResponse x.log = none) (budget : site.world.config.readBudget ≠ 0)
    (first : x.calls = 0) (brings : Brings env x.session chunk) :
    Yields site (fun _ => Gone x.session chunk) (sessionHandleClientEvent env site.id events)
      (fun _ => Read site x.session chunk) x := by
  have updates : ∀ y, Read site x.session chunk y →
      Yields site (fun _ => Gone x.session chunk)
          (sessionUpdateEvents env site.id) (fun _ => Read site x.session chunk) y := by
    intro y read
    apply updateEvents_yields read.sound.live
    intro z session log _
    exact read.moved session log
  rw [sessionHandleClientEvent, if_neg (by simp [fine]), yields_deref, if_neg (by simp [ready]), clientTransfer]
  simp only [reads, if_true]
  refine runUnlessReleased_yields
    (readClient_reads starts sound unfinished ready silent budget first brings) (fun y read => read.sound.live) ?_
  intro y read
  split
  · exact runUnlessReleased_yields (writeClient_reads read) (fun z read => read.sound.live) updates
  · exact updates y read

def Silent (m : Moment) : Prop := m.session.handshakeDone = false → upgradeResponse m.log = none

theorem Silent.still (more : List Io) (silent : Silent ⟨s, l, h⟩)
    (done : t.handshakeDone = s.handshakeDone) (logged : l' = l ++ more)
    (quiet : upgradeResponse more = none) : Silent ⟨t, l', h'⟩ := by
  intro unfinished
  have before : upgradeResponse l = none := silent (done.symm.trans unfinished)
  simp only [logged]
  rw [upgradeResponse_append, before, quiet]
  rfl

private theorem silent_acts (silent : Silent m) (act : Acts config True m n) : Silent n := by
  obtain ⟨s, l, h⟩ := m
  obtain ⟨t, l', h'⟩ := n
  rcases act with ⟨_, ⟨-, reads⟩ | ⟨-, writes⟩ | secures⟩ | target
  · cases reads with
    | accepted => exact fun unfinished => by cases unfinished
    | handled result msg done open_ room fed delivered effect => cases effect <;> exact silent.still _ rfl rfl rfl
    | touched | gathered | discarded | cleared => exact silent.still [] rfl (List.append_nil _).symm rfl
    | _ => exact silent.still _ rfl rfl rfl
  · cases writes with
    | touched | emptied => exact silent.still [] rfl (List.append_nil _).symm rfl
    | _ => exact silent.still _ rfl rfl rfl
  · cases secures <;> exact silent.still _ rfl rfl rfl
  · cases target with
    | touched => exact silent.still [] rfl (List.append_nil _).symm rfl
    | _ => exact silent.still _ rfl rfl rfl

private theorem reachable_silent (reachable : Reachable config w) (waits : Waits w id s) :
    upgradeResponse (w.log id) = none := by
  obtain ⟨first, created, path⟩ := ((reachable_invariant reachable).lived id s waits.alive).path
  exact path_keeps Silent (fun _ _ => silent_acts) (fun _ => rfl) path waits.unfinished

/-- One callback whose first read brings the chunk. -/
theorem read_upshot (accepted : config.Accepted) (reachable : Reachable config w) (waits : Waits w id s)
    (reads : events.read = true) (fine : events.error = false) (starts : Starts env)
    (brings : Brings env s chunk) :
    Upshot s chunk ((w.after env (.client id events)).session? id)
      (upgradeResponse ((w.after env (.client id events)).log id)) := by
  have inv := reachable_invariant reachable
  obtain ⟨order, linked⟩ := inv.linked
  let site : Site := siteOf linked waits.alive
  have own : site.place ⟨s, w.log id, w.interest id, 0⟩ = w.begin := site.place_own waits.alive
  have config : site.world.config = config := inv.configured
  have sound : Sound site.world.config s := config ▸ (inv.lived id s waits.alive).sound
  have budget : site.world.config.readBudget ≠ 0 := by
    rw [config]
    exact Nat.ne_of_gt accepted.positive.2.2.2.1
  have event := yields_after
    (clientEvent_reads (x := ⟨s, w.log id, w.interest id, 0⟩) reads fine starts sound waits.unfinished waits.ready
    (reachable_silent reachable waits) budget rfl brings)
  rw [own] at event
  change Upshot s chunk (((sessionHandleClientEvent env id events) w.begin).2.session? id)
    (upgradeResponse (((sessionHandleClientEvent env id events) w.begin).2.log id))
  rcases event with ⟨y, read, after⟩ | ⟨y, gone, released⟩
  · rw [show (sessionHandleClientEvent env id events w.begin).2 = site.place y from after]
    rw [show (site.place y).session? id = some y.session from site.session_place_self y,
      show (site.place y).log id = y.log from site.log_place_self y]
    cases read with
    | waits unfinished sound upshot => exact upshot
    | upgraded response consumed fits granted scene onward here =>
      obtain ⟨done, answered⟩ := onward.path here
      simp only at done answered
      rw [answered]
      refine .accepted _ response consumed fits granted ?_
      intro t same
      exact Option.some.inj same ▸ done
  · have silent : (sessionHandleClientEvent env id events w.begin).2.log id = y.log ++ [.release y.session] := by
      have log := congrFun released.log id
      rwa [show id = site.id from rfl, Function.update_self] at log
    have none : (sessionHandleClientEvent env id events w.begin).2.session? id = none := session_none.mpr released.gone
    rw [none, silent, upgradeResponse_append]
    have same : (upgradeResponse y.log).or (upgradeResponse [.release y.session]) = upgradeResponse y.log :=
      Option.or_none
    rw [same]
    exact gone

private theorem delivers_settled (delivers : Delivers id w chunks last) (settled : ∀ s, ¬ Waits w id s) : last = w := by
  cases delivers with
  | whole | settled => rfl
  | between step waits => exact absurd waits (settled _)
  | read env events reads fine starts waits => exact absurd waits (settled _)

/-- A run of reads ends in what the gathered bytes are answered with. -/
theorem delivers_answers (accepted : config.Accepted) (reachable : Reachable config w) (waits : Waits w id s)
    (delivers : Delivers id w chunks last) : Accepts last id response ↔ answer s.handshake chunks = some response := by
  induction delivers generalizing s with
  | whole w =>
    rw [answer, Accepts, reachable_silent reachable waits]
    simp
  | settled left => exact absurd waits (left s)
  | between step before still rest ih =>
    have same := Option.some.inj (waits.alive.symm.trans before.alive)
    exact ih (reachable.tail step) ⟨still.trans (congrArg some same.symm), waits.unfinished, waits.ready⟩
  | @read w last t chunk chunks env events reads fine starts before brings rest ih =>
    obtain rfl := Option.some.inj (waits.alive.symm.trans before.alive)
    have sound := ((reachable_invariant reachable).lived id s waits.alive).sound
    have later : Reachable config (w.after env (.client id events)) :=
      reachable.next env _ trivial ⟨s, waits.alive, sound.registered⟩
    have upshot := read_upshot accepted reachable waits reads fine starts brings
    generalize w.after env (.client id events) = after at *
    generalize found : after.session? id = state at upshot
    generalize answered : upgradeResponse (after.log id) = reply at upshot
    rw [answer]
    cases upshot with
    | waits t fits again unfinished gathered ready transport =>
      rw [if_neg (by omega), again, ← gathered]
      exact ih later ⟨found, unfinished, ready⟩
    | oversized excess =>
      obtain rfl := delivers_settled rest fun t waits => by rw [waits.alive] at found; cases found
      rw [if_pos excess, Accepts, answered]
      simp
    | invalid error fits other refused =>
      obtain rfl := delivers_settled rest fun t waits => by rw [waits.alive] at found; cases found
      rw [if_neg (by omega), refused, Accepts, answered]
      cases error with
      | again => exact absurd rfl other
      | _ => simp
    | accepted state given consumed fits granted done =>
      obtain rfl := delivers_settled rest fun t waits => by
        have upgraded := done t (found.symm.trans waits.alive)
        rw [waits.unfinished] at upgraded
        cases upgraded
      rw [if_neg (by omega), granted, Accepts, answered]
      constructor
      · exact fun holds => holds.1
      · intro same
        refine ⟨same, fun t alive => done t (found.symm.trans alive)⟩

/-- The runs that deliver a stream to a new session, in whatever reads. -/
def Delivered (stream : Bytes) (w : World) (id : SessionId) (last : World) : Prop :=
  (∃ config, config.Accepted ∧ Reachable config w) ∧ (∃ s, Waits w id s ∧ s.handshake = []) ∧
    ∃ chunks, Segments stream chunks ∧ Delivers id w chunks last

/-- All deliveries of a stream to a session have the same outcome. -/
def Uniform (stream : Bytes) : Prop :=
  ∀ w id first second, Delivered stream w id first → Delivered stream w id second →
    ∀ response, Accepts first id response ↔ Accepts second id response

/-- All deliveries of a stream get this response. -/
def Welcomed (stream response : Bytes) : Prop := ∀ w id last, Delivered stream w id last → Accepts last id response

private theorem delivered_answers (delivered : Delivered stream w id last) : ∃ chunks, Segments stream chunks ∧
    ∀ response, Accepts last id response ↔ answer [] chunks = some response := by
  obtain ⟨⟨config, accepted, reachable⟩, ⟨s, waits, empty⟩, chunks, segments, delivers⟩ := delivered
  refine ⟨chunks, segments, fun response => ?_⟩
  rw [delivers_answers accepted reachable waits delivers, empty]

private theorem brings_scripted {fd : Socket} (plain : s.clientTransport = transportInitPlain (some fd))
    (nonempty : chunk ≠ []) (fits : chunk.length ≤ ioChunk) :
    Brings (.scripted [.ok chunk] true 0) s chunk := by
  rw [Brings, plain]
  change offered ioChunk chunk = .ok chunk
  rw [offered, List.take_of_length_le fits, if_neg nonempty]

/-- Whatever the reads, there is a run that makes them. -/
theorem delivers_exists {fd : Socket} (accepted : config.Accepted) (reachable : Reachable config w)
    (waits : Waits w id s) (plain : s.clientTransport = transportInitPlain (some fd))
    (sizes : ∀ chunk ∈ chunks, chunk ≠ [] ∧ chunk.length ≤ ioChunk) :
    ∃ last, Delivers id w chunks last := by
  induction chunks generalizing w s with
  | nil => exact ⟨w, .whole w⟩
  | cons chunk rest ih =>
    obtain ⟨nonempty, fits⟩ := sizes chunk List.mem_cons_self
    have starts : Starts (.scripted [.ok chunk] true 0) := ⟨fun _ => ⟨_, rfl⟩, fun _ => rfl⟩
    have brings := brings_scripted plain nonempty fits
    have sound := ((reachable_invariant reachable).lived id s waits.alive).sound
    have later : Reachable config (w.after (.scripted [.ok chunk] true 0) (.client id .reading)) :=
      reachable.next _ _ trivial ⟨s, waits.alive, sound.registered⟩
    have upshot := read_upshot accepted reachable waits (show Events.reading.read = true from rfl) rfl starts brings
    suffices next : ∃ last, Delivers id (w.after (.scripted [.ok chunk] true 0) (.client id .reading)) rest last by
      obtain ⟨last, delivers⟩ := next
      exact ⟨last, .read _ .reading rfl rfl starts waits brings delivers⟩
    generalize w.after (.scripted [.ok chunk] true 0) (.client id .reading) = after at *
    by_cases more : ∃ t, Waits after id t
    · obtain ⟨t, waits⟩ := more
      rw [waits.alive] at upshot
      refine ih later waits ?_ fun chunk member => sizes chunk (List.mem_cons_of_mem _ member)
      generalize upgradeResponse (after.log id) = reply at upshot
      cases upshot with
      | waits t fits again unfinished gathered ready transport => exact transport.trans plain
      | accepted state response consumed fits granted done => exact absurd (done t rfl) (by simp [waits.unfinished])
    · exact ⟨after, .settled fun t waits => more ⟨t, waits⟩⟩

/-- A first connection, waiting for its request. -/
theorem connected_waits : Reachable (sampleConfig 64) (connected (sampleConfig 64)) ∧
    ∃ s, Waits (connected (sampleConfig 64)) 0 s ∧ s.handshake = [] ∧
    s.clientTransport = transportInitPlain (some 5) := by
  have state : (connected (sampleConfig 64)).session? 0 ≠ none ∧ ∀ s ∈ (connected (sampleConfig 64)).session? 0,
      s.handshakeDone = false ∧ s.clientTlsReady = true ∧
          s.handshake = [] ∧ s.clientTransport = transportInitPlain (some 5) := by
    decide +kernel
  obtain ⟨s, alive⟩ := Option.ne_none_iff_exists'.mp state.1
  obtain ⟨unfinished, ready, empty, plain⟩ := state.2 s alive
  exact ⟨connected_runs trivial, s, ⟨alive, unfinished, ready⟩, empty, plain⟩

private theorem delivered_exists (segments : Segments stream chunks) :
    ∃ last, Delivered stream (connected (sampleConfig 64)) 0 last ∧
      ∀ response, Accepts last 0 response ↔ answer [] chunks = some response := by
  obtain ⟨reachable, s, waits, empty, plain⟩ := connected_waits
  have accepted : (sampleConfig 64).Accepted := by decide
  obtain ⟨last, delivers⟩ := delivers_exists accepted reachable waits plain segments.2
  refine ⟨last, ⟨⟨_, accepted, reachable⟩, ⟨s, waits, empty⟩, chunks, segments, delivers⟩, fun response => ?_⟩
  rw [delivers_answers accepted reachable waits delivers, empty]

/-- An overrun is answered, or not, as its reads are cut. -/
theorem overrun_splits {header : Nat} (granted : Granted stream response header)
    (late : wsMaxHttpRequest + 1 < header + ioChunk) (long : wsMaxHttpRequest < stream.length) :
    ∃ first second, Delivered stream (connected (sampleConfig 64)) 0 first ∧
      Delivered stream (connected (sampleConfig 64)) 0 second ∧ Accepts first 0 response ∧
      ¬ Accepts second 0 response := by
  obtain ⟨first, one, answered⟩ := delivered_exists (singles_segments stream)
  obtain ⟨second, other, refused⟩ := delivered_exists (lumped_segments granted)
  refine ⟨first, second, one, other, (answered response).mpr (answer_singles granted), fun accepts => ?_⟩
  have given := (refused response).mp accepts
  rw [answer_lumped granted late long] at given
  cases given

/-- The outcome of an upgrade is the same for all ways of cutting the stream
exactly when no read can complete a valid header and go beyond the limit; and
exactly then a valid request is accepted however it is cut. -/
theorem upgrade_unsegmented (stream : Bytes) :
    (Uniform stream ↔ ¬ Overrun stream) ∧
    ∀ response header, Granted stream response header → (Welcomed stream response ↔ ¬ Overrun stream) := by
  have fitting : ∀ response header, Granted stream response header → ¬ Overrun stream → Welcomed stream response := by
    intro response header granted fits w id last delivered
    obtain ⟨chunks, segments, answers⟩ := delivered_answers delivered
    exact (answers response).mpr (answer_fits granted fits segments)
  constructor
  · constructor
    · intro uniform ⟨response, header, granted, late, long⟩
      obtain ⟨first, second, one, other, accepts, refuses⟩ := overrun_splits granted late long
      exact refuses ((uniform _ _ _ _ one other response).mp accepts)
    · intro fits w id first second one other
      obtain ⟨chunks, segments, answers⟩ := delivered_answers one
      obtain ⟨others, cuts, replies⟩ := delivered_answers other
      intro response
      rw [answers, replies]
      by_cases valid : ∃ response header, Granted stream response header
      · obtain ⟨response, header, granted⟩ := valid
        rw [answer_fits granted fits segments, answer_fits granted fits cuts]
      · have invalid : ∀ response header, ¬ Granted stream response header :=
          fun response header granted => valid ⟨response, header, granted⟩
        have empty : ([] : Bytes).length ≤ wsMaxHttpRequest := Nat.zero_le _
        rw [answer_failed invalid segments.1 empty, answer_failed invalid cuts.1 empty]
  · intro response header granted
    constructor
    · intro welcomed ⟨response', header', granted', late, long⟩
      obtain ⟨-, second, -, other, -, refuses⟩ := overrun_splits granted' late long
      obtain ⟨rfl, -⟩ : response = response' ∧ header = header' := by simpa using granted.symm.trans granted'
      exact refuses (welcomed _ _ _ other)
    · exact fitting response header granted

def paddingLine : Bytes := ascii "X: " ++ List.replicate 60 97 ++ ascii "\r\n"

/-- A valid request whose header is more than one read can bring. -/
def paddedRequest : Bytes :=
  ascii "GET / HTTP/1.1\r\n" ++ (List.replicate 63 paddingLine).flatten ++
    ascii "Upgrade: websocket\r\nConnection: Upgrade\r\nSec-WebSocket-Key: dGhlIHNhbXBsZSBub25jZQ==\r\nSec-WebSocket-Version: 13\r\n\r\n"

def pipelined : Bytes := paddedRequest ++ List.replicate ioChunk 0

theorem upgrade_segmented :
    ¬ Uniform pipelined ∧ ∃ response header, Granted pipelined response header ∧ ¬ Welcomed pipelined response := by
  have valid : (wsBuildHandshakeResponse paddedRequest 256).map Prod.snd = .ok 4226 := by decide +kernel
  obtain ⟨response, granted⟩ : ∃ response, Granted pipelined response 4226 := by
    generalize found : wsBuildHandshakeResponse paddedRequest 256 = reply at valid
    cases reply with
    | error error => cases valid
    | ok reply =>
      obtain ⟨response, header⟩ := reply
      obtain rfl : header = 4226 := Except.ok.inj valid
      exact ⟨response, granted_request found _⟩
  have late : wsMaxHttpRequest + 1 < 4226 + ioChunk := by decide
  have long : wsMaxHttpRequest < pipelined.length := by
    have size : paddedRequest.length = 4226 := by decide +kernel
    rw [pipelined, List.length_append, List.length_replicate, size]
    decide
  obtain ⟨first, second, one, other, accepts, refuses⟩ := overrun_splits granted late long
  refine ⟨fun uniform => refuses ((uniform _ _ _ _ one other response).mp accepts),
    response, 4226, granted, fun welcomed => ?_⟩
  exact refuses (welcomed _ _ _ other)

end Sockify.Proofs.UpgradeRuns
