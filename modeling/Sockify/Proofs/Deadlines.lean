import Sockify.Proofs.Newcomers
import Sockify.Proofs.Noninterference

/-! The timeouts of `session_is_expired`, measured over whole runs: nothing a
client does in its handshake moves its deadline, and only data that moves
defers the idle one. -/

namespace Sockify.Proofs.Deadlines
open Sockify Stateful Behaviour Registry SessionLogic Soundness Creation Lifetimes Locality Newcomers Noninterference

variable {config : Config} {early : Prop} {w u after : World} {id : SessionId} {s t : Session}
  {env : Env} {m n : Moment} {c : Int}

/-- No data has moved for the session between the two worlds. -/
def Quiet (id : SessionId) (w u : World) : Prop := ∃ more, u.log id = w.log id ++ more ∧ more.any active = false

/-! What a session keeps while it lives. -/

private theorem handled_times {msg : WsMessage} {extra : List Io} (handled : Handled s msg t extra) :
    t.createdAt = s.createdAt ∧ t.connectStartedAt = s.connectStartedAt ∧
    t.targetConnecting = s.targetConnecting ∧ t.handshakeDone = s.handshakeDone := by
  cases handled <;> exact ⟨rfl, rfl, rfl, rfl⟩

private theorem acts_created (act : Acts config early m n) : n.session.createdAt = m.session.createdAt := by
  rcases act with ⟨_, ⟨-, reads⟩ | ⟨-, writes⟩ | secures⟩ | target
  · cases reads with
    | handled _ _ _ _ _ _ _ effect => exact (handled_times effect).1
    | _ => rfl
  · cases writes <;> rfl
  · cases secures <;> rfl
  · cases target <;> rfl

private theorem acts_upgraded (act : Acts config early m n) (done : m.session.handshakeDone = true) :
    n.session.handshakeDone = true := by
  rcases act with ⟨_, ⟨-, reads⟩ | ⟨-, writes⟩ | secures⟩ | target
  · cases reads with
    | handled _ _ _ _ _ _ _ effect => exact (handled_times effect).2.2.2.trans done
    | accepted => rfl
    | _ => exact done
  · cases writes <;> exact done
  · cases secures <;> exact done
  · cases target <;> exact done

/-- A connect that was started at the time `c`, as long as it is pending. -/
def Started (c : Int) (s : Session) : Prop :=
  s.handshakeDone = true ∧ (s.targetConnecting = true → s.connectStartedAt = c)

private theorem acts_started (act : Acts config early m n) (started : Started c m.session) : Started c n.session := by
  refine ⟨acts_upgraded act started.1, ?_⟩
  rcases act with ⟨_, ⟨-, reads⟩ | ⟨-, writes⟩ | secures⟩ | target
  · cases reads with
    | handled _ _ _ _ _ _ _ effect =>
      obtain ⟨-, same, connecting, -⟩ := handled_times effect
      rw [same, connecting]
      exact started.2
    | accepted _ _ _ _ _ unfinished => exact absurd started.1 (by simp [unfinished])
    | _ => exact started.2
  · cases writes <;> exact started.2
  · cases secures <;> exact started.2
  · cases target with
    | connectedPlain | connectedTls => simp
    | _ => exact started.2

/-- A pending connect belongs to a session that has been upgraded. -/
theorem connecting_upgraded (sound : Sound config s) (connecting : s.targetConnecting = true) :
    s.handshakeDone = true := by
  by_contra unfinished
  obtain ⟨-, -, -, -, -, -, -, idle⟩ := sound.early (by simpa using unfinished)
  simp [idle] at connecting

/-- What survives of a session is a path behind it. -/
theorem run_path (reachable : Reachable config w) (present : w.session? id = some s)
    (run : Runs (fun _ _ _ => True) w u) (still : u.session? id = some t) :
    Path (Acts config True) ⟨s, w.log id, []⟩ ⟨t, u.log id, []⟩ := by
  have fate := reachable_fate reachable present run
  rw [still] at fate
  generalize u.log id = log at fate ⊢
  cases fate with
  | kept path => exact path

/-! The time of the last activity. -/

def Aged (id : SessionId) (w u : World) : Prop := ∀ t, u.session? id = some t → ∃ s, w.session? id = some s ∧
  Idles ⟨s, w.log id, w.interest id, w.calls⟩ ⟨t, u.log id, u.interest id, u.calls⟩

theorem Aged.trans {v : World} (first : Aged id w u) (second : Aged id u v) : Aged id w v := by
  intro t present
  obtain ⟨middle, alive, later⟩ := second t present
  obtain ⟨s, before, earlier⟩ := first middle alive
  exact ⟨s, before, Ageing.trans _ _ _ earlier later⟩

private theorem aged_alike (alike : Alike id w u) : Aged id w u := by
  intro t present
  exact ⟨t, alike.session.trans present,
    [], ⟨alike.log.symm.trans (List.append_nil _).symm, (List.append_nil _).symm⟩, fun _ => rfl⟩

private theorem callback_aged {program : Proc Unit}
    (local_ : Local (surroundingsOf config id) Idles program) (inv : Invariant config True w)
    (present : w.session? id = some s) : Aged id w (program w.begin).2 := by
  intro t alive
  obtain ⟨y, ⟨more, grown, still⟩, ⟨left, log⟩ | ⟨gone, -⟩⟩ := callback_left local_ inv present
  · obtain rfl : y.session = t := Option.some.inj (left.symm.trans alive)
    exact ⟨s, present, more, ⟨log.trans grown.log, grown.held⟩, still⟩
  · rw [gone] at alive
    cases alive

private theorem step_aged (hosts : Hosts config id w) {call : Call} (enabled : call.Enabled w) :
    Aged id w (w.after env call) := by
  cases seen : concerns id (env, call) with
  | false => exact aged_alike (step_respects hosts (env, call) enabled seen)
  | true =>
    cases call with
    | accept events => cases seen
    | tick =>
      cases present : w.session? id with
      | none => exact aged_alike (tick_misses env hosts.invariant present)
      | some s =>
        have outcome := tick_outcome env hosts.invariant present
        split at outcome
        · intro t alive
          rw [outcome.1] at alive
          cases alive
        · exact aged_alike outcome
    | client other events =>
      obtain rfl : other = id := by simpa [concerns] using seen
      obtain ⟨s, present, -⟩ := enabled
      exact callback_aged (sessionHandleClientEvent_local events) hosts.invariant present
    | target other events =>
      obtain rfl : other = id := by simpa [concerns] using seen
      obtain ⟨s, present, -⟩ := enabled
      exact callback_aged (sessionHandleTargetEvent_local events) hosts.invariant present

private theorem run_aged (hosts : Hosts config id w) (run : Runs (fun _ _ _ => True) w u) :
    Hosts config id u ∧ Aged id w u := by
  induction run with
  | refl => exact ⟨hosts, aged_alike .refl⟩
  | tail _ step ih =>
    obtain ⟨env, call, -, enabled, rfl⟩ := step
    exact ⟨step_keeps ih.1 (env, call) enabled, ih.2.trans (step_aged ih.1 enabled)⟩

/-! The ticks. -/

/-- What `session_is_expired` asks of the three deadlines. -/
theorem expired_iff {now : Int} : sessionIsExpired s config now = true ↔
    (s.targetConnecting = true ∧ config.connectTimeoutMs ≠ 0 ∧
    s.connectStartedAt ≠ 0 ∧ config.connectTimeoutMs ≤ elapsedMs now s.connectStartedAt) ∨
    (s.handshakeDone = false ∧ config.handshakeTimeoutMs ≠ 0 ∧ config.handshakeTimeoutMs ≤ elapsedMs now s.createdAt) ∨
    (s.handshakeDone = true ∧ config.idleTimeoutMs ≠ 0 ∧ config.idleTimeoutMs ≤ elapsedMs now s.lastActivityAt) := by
  unfold sessionIsExpired
  split
  next late => simpa using Or.inl late
  next early =>
    split
    next late => simpa using Or.inr (Or.inl late)
    next early' =>
      simp only [decide_eq_true_eq]
      constructor
      · exact fun late => .inr (.inr late)
      · rintro (late | late | late)
        · exact absurd late early
        · exact absurd (by simpa using late) early'
        · exact late

/-- A session of a reachable world, in any run from there on to a tick: how old
it is, how long it has been idle and how long its connect has been pending are
counted from what they were, whatever has happened in between. The tick releases
it as soon as one of the three deadlines has passed, and for nothing else. -/
theorem deadlines_stand {config : Config} {w u : World} {id : SessionId} {s t : Session} (env : Env)
    (reachable : Reachable config w) (present : w.session? id = some s)
    (run : Runs (fun _ _ _ => True) w u) (still : u.session? id = some t) :
    (t.handshakeDone = false → config.handshakeTimeoutMs ≠ 0 →
      config.handshakeTimeoutMs ≤ elapsedMs (env.time 0) s.createdAt →
      (u.after env .tick).session? id = none) ∧
    (s.handshakeDone = true → Quiet id w u →
      config.idleTimeoutMs ≠ 0 → config.idleTimeoutMs ≤ elapsedMs (env.time 0) s.lastActivityAt →
      (u.after env .tick).session? id = none) ∧
    (s.targetConnecting = true → t.targetConnecting = true → config.connectTimeoutMs ≠ 0 → s.connectStartedAt ≠ 0 →
      config.connectTimeoutMs ≤ elapsedMs (env.time 0) s.connectStartedAt → (u.after env .tick).session? id = none) ∧
    ((u.after env .tick).session? id = none → sessionIsExpired t config (env.time 0) = true) := by
  have inv := reachable_invariant reachable
  obtain ⟨hosts, aged⟩ := run_aged ⟨inv, inv.born present⟩ run
  have path := run_path reachable present run still
  have outcome := tick_outcome env hosts.invariant still
  have released : sessionIsExpired t config (env.time 0) = true → (u.after env .tick).session? id = none := by
    intro expired
    rw [if_pos expired] at outcome
    exact outcome.1
  have created : t.createdAt = s.createdAt :=
    path_keeps (fun m => m.session.createdAt = s.createdAt) (fun _ _ same act => (acts_created act).trans same) rfl path
  refine ⟨?_, ?_, ?_, ?_⟩
  · intro unfinished timed late
    exact released (expired_iff.mpr (.inr (.inl ⟨unfinished, timed, created ▸ late⟩)))
  · intro done quiet timed late
    have upgraded : t.handshakeDone = true :=
      path_keeps (fun m => m.session.handshakeDone = true) (fun _ _ done act => acts_upgraded act done) done path
    obtain ⟨first, before, more, grown, stands⟩ := aged t still
    obtain ⟨others, same, silent⟩ := quiet
    obtain rfl : first = s := Option.some.inj (before.symm.trans present)
    obtain rfl : more = others := List.append_cancel_left (grown.log.symm.trans same)
    exact released (expired_iff.mpr (.inr (.inr ⟨upgraded, timed, (stands silent) ▸ late⟩)))
  · intro connecting pending timed begun late
    have started : Started s.connectStartedAt t := path_keeps (fun m => Started s.connectStartedAt m.session)
      (fun _ _ started act => acts_started act started)
        ⟨connecting_upgraded (inv.lived id s present).sound connecting, fun _ => rfl⟩ path
    have same := started.2 pending
    exact released (expired_iff.mpr (.inl ⟨pending, timed, same ▸ begun, same ▸ late⟩))
  · intro gone
    by_contra fresh
    rw [if_neg fresh] at outcome
    have alive : some t = none := still.symm.trans (outcome.session.trans gone)
    cases alive

def pending : World := opened (sampleConfig 64) true

def later : Env := { Env.scripted [] true 0 with time := fun _ => 11 }

/-- An event without effect in between does not save the pending connect. -/
theorem deadlines_stand_pending :
    ((pending.after (.scripted [] true 0) (.client 0 .writing)).after later .tick).session? 0 = none := by
  have run : Reachable (sampleConfig 64) pending := opened_runs trivial trivial (by decide +kernel)
  have state : (pending.session? 0).any
      (fun s => s.clientRegistered ∧ s.targetConnecting ∧ s.connectStartedAt = 1) = true := by
    decide +kernel
  obtain ⟨s, present, facts⟩ := (Option.any_eq_true _ _).mp state
  obtain ⟨registered, connecting, begun⟩ : s.clientRegistered = true ∧
      s.targetConnecting = true ∧ s.connectStartedAt = 1 := by
    simpa using facts
  have idle : ((pending.after (.scripted [] true 0) (.client 0 .writing)).session? 0).any
      (·.targetConnecting) = true := by
    decide +kernel
  obtain ⟨t, still, waiting⟩ := (Option.any_eq_true _ _).mp idle
  have step : Runs (fun _ _ _ => True) pending (pending.after (.scripted [] true 0) (.client 0 .writing)) :=
    Runs.next .refl _ _ trivial ⟨s, present, registered⟩
  exact (deadlines_stand later run present step still).2.2.1 connecting waiting (by decide) (by simp [begun])
    (by rw [begun]; decide)

/-! The time of a creation. -/

/-- The time of the creation, as the clock of `env` tells it. -/
def Dated (env : Env) (s : Session) : Prop := ∃ n, s.createdAt = env.time n

private theorem sessionRegisterClient_dates :
    Ensures (fun _ _ => True) (sessionRegisterClient env id) (Returned (Dated env) id) w := by
  refine ensures_behind fun config _ => ensures_behind fun n _ => ?_
  split
  · exact gaveUp_returns
  · refine ensures_behind fun _ _ => ensures_behind fun _ _ => ensures_behind fun _ _ => ?_
    rw [ensures_bind]
    exact (update_sets fun s => ⟨n, rfl⟩).weaken (fun _ after dated _ => dated) fun _ _ stopped => stopped

private theorem sessionSetUp_dates (id : SessionId) (clientFd : Socket) (w : World) :
    Ensures (fun _ _ => True) (sessionSetUp env id clientFd) (Returned (Dated env) id) w := by
  refine ensures_behind fun config _ => ensures_behind fun rc _ => ?_
  split
  · exact gaveUp_returns
  · refine ensures_behind fun _ _ => ensures_behind fun _ _ => ensures_behind fun _ _ => ensures_behind fun _ _ => ?_
    split
    · exact gaveUp_returns
    · exact ensures_behind fun _ _ => sessionRegisterClient_dates

/-- A client that is accepted at some time and is not upgraded is gone with the
first tick that comes a handshake timeout later, however it spaces its bytes. -/
theorem newcomers_expire {config : Config} {w u : World} {id : SessionId} {s : Session}
    {env clock : Env} {events : Events} {since : Int} (reachable : Reachable config w)
    (absent : w.session? id = none) (born : (w.after env (.accept events)).session? id = some s)
    (dated : ∀ n, env.time n ≤ since) (run : Runs (fun _ _ _ => True) (w.after env (.accept events)) u)
    (timed : config.handshakeTimeoutMs ≠ 0)
    (late : config.handshakeTimeoutMs ≤ elapsedMs (clock.time 0) since) :
    ∀ t, (u.after clock .tick).session? id = some t → t.handshakeDone = true := by
  intro t left
  have start : Reachable config (w.after env (.accept events)) := reachable.next env _ trivial trivial
  have joins : Joined config (Dated env) w (w.after env (.accept events)) :=
    accept_joins (fun id clientFd w _ => sessionSetUp_dates id clientFd w) events (reachable_invariant reachable)
  obtain ⟨n, time⟩ := joins.joined id s born absent
  have inv := reachable_invariant start
  obtain ⟨hosts, -⟩ := run_aged ⟨inv, inv.born born⟩ run
  cases still : u.session? id with
  | none =>
    have gone := (tick_misses clock hosts.invariant still).session
    rw [still, left] at gone
    cases gone
  | some before =>
    by_contra unfinished
    have path := run_path start born run still
    have created : before.createdAt = s.createdAt :=
      path_keeps (fun m => m.session.createdAt = s.createdAt)
        (fun _ _ same act => (acts_created act).trans same) rfl path
    have outcome := tick_outcome clock hosts.invariant still
    split at outcome
    · rw [outcome.1] at left
      cases left
    next fresh =>
      obtain rfl : before = t := by
        have same := outcome.session
        rw [still, left] at same
        exact Option.some.inj same
      refine fresh (expired_iff.mpr (.inr (.inl ⟨by simpa using unfinished, timed, ?_⟩)))
      have soon := dated n
      rw [created, time]
      simp only [elapsedMs] at late ⊢
      omega

theorem newcomers_expire_sample :
    ((((connected (sampleConfig 64)).after later .tick).session? 0).all (·.handshakeDone)) = true := by
  have some_ : ((connected (sampleConfig 64)).session? 0).isSome = true := by decide +kernel
  obtain ⟨s, born⟩ := Option.isSome_iff_exists.mp some_
  have expires := newcomers_expire
    (.refl : Reachable (sampleConfig 64) (serverInit (sampleConfig 64))) rfl born (fun _ => Int.le_refl (1 : Int))
    .refl (by decide) (show (sampleConfig 64).handshakeTimeoutMs ≤ elapsedMs (later.time 0) 1 by decide)
  exact (Option.all_eq_true _ _).mpr fun t left => expires t left

end Sockify.Proofs.Deadlines
