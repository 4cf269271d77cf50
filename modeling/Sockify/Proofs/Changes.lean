import Sockify.Proofs.Lifetimes

/-! What one callback does to one session, by the callback: its own handlers
move it along their paths, a tick may release it, the listener may begin it,
and everything else leaves it as it was. -/

namespace Sockify.Proofs.Changes
open Sockify Stateful Behaviour Registry SessionLogic Soundness Creation Simulation Lifetimes

/-- What the listener and a tick do to a session and its record. -/
inductive Aside (config : Config) (w : World) (id : SessionId) : Option Session → List Io → Prop
  | still : Aside config w id (w.session? id) (w.log id)
  | expired {s} (alive : w.session? id = some s) : Aside config w id none (w.log id ++ [.release s])
  | born {s} (absent : w.session? id = none)
      (silent : w.log id = []) (created : Created config s) : Aside config w id (some s) []
  | stillborn {s} (absent : w.session? id = none) (silent : w.log id = []) : Aside config w id none [.release s]

/-- What a callback does to a session and its record. -/
inductive Change (config : Config) (w : World) (call : Call) (id : SessionId) : Option Session → List Io → Prop
  | aside {state log} (aside : Aside config w id state log) : Change config w call id state log
  | client {events s state log} (same : call = .client id events) (alive : w.session? id = some s)
      (fate : Fate (ActsClient True events) (EndsClient (s.handshakeDone = true)) s (w.log id) state log) :
      Change config w call id state log
  | target {events s state log} (same : call = .target id events) (alive : w.session? id = some s)
      (fate : Fate (ActsTarget config True) (EndsTarget True) s (w.log id) state log) :
      Change config w call id state log

variable {config : Config} {early : Prop} {w u after : World} {site : Site} {x : Own}
  {id other : SessionId} {s : Session}

/-! The sessions that a handler is not for. -/

private theorem yields_apart {program : Proc Unit} {left alive : Own → Prop}
    (yields : Yields site (fun _ => left) program (fun _ => alive) x) (different : other ≠ site.id) :
    (program (site.place x)).2.session? other = site.world.session? other ∧
    (program (site.place x)).2.log other = site.world.log other := by
  rcases yields_after yields with ⟨y, -, same⟩ | ⟨y, -, released⟩
  · rw [same]
    exact ⟨site.session_place_other y different, by simp [Spot.place, different]⟩
  · exact ⟨released.sessions other different, by simp [released.log, different]⟩

private theorem callback_apart {acts : Moment → Moment → Prop} {program : Proc Unit} (env : Env)
    (ends : Moment → Moment → Prop) (inv : Invariant config early w) (present : w.session? id = some s)
    (included : ∀ m n, acts m n → Acts config early m n)
    (yields : ∀ (site : Site) (scene : Scene site) (x : Own), site.id = id → site.world.config = config →
      scene.acts = acts → x.session = s → scene.At [] x →
      Yields site (fun _ => scene.Left ends) program (fun _ => Served scene env) x)
    (different : other ≠ id) :
    (program w.begin).2.session? other = w.session? other ∧ (program w.begin).2.log other = w.log other := by
  obtain ⟨order, linked⟩ := inv.linked
  have lived := inv.lived id s present
  let site := siteOf linked present
  have same : site.world.config = config := inv.configured
  let scene : Scene site := ⟨acts, ⟨s, w.log id, []⟩, same ▸ lived.sound,
    fun m n sound act => same ▸ sound_acts (same ▸ sound) (included m n act)⟩
  have own : site.place ⟨s, w.log id, w.interest id, 0⟩ = w.begin := site.place_own present
  have apart := yields_apart (yields site scene ⟨s, w.log id, w.interest id, 0⟩ rfl same rfl rfl .refl) different
  rw [own] at apart
  exact apart

/-! The listener and the tick. -/

structure Turned (config : Config) (w u : World) : Prop where
  later : Later config True w u
  aside : ∀ id, Aside config w id (u.session? id) (u.log id)

theorem Aside.released {state : Option Session} {log : List Io} (aside : Aside config w id state log)
    (alive : state = some s) :
    Aside config w id none (log ++ [.release s]) := by
  cases aside with
  | still => exact .expired alive
  | expired | stillborn => cases alive
  | born absent silent created =>
    obtain rfl := Option.some.inj alive
    exact .stillborn absent silent

private theorem turned_close (inv : Invariant config True w) : ∀ id, Keeps (Turned config w) (sessionClose id) := by
  refine keeps_sessionClose (fun u turned => turned.later.invariant.linked)
    (fun u id s turned => turned.later.invariant.live id s) ?_
  intro site s after turned present released
  refine ⟨turned.later.released inv present released, fun other => ?_⟩
  by_cases same : other = site.id
  · subst same
    rw [session_none.mpr released.gone, released.log, Function.update_self]
    exact (turned.aside site.id).released present
  · rw [released.sessions other same, released.log, Function.update_of_ne same]
    exact turned.aside other

private theorem turned_create {env : Env} (inv : Invariant config True w) (clientFd : Socket)
    (turned : Turned config w u) (room : u.activeConnections < u.config.maxConnections) :
    Ensures (fun _ => Turned config w) (sessionCreate env clientFd) (fun _ => Turned config w) u := by
  have invariant := turned.later.invariant
  obtain ⟨order, linked⟩ := invariant.linked
  have spent := invariant.fresh u.nextId (Nat.le_refl _)
  have absent : u.session? u.nextId = none := session_none.mpr spent.1
  have unborn : w.session? u.nextId = none ∧ w.log u.nextId = [] := by
    have old := inv.fresh u.nextId turned.later.advance.nextId
    exact ⟨session_none.mpr old.1, old.2⟩
  have creates : Ensures (fun _ => Turned config w) (sessionCreate env clientFd) (Made u) u :=
    sessionCreate_creates linked spent.1
  have later := sessionCreate_later inv env clientFd turned.later (invariant.configured ▸ room)
  refine (creates.both later).weaken (fun created after made => ⟨made.2, fun id => ?_⟩) fun _ _ stopped => stopped.1
  have made := made.1
  unfold Made at made
  split at made
  · have same : after.session? id = u.session? id := by simp only [World.session?, made.nodes id]
    by_cases own : id = u.nextId
    · subst own
      rw [same, absent]
      rcases made.own with ⟨silent, -⟩ | ⟨s, -, log, -⟩
      · rw [silent, spent.2, ← unborn.1, ← unborn.2]
        exact .still
      · rw [log, spent.2]
        exact .stillborn unborn.1 unborn.2
    · rw [same, made.log id own]
      exact turned.aside id
  · rw [made.log]
    by_cases own : id = u.nextId
    · subst own
      obtain ⟨s, alive, first⟩ := made.session
      rw [alive, spent.2]
      exact .born unborn.1 unborn.2 (invariant.configured ▸ first)
    · rw [made.sessions id own]
      exact turned.aside id

private theorem client_apart (env : Env) (events : Events) (inv : Invariant config True w)
    (present : w.session? id = some s) (different : other ≠ id) :
    Aside config w other ((w.after env (.client id events)).session? other)
      ((w.after env (.client id events)).log other) := by
  have apart : (w.after env (.client id events)).session? other = w.session? other ∧
      (w.after env (.client id events)).log other = w.log other := by
    refine callback_apart env (EndsClient (s.handshakeDone = true)) inv present
      (fun _ _ act => .inl ⟨events, act⟩) ?_ different
    rintro site scene x rfl _ acts rfl here
    exact sessionHandleClientEvent_yields (fun _ _ act => acts ▸ act)
      (fun _ => trivial) here (inv.lived _ _ present).settled id
  rw [apart.1, apart.2]
  exact .still

private theorem target_apart (env : Env) (events : Events) (inv : Invariant config True w)
    (present : w.session? id = some s) (registered : s.targetRegistered = true) (different : other ≠ id) :
    Aside config w other ((w.after env (.target id events)).session? other)
      ((w.after env (.target id events)).log other) := by
  have apart : (w.after env (.target id events)).session? other = w.session? other ∧
      (w.after env (.target id events)).log other = w.log other := by
    refine callback_apart env (EndsTarget True) inv present (fun _ _ => .inr) ?_ different
    rintro site scene x rfl rfl acts rfl here
    exact sessionHandleTargetEvent_yields (fun _ _ act => acts ▸ act) here (inv.lived _ _ present).settled registered
      fun _ _ _ _ => trivial
  rw [apart.1, apart.2]
  exact .still

/-- Every callback, for every session. -/
theorem step_changes (env : Env) {call : Call} (inv : Invariant config True w)
    (enabled : call.Enabled w) (id : SessionId) :
    Change config w call id ((w.after env call).session? id) ((w.after env call).log id) := by
  have begun : Invariant config True w.begin := inv.counted 0
  have start : Turned config w w.begin := ⟨⟨begun, Advance.refl.counted 0⟩, fun _ => .still⟩
  cases call with
  | accept events =>
    have keeps : Keeps (Turned config w) (listenerCallback env events) := by
      apply keeps_listenerCallback
      · exact fun u turned => ⟨⟨turned.later.invariant.counted _, turned.later.advance.counted _⟩, turned.aside⟩
      · exact fun clientFd u turned =>
          ⟨⟨turned.later.invariant.performed _, turned.later.advance.performed _⟩, turned.aside⟩
      · exact fun clientFd u turned room => turned_create inv clientFd turned room
    exact .aside ((keeps.final start).aside id)
  | tick => exact .aside ((Keeps.final (keeps_proxyTick (turned_close inv) env) start).aside id)
  | client other events =>
    obtain ⟨s, present, -⟩ := enabled
    by_cases same : id = other
    · subst same
      exact .client rfl present (client_outcome env events inv present fun _ => trivial).1.fate
    · exact .aside (client_apart env events inv present same)
  | target other events =>
    obtain ⟨s, present, registered⟩ := enabled
    by_cases same : id = other
    · subst same
      exact .target rfl present (target_outcome env events inv present registered fun _ => trivial).1.fate
    · exact .aside (target_apart env events inv present registered same)

end Sockify.Proofs.Changes
