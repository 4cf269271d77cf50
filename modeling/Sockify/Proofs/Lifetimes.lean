import Sockify.Proofs.Creation
import Sockify.Proofs.TargetSimulation

/-! Runs of the server, session by session: whatever the callbacks and their
order, the life of a session is one path of actions from its creation to its
release, and a released session stays as it was left. -/

namespace Sockify.Proofs.Lifetimes
open Sockify Stateful Behaviour Registry SessionLogic SessionSteps Soundness Creation Simulation

/-- The last thing any callback does to a session that it releases. -/
def Ends (early : Prop) (before after : Moment) : Prop := EndsClient True before after ∨ EndsTarget early before after

theorem ends_weaken {prior : Prop} {m n : Moment} (ending : EndsClient prior m n) : EndsClient True m n := by
  cases ending with
  | here open_ => exact .here open_
  | unparsed bytes open_ still => exact .unparsed bytes open_ still
  | unstarted response reply open_ still => exact .unstarted response reply open_ still
  | interrupted busy => exact .interrupted busy
  | drained closing answered sent before => exact .drained closing answered sent trivial

structure Lived (config : Config) (early : Prop) (s : Session) (log : List Io) : Prop where
  path : ∃ first, Created config first ∧ Path (Acts config early) ⟨first, [], []⟩ ⟨s, log, []⟩
  settled : Settled s

/-- The record of a session that is gone: its creation failed, or it lived. -/
inductive Died (config : Config) (early : Prop) : List Io → Prop
  | unborn : Died config early []
  | discarded (s : Session) : Died config early [.release s]
  | released {first s m log hand} (created : Created config first) (path : Path (Acts config early) ⟨first, [], []⟩ m)
      (ending : Ends early m ⟨s, log, hand⟩) : Died config early (log ++ [.release s])

/-- What becomes of a session that was in the state `s` with the record `log`. -/
inductive Fate (acts ends : Moment → Moment → Prop) (s : Session) (log : List Io) : Option Session → List Io → Prop
  | kept {t log'} (path : Path acts ⟨s, log, []⟩ ⟨t, log', []⟩) : Fate acts ends s log (some t) log'
  | released {m t log' hand} (path : Path acts ⟨s, log, []⟩ m) (ending : ends m ⟨t, log', hand⟩) :
      Fate acts ends s log none (log' ++ [.release t])

structure Invariant (config : Config) (early : Prop) (w : World) : Prop where
  configured : w.config = config
  contexts : w.clientTlsContext = config.clientTlsEnabled ∧ w.targetTlsContext = config.targetTlsEnabled
  linked : ∃ order, Linked w order
  bounded : w.activeConnections ≤ config.maxConnections
  fresh : ∀ id, w.nextId ≤ id → w.node? id = none ∧ w.log id = []
  lived : ∀ id s, w.session? id = some s → Lived config early s (w.log id)
  died : ∀ id, w.session? id = none → Died config early (w.log id)

/-- What time does to the sessions of a world. -/
structure Advance (config : Config) (early : Prop) (w after : World) : Prop where
  nextId : w.nextId ≤ after.nextId
  live : ∀ id s, w.session? id = some s →
    Fate (Acts config early) (Ends early) s (w.log id) (after.session? id) (after.log id)
  dead : ∀ id, id < w.nextId → w.session? id = none → after.session? id = none ∧ after.log id = w.log id

variable {config : Config} {early : Prop} {w after : World} {site : Site} {x y : Own} {id : SessionId} {s t u : Session}

theorem Lived.sound {log : List Io} (lived : Lived config early s log) : Sound config s := by
  obtain ⟨first, created, path⟩ := lived.path
  exact path_keeps (fun m => Sound config m.session) (fun m n holds act => sound_acts holds act) created.sound path

theorem session_none : w.session? id = none ↔ w.node? id = none := by simp [World.session?]

theorem Invariant.born (inv : Invariant config early w) (present : w.session? id = some s) : id < w.nextId := by
  by_contra later
  rw [session_none.mpr (inv.fresh id (not_lt.mp later)).1] at present
  cases present

theorem Fate.trans {acts ends : Moment → Moment → Prop} {log log' : List Io} {s : Session}
    {t : Option Session} {middle : List Io} (path : Path acts ⟨s, log, []⟩ ⟨u, middle, []⟩)
    (fate : Fate acts ends u middle t log') : Fate acts ends s log t log' := by
  cases fate with
  | kept more => exact .kept (path.trans more)
  | released more ending => exact .released (path.trans more) ending

theorem Advance.refl : Advance config early w w := by
  refine ⟨Nat.le_refl _, fun id s present => ?_, fun _ _ gone => ⟨gone, rfl⟩⟩
  rw [present]
  exact .kept .refl

theorem Advance.trans {last : World} (inv : Invariant config early w) (first : Advance config early w after)
    (second : Advance config early after last) : Advance config early w last := by
  refine ⟨first.nextId.trans second.nextId, ?_, ?_⟩
  · intro id s present
    have fate := first.live id s present
    cases middle : after.session? id with
    | none =>
      obtain ⟨gone, log⟩ := second.dead id (lt_of_lt_of_le (inv.born present) first.nextId) middle
      rwa [gone, log, ← middle]
    | some t =>
      rw [middle] at fate
      cases fate with
      | kept path => exact (second.live id t middle).trans path
  · intro id old gone
    obtain ⟨still, log⟩ := first.dead id old gone
    obtain ⟨later, same⟩ := second.dead id (lt_of_lt_of_le old first.nextId) still
    exact ⟨later, same.trans log⟩

theorem invariant_serverInit (config : Config) (early : Prop) : Invariant config early (serverInit config) where
  configured := rfl
  contexts := ⟨rfl, rfl⟩
  linked := ⟨[], linked_serverInit config⟩
  bounded := Nat.zero_le _
  fresh := fun _ _ => ⟨rfl, rfl⟩
  lived := fun _ _ present => by simp [World.session?, World.node?, serverInit] at present
  died := fun _ _ => .unborn

/-- The count of calls is nobody's business. -/
theorem Invariant.counted (inv : Invariant config early w) (calls : Nat) :
    Invariant config early { w with calls := calls } := by
  obtain ⟨order, linked⟩ := inv.linked
  exact { inv with linked := ⟨order, linked.congr rfl rfl fun _ => rfl⟩ }

theorem Advance.counted (advance : Advance config early w after) (calls : Nat) :
    Advance config early w { after with calls := calls } := { advance with }

theorem Invariant.performed (inv : Invariant config early w) (deed : Deed) :
    Invariant config early (w.performed deed) := by
  obtain ⟨order, linked⟩ := inv.linked
  exact { inv with linked := ⟨order, linked.congr rfl rfl fun _ => rfl⟩ }

theorem Advance.performed (advance : Advance config early w after) (deed : Deed) :
    Advance config early w (after.performed deed) :=
  { advance with }

theorem Advance.begun (advance : Advance config early w.begin after) : Advance config early w after := { advance with }

/-! The three ways in which a step changes the sessions. -/

theorem Invariant.placed (site : Site) (inv : Invariant config early site.world)
    (lived : Lived config early y.session y.log) :
    Invariant config early (site.place y) where
  configured := (site.config_place y).trans inv.configured
  contexts := ⟨(site.clientContext_place y).trans inv.contexts.1, (site.targetContext_place y).trans inv.contexts.2⟩
  linked := ⟨_, site.linked_place y⟩
  bounded := (site.place_registry y).2.trans_le inv.bounded
  fresh := by
    intro other later
    rw [site.nextId_place y] at later
    have different : other ≠ site.id := by
      rintro rfl
      exact site.present (inv.fresh _ later).1
    rw [site.node_place_other y different]
    exact ⟨(inv.fresh _ later).1, by simp [Spot.place, different, (inv.fresh _ later).2]⟩
  lived := by
    intro other s present
    by_cases same : other = site.id
    · subst same
      rw [site.session_place_self y, Option.some.injEq] at present
      rw [site.log_place_self, ← present]
      exact lived
    · rw [site.session_place_other y same] at present
      simpa [Spot.place, same] using inv.lived other s present
  died := by
    intro other gone
    have different : other ≠ site.id := by
      rintro rfl
      simp at gone
    rw [site.session_place_other y different] at gone
    simpa [Spot.place, different] using inv.died other gone

theorem Advance.placed (site : Site) (present : site.world.session? site.id = some s)
    (path : Path (Acts config early) ⟨s, site.world.log site.id, []⟩ ⟨y.session, y.log, []⟩) :
    Advance config early site.world (site.place y) := by
  refine ⟨(site.nextId_place y).ge, ?_, ?_⟩
  · intro other t alive
    by_cases same : other = site.id
    · subst same
      rw [present, Option.some.injEq] at alive
      rw [site.session_place_self, site.log_place_self, ← alive]
      exact .kept path
    · rw [site.session_place_other y same, alive,
        show (site.place y).log other = site.world.log other by simp [Spot.place, same]]
      exact .kept .refl
  · intro other _ gone
    have different : other ≠ site.id := by
      rintro rfl
      rw [present] at gone
      cases gone
    exact ⟨(site.session_place_other y different).trans gone, by simp [Spot.place, different]⟩

theorem Invariant.released (site : Site) (inv : Invariant config early site.world) (released : Released site y after)
    (died : Died config early (y.log ++ [.release y.session])) : Invariant config early after where
  configured := released.config.trans inv.configured
  contexts := ⟨released.contexts.1.trans inv.contexts.1, released.contexts.2.trans inv.contexts.2⟩
  linked := ⟨_, released.linked⟩
  bounded := by
    have fewer : (site.order.erase site.id).length ≤ site.order.length := List.length_erase_le
    rw [released.linked.count]
    exact fewer.trans (site.linked.count ▸ inv.bounded)
  fresh := by
    intro other later
    rw [released.nextId] at later
    have different : other ≠ site.id := by
      rintro rfl
      exact site.present (inv.fresh _ later).1
    rw [← session_none, released.sessions other different, session_none, released.log]
    exact ⟨(inv.fresh _ later).1, by simp [different, (inv.fresh _ later).2]⟩
  lived := by
    intro other s present
    have different : other ≠ site.id := by
      rintro rfl
      simp [World.session?, released.gone] at present
    rw [released.sessions other different] at present
    simpa [released.log, different] using inv.lived other s present
  died := by
    intro other gone
    by_cases same : other = site.id
    · subst same
      simpa [released.log] using died
    · rw [released.sessions other same] at gone
      simpa [released.log, same] using inv.died other gone

theorem Advance.released (site : Site) {m : Moment} {hand : Bytes} (released : Released site y after)
    (present : site.world.session? site.id = some s)
    (path : Path (Acts config early) ⟨s, site.world.log site.id, []⟩ m)
    (ending : Ends early m ⟨y.session, y.log, hand⟩) :
    Advance config early site.world after := by
  refine ⟨released.nextId.ge, ?_, ?_⟩
  · intro other t alive
    by_cases same : other = site.id
    · subst same
      rw [present, Option.some.injEq] at alive
      rw [session_none.mpr released.gone,
        show after.log site.id = y.log ++ [.release y.session] by simp [released.log], ← alive]
      exact .released path ending
    · rw [released.sessions other same, alive, show after.log other = site.world.log other by simp [released.log, same]]
      exact .kept .refl
  · intro other _ gone
    have different : other ≠ site.id := by
      rintro rfl
      exact site.present (session_none.mp gone)
    exact ⟨(released.sessions other different).trans gone, by simp [released.log, different]⟩

theorem Invariant.discarded (inv : Invariant config early w) (discarded : Discarded w after) :
    Invariant config early after ∧ Advance config early w after := by
  obtain ⟨order, linked⟩ := inv.linked
  have sessions : ∀ id, after.session? id = w.session? id := fun id => by simp only [World.session?, discarded.nodes id]
  have spent := inv.fresh w.nextId (Nat.le_refl _)
  have absent : after.session? w.nextId = none := by rw [sessions, session_none, spent.1]
  refine ⟨⟨discarded.config.trans inv.configured,
    ⟨discarded.contexts.1.trans inv.contexts.1, discarded.contexts.2.trans inv.contexts.2⟩,
    ⟨order, linked.congr discarded.registry.1 discarded.registry.2 fun id => by rw [links, links, discarded.nodes id]⟩,
    discarded.registry.2.trans_le inv.bounded, ?_, ?_, ?_⟩,
    ⟨discarded.nextId, ?_, ?_⟩⟩
  · intro other later
    have old := inv.fresh other (discarded.nextId.trans later)
    refine ⟨(discarded.nodes other).trans old.1, ?_⟩
    by_cases same : other = w.nextId
    · subst same
      rcases discarded.own with ⟨silent, -⟩ | ⟨s, next, -⟩
      · exact silent.trans old.2
      · exact absurd (next ▸ later) (Nat.not_succ_le_self _)
    · exact (discarded.log other same).trans old.2
  · intro other s present
    have different : other ≠ w.nextId := by
      rintro rfl
      rw [absent] at present
      cases present
    rw [sessions] at present
    rw [discarded.log other different]
    exact inv.lived other s present
  · intro other gone
    by_cases same : other = w.nextId
    · subst same
      rcases discarded.own with ⟨silent, -⟩ | ⟨s, -, log, -⟩
      · rw [silent, spent.2]
        exact .unborn
      · rw [log, spent.2]
        exact .discarded s
    · rw [sessions] at gone
      rw [discarded.log other same]
      exact inv.died other gone
  · intro other t alive
    have different : other ≠ w.nextId := (inv.born alive).ne
    rw [sessions, alive, discarded.log other different]
    exact .kept .refl
  · intro other old gone
    exact ⟨(sessions other).trans gone, discarded.log other old.ne⟩

theorem Invariant.entered (inv : Invariant config early w)
    (room : w.activeConnections < config.maxConnections) (entered : Entered w after) :
    Invariant config early after ∧ Advance config early w after := by
  obtain ⟨order, linked⟩ := inv.linked
  obtain ⟨first, present, created⟩ := entered.session
  have silent := (inv.fresh w.nextId (Nat.le_refl _)).2
  have bounded : after.activeConnections ≤ config.maxConnections := by
    rw [(entered.linked order linked).count, List.length_cons, ← linked.count]
    exact room
  refine ⟨⟨entered.config.trans inv.configured,
    ⟨entered.contexts.1.trans inv.contexts.1, entered.contexts.2.trans inv.contexts.2⟩,
    ⟨_, entered.linked order linked⟩, bounded, ?_, ?_, ?_⟩, ⟨by rw [entered.nextId]; exact Nat.le_succ _, ?_, ?_⟩⟩
  · intro other later
    rw [entered.nextId] at later
    have old := inv.fresh other (Nat.le_of_succ_le later)
    rw [← session_none, entered.sessions other (Nat.lt_of_succ_le later).ne', session_none, entered.log]
    exact old
  · intro other s alive
    rw [entered.log]
    by_cases same : other = w.nextId
    · subst same
      rw [present, Option.some.injEq] at alive
      rw [← alive, silent]
      exact ⟨⟨first, inv.configured ▸ created, .refl⟩, settled_open created.closing.1⟩
    · rw [entered.sessions other same] at alive
      exact inv.lived other s alive
  · intro other gone
    have different : other ≠ w.nextId := by
      rintro rfl
      rw [present] at gone
      cases gone
    rw [entered.sessions other different] at gone
    rw [entered.log]
    exact inv.died other gone
  · intro other t alive
    rw [entered.sessions other (inv.born alive).ne, alive, entered.log]
    exact .kept .refl
  · intro other old gone
    exact ⟨(entered.sessions other old.ne).trans gone, by rw [entered.log]⟩

/-! One callback for a session. -/

/-- What a callback for the session `id`, in the state `s`, leaves of it. -/
structure Outcome (acts ends : Moment → Moment → Prop) (env : Env) (w : World) (id : SessionId)
    (s : Session) (after : World) : Prop where
  fate : Fate acts ends s (w.log id) (after.session? id) (after.log id)
  settled : ∀ t, after.session? id = some t → Settled t
  masked : ∀ t, after.session? id = some t → (∀ n side, env.loopModify n side = .ok ()) →
    Masked ⟨t, after.log id, after.interest id, after.calls⟩

def siteOf {order : List SessionId} (linked : Linked w order) (present : w.session? id = some s) : Site where
  world := w.begin
  id := id
  present := fun gone => by rw [session_none.mpr (show w.node? id = none from gone)] at present; cases present
  order := order
  linked := linked.congr rfl rfl fun _ => rfl

theorem yields_after {program : Proc Unit} {left alive : Own → Prop}
    (yields : Yields site (fun _ => left) program (fun _ => alive) x) :
    (∃ y, alive y ∧ (program (site.place x)).2 = site.place y) ∨
    ∃ y, left y ∧ Released site y (program (site.place x)).2 := by
  unfold Yields Ensures at yields
  generalize program (site.place x) = result at *
  obtain ⟨_ | _, after⟩ := result
  · exact .inr yields.2
  · exact yields

/-- What a program that was followed on a session's own part leaves of it in the world. -/
theorem session_left {program : Proc Unit} {left alive : Own → Prop} {after : World}
    (inv : Invariant config early w) (present : w.session? id = some s)
    (runs : (program w.begin).2 = after)
    (yields : ∀ site : Site, site.id = id → site.world.config = config →
      site.world.targetTlsContext = config.targetTlsEnabled → Sound site.world.config s →
      Yields site (fun _ => left) program (fun _ => alive) ⟨s, w.log id, w.interest id, 0⟩) :
    (∃ y, alive y ∧ after.session? id = some y.session ∧ after.log id = y.log) ∨
      ∃ y, left y ∧ after.session? id = none ∧ after.log id = y.log ++ [.release y.session] := by
  obtain ⟨order, linked⟩ := inv.linked
  let site : Site := siteOf linked present
  have own : site.place ⟨s, w.log id, w.interest id, 0⟩ = w.begin := site.place_own present
  have same : site.world.config = config := inv.configured
  have whole := yields_after (yields site rfl same inv.contexts.2 (same ▸ (inv.lived id s present).sound))
  rw [own, runs] at whole
  rcases whole with ⟨y, holds, rfl⟩ | ⟨y, holds, released⟩
  · exact .inl ⟨y, holds, site.session_place_self y, site.log_place_self y⟩
  · refine .inr ⟨y, holds, session_none.mpr released.gone, ?_⟩
    rw [released.log]
    exact Function.update_self _ _ _

/-- From the moves of a handler to what it leaves in the world. -/
theorem callback_outcome {acts ends : Moment → Moment → Prop} {env : Env} {program : Proc Unit}
    (inv : Invariant config early w) (present : w.session? id = some s)
    (included : ∀ m n, acts m n → Acts config early m n) (ended : ∀ m n, ends m n → Ends early m n)
    (yields : ∀ (site : Site) (scene : Scene site) (x : Own), site.id = id → site.world.config = config →
      scene.acts = acts → x.session = s → scene.At [] x →
      Yields site (fun _ => scene.Left ends) program (fun _ => Served scene env) x) :
    Outcome acts ends env w id s (program w.begin).2 ∧ Invariant config early (program w.begin).2 ∧
      Advance config early w (program w.begin).2 := by
  obtain ⟨order, linked⟩ := inv.linked
  have lived := inv.lived id s present
  obtain ⟨first, created, path⟩ := lived.path
  have invBegin : Invariant config early w.begin := inv.counted 0
  let site := siteOf linked present
  have same : site.world.config = config := inv.configured
  let scene : Scene site := ⟨acts, ⟨s, w.log id, []⟩, same ▸ lived.sound,
    fun m n sound act => same ▸ sound_acts (same ▸ sound) (included m n act)⟩
  have own : site.place ⟨s, w.log id, w.interest id, 0⟩ = w.begin := site.place_own present
  have whole := yields_after (yields site scene ⟨s, w.log id, w.interest id, 0⟩ rfl same rfl rfl .refl)
  rw [own] at whole
  generalize (program w.begin).2 = after at *
  rcases whole with ⟨y, served, rfl⟩ | ⟨y, ⟨m, hand, moves, ending⟩, released⟩
  · have moves : Path acts ⟨s, w.log id, []⟩ ⟨y.session, y.log, []⟩ := served.here
    have all : Path (Acts config early) ⟨s, w.log id, []⟩ ⟨y.session, y.log, []⟩ :=
      Relation.ReflTransGen.mono included _ _ moves
    have log : (site.place y).log id = y.log := site.log_place_self y
    have interest : (site.place y).interest id = y.interest := site.interest_place_self y
    have alive : (site.place y).session? id = some y.session := site.session_place_self y
    refine ⟨⟨?_, fun t same => ?_, fun t same works => ?_⟩,
      invBegin.placed site ⟨⟨first, created, path.trans all⟩, served.settled⟩, (Advance.placed site present all).begun⟩
    · rw [alive, log]
      exact .kept moves
    · rw [alive, Option.some.injEq] at same
      exact same ▸ served.settled
    · rw [alive, Option.some.injEq] at same
      rw [log, interest, ← same]
      exact served.masked works
  · have all : Path (Acts config early) ⟨s, w.log id, []⟩ m := Relation.ReflTransGen.mono included _ _ moves
    have gone : after.session? id = none := session_none.mpr released.gone
    refine ⟨⟨?_, fun t same => absurd (gone.symm.trans same) nofun, fun t same => absurd (gone.symm.trans same) nofun⟩,
      invBegin.released site released (.released created (path.trans all) (ended _ _ ending)),
      (Advance.released site released present all (ended _ _ ending)).begun⟩
    rw [gone, show after.log id = y.log ++ [.release y.session] by simp [released.log, site, siteOf]]
    exact .released moves ending

theorem client_outcome (env : Env) (events : Events) (inv : Invariant config early w)
    (present : w.session? id = some s) (immediate : Immediate env → early) :
    Outcome (ActsClient early events)
      (EndsClient (s.handshakeDone = true)) env w id s (w.after env (.client id events)) ∧
      Invariant config early (w.after env (.client id events)) ∧
      Advance config early w (w.after env (.client id events)) := by
  refine callback_outcome inv present
    (fun _ _ act => .inl ⟨events, act⟩) (fun _ _ ending => .inl (ends_weaken ending)) ?_
  rintro site scene x rfl _ acts rfl here
  exact sessionHandleClientEvent_yields (fun _ _ act => acts ▸ act) immediate here (inv.lived _ _ present).settled id

/-- An event that reads from a target whose connect is pending. -/
def Hasty (s : Session) (events : Events) : Prop :=
  s.targetConnecting = true ∧ events.read = true ∧ events.write = false ∧ events.error = false

theorem target_outcome (env : Env) (events : Events) (inv : Invariant config early w)
    (present : w.session? id = some s) (registered : s.targetRegistered = true)
    (hasty : Hasty s events → early) :
    Outcome (ActsTarget config early) (EndsTarget early) env w id s (w.after env (.target id events)) ∧
      Invariant config early (w.after env (.target id events)) ∧
      Advance config early w (w.after env (.target id events)) := by
  refine callback_outcome inv present (fun _ _ => .inr) (fun _ _ => .inr) ?_
  rintro site scene x rfl rfl acts rfl here
  exact sessionHandleTargetEvent_yields (fun _ _ act => acts ▸ act) here (inv.lived _ _ present).settled registered
    fun connecting read write error => hasty ⟨connecting, read, write, error⟩

/-! A tick is made of releases, the listener of creations. -/

section loops
variable {kept : World → Prop}

theorem keeps_derefNode (id : SessionId) : Keeps kept (derefNode id) := by
  intro u holds
  unfold Ensures derefNode
  split
  next same => split at same <;> cases same; exact holds
  next same => split at same <;> cases same; exact holds

/-- Closing a session that is there releases it, and closing one that is gone does nothing. -/
theorem keeps_sessionClose (linked : ∀ u, kept u → ∃ order, Linked u order)
    (live : ∀ u id s, kept u → u.session? id = some s → s.closing ≠ .released)
    (releases : ∀ (site : Site) s after, kept site.world → site.world.session? site.id = some s →
      Released site ⟨s, site.world.log site.id, site.world.interest site.id, site.world.calls⟩ after → kept after)
    (id : SessionId) : Keeps kept (sessionClose id) := by
  intro u holds
  cases present : u.session? id with
  | none =>
    refine (Inert.sessionClose u (session_none.mp present)).weaken ?_ ?_
    · rintro _ _ rfl
      exact holds
    · rintro _ _ ⟨-, rfl⟩
      exact holds
  | some s =>
    obtain ⟨order, chain⟩ := linked u holds
    let site : Site := ⟨⟨u, id, fun gone => by rw [session_none.mpr gone] at present; cases present⟩, order, chain⟩
    have closes := sessionClose_releases site (b :=
      fun _ => kept) (x := ⟨s, u.log id, u.interest id, u.calls⟩) (live u id s holds present)
    rw [show site.place ⟨s, u.log id, u.interest id, u.calls⟩ = u from site.place_own present] at closes
    exact closes.weaken (fun _ after released => releases site s after holds present released)
      fun _ _ stopped => stopped

private theorem keeps_tickLoop (closes : ∀ id, Keeps kept (sessionClose id)) (now : Int) (fuel : Nat)
    (next : Option SessionId) :
    Keeps kept (tickLoop now fuel next) := by
  induction fuel generalizing next with
  | zero =>
    cases next with
    | none => exact .pure _
    | some id => exact .fault _
  | succ fuel ih =>
    cases next with
    | none => exact .pure _
    | some id =>
      exact (keeps_derefNode id).bind fun node => (Keeps.inspect _).bind fun config =>
        (Keeps.onlyIf fun _ => closes id).bind fun _ => ih node.next

theorem keeps_proxyTick (closes : ∀ id, Keeps kept (sessionClose id)) (env : Env) : Keeps kept (proxyTick env) :=
  (Keeps.inspect _).bind fun _ => (Keeps.inspect _).bind fun _ =>
    .ite (fun _ => .pure _) fun _ => .ite (fun _ => .pure _) fun _ =>
      (Keeps.inspect _).bind fun _ => (Keeps.inspect _).bind fun _ => keeps_tickLoop closes _ _ _

/-- The listener creates sessions only below the limit of connections. -/
theorem keeps_listenerLoop {env : Env} (counts : ∀ u, kept u → kept u.called)
    (refuses : ∀ clientFd u, kept u → kept (u.performed (.refuse clientFd)))
    (creates : ∀ clientFd u, kept u → u.activeConnections < u.config.maxConnections →
      Ensures (fun _ => kept) (sessionCreate env clientFd) (fun _ => kept) u)
    (budget : Nat) : Keeps kept (listenerLoop env budget) := by
  induction budget with
  | zero => exact .pure _
  | succ budget ih =>
    refine Keeps.bind (fun u holds => counts u holds) fun n => ?_
    split
    · exact .pure _
    next clientFd _ =>
      intro u holds
      simp only [ensures_bind, ensures_inspect]
      split
      · exact ih _ (refuses clientFd u holds)
      next room =>
        rw [ensures_bind]
        refine (creates clientFd u holds (not_le.mp room)).weaken ?_ fun _ _ stopped => stopped
        intro created after later
        exact Keeps.onlyIf (fun _ => ih) after later

theorem keeps_listenerCallback {env : Env} (counts : ∀ u, kept u → kept u.called)
    (refuses : ∀ clientFd u, kept u → kept (u.performed (.refuse clientFd)))
    (creates : ∀ clientFd u, kept u → u.activeConnections < u.config.maxConnections →
      Ensures (fun _ => kept) (sessionCreate env clientFd) (fun _ => kept) u)
    (events : Events) : Keeps kept (listenerCallback env events) :=
  (Keeps.inspect _).bind fun _ => .onlyIf fun _ => keeps_listenerLoop counts refuses creates _

end loops

/-! Whole runs. -/

structure Later (config : Config) (early : Prop) (start w : World) : Prop where
  invariant : Invariant config early w
  advance : Advance config early start w

section later
variable {start : World}

theorem Later.refl (inv : Invariant config early start) : Later config early start start := ⟨inv, .refl⟩

theorem Later.released {site : Site} {after : World} (later : Later config early start site.world)
    (begun : Invariant config early start) (present : site.world.session? site.id = some s)
    (released : Released site ⟨s, site.world.log site.id, site.world.interest site.id, site.world.calls⟩ after) :
    Later config early start after := by
  have lived := later.invariant.lived site.id s present
  obtain ⟨first, created, path⟩ := lived.path
  have ending : Ends early ⟨s, site.world.log site.id, []⟩ ⟨s, site.world.log site.id, []⟩ :=
    .inl (.interrupted lived.settled)
  exact ⟨later.invariant.released site released (.released created path ending),
    later.advance.trans begun (Advance.released site released present .refl ending)⟩

theorem Invariant.live (inv : Invariant config early w) (id : SessionId) (s : Session)
    (present : w.session? id = some s) : s.closing ≠ .released :=
  (inv.lived id s present).sound.live

theorem keeps_close (begun : Invariant config early start) : ∀ id, Keeps (Later config early start) (sessionClose id) :=
  keeps_sessionClose (fun _ later => later.invariant.linked) (fun _ id s later => later.invariant.live id s)
    fun _ _ _ later present released => later.released begun present released

theorem sessionCreate_later (begun : Invariant config early start) (env : Env) (clientFd : Socket) {u : World}
    (later : Later config early start u) (room : u.activeConnections < config.maxConnections) :
    Ensures (fun _ => Later config early start) (sessionCreate env clientFd) (fun _ => Later config early start) u := by
  obtain ⟨order, linked⟩ := later.invariant.linked
  refine (sessionCreate_creates (b := fun _ => Later config early start) linked
    (later.invariant.fresh _ (Nat.le_refl _)).1).weaken (fun created after made => ?_) fun _ _ stopped => stopped
  have step : Invariant config early after ∧ Advance config early u after := by
    unfold Made at made
    split at made
    · exact later.invariant.discarded made
    · exact later.invariant.entered room made
  exact ⟨step.1, later.advance.trans begun step.2⟩

private theorem keeps_tick (begun : Invariant config early start) (env : Env) :
    Keeps (Later config early start) (proxyTick env) :=
  keeps_proxyTick (keeps_close begun) env

private theorem keeps_listener (begun : Invariant config early start) (env : Env) (events : Events) :
    Keeps (Later config early start) (listenerCallback env events) := by
  apply keeps_listenerCallback
  · exact fun u later => ⟨later.invariant.counted _, later.advance.counted _⟩
  · exact fun clientFd u later => ⟨later.invariant.performed _, later.advance.performed _⟩
  · intro clientFd u later room
    exact sessionCreate_later begun env clientFd later (later.invariant.configured ▸ room)

end later

/-- A callback that `early` is true of moves target data while the target is
not connected. -/
def Prompt (early : Prop) (w : World) (env : Env) (call : Call) : Prop :=
  (Immediate env → early) ∧ ∀ id events s, call = .target id events → w.session? id = some s → Hasty s events → early

theorem step_later {call : Call} {env : Env} (inv : Invariant config early w) (enabled : call.Enabled w)
    (prompt : Prompt early w env call) : Later config early w (w.after env call) := by
  have begun : Later config early w w.begin := ⟨inv.counted 0, Advance.refl.counted 0⟩
  cases call with
  | accept events => exact Keeps.final (keeps_listener inv env events) begun
  | client id events =>
    obtain ⟨s, present, -⟩ := enabled
    obtain ⟨-, invariant, advance⟩ := client_outcome env events inv present prompt.1
    exact ⟨invariant, advance⟩
  | target id events =>
    obtain ⟨s, present, registered⟩ := enabled
    obtain ⟨-, invariant, advance⟩ :=
      target_outcome env events inv present registered (prompt.2 id events s rfl present)
    exact ⟨invariant, advance⟩
  | tick => exact Keeps.final (keeps_tick inv env) begun

private theorem runs_later {allowed : World → Env → Call → Prop}
    (prompt : ∀ w env call, allowed w env call → Prompt early w env call)
    (inv : Invariant config early w) (run : Runs allowed w after) : Later config early w after := by
  induction run with
  | refl => exact .refl inv
  | tail _ step ih =>
    obtain ⟨env, call, admitted, enabled, rfl⟩ := step
    have later := step_later ih.invariant enabled (prompt _ _ _ admitted)
    exact ⟨later.invariant, ih.advance.trans inv later.advance⟩

theorem runs_invariant {allowed : World → Env → Call → Prop}
    (prompt : ∀ w env call, allowed w env call → Prompt early w env call)
    (run : Runs allowed (serverInit config) w) : Invariant config early w :=
  (runs_later prompt (invariant_serverInit config early) run).invariant

theorem reachable_invariant (reachable : Reachable config w) : Invariant config True w :=
  runs_invariant (fun _ _ _ _ => ⟨fun _ => trivial, fun _ _ _ _ _ _ => trivial⟩) reachable

/-- What every callback that `allowed` admits keeps, every run of them keeps. -/
theorem runs_keep {allowed : World → Env → Call → Prop} (kept : World → Prop) (start : kept (serverInit config))
    (step : ∀ w env call, Reachable config w → call.Enabled w → allowed w env call → kept w → kept (w.after env call))
    (run : Runs allowed (serverInit config) w) : kept w := by
  have both : Reachable config w ∧ kept w := by
    induction run with
    | refl => exact ⟨.refl, start⟩
    | tail _ last ih =>
      obtain ⟨env, call, admitted, enabled, rfl⟩ := last
      obtain ⟨reachable, holds⟩ := ih
      exact ⟨reachable.next env call trivial enabled, step _ env call reachable enabled admitted holds⟩
  exact both.2

/-- What every moment of every life keeps, the record of every session shows. -/
theorem Invariant.every_log (kept : Moment → Prop) (good : List Io → Prop) (inv : Invariant config early w)
    (begin_ : ∀ s, Created config s → kept ⟨s, [], []⟩) (step : ∀ m n, kept m → Acts config early m n → kept n)
    (live : ∀ m, kept m → good m.log) (last : ∀ m n, kept m → Ends early m n → good (n.log ++ [.release n.session]))
    (unborn : good []) (discarded : ∀ s, good [.release s]) (id : SessionId) : good (w.log id) := by
  cases state : w.session? id with
  | some s =>
    obtain ⟨first, created, path⟩ := (inv.lived id s state).path
    exact live _ (path_keeps kept step (begin_ first created) path)
  | none =>
    have died := inv.died id state
    generalize w.log id = log at died
    cases died with
    | unborn => exact unborn
    | discarded s => exact discarded s
    | released created path ending => exact last _ _ (path_keeps kept step (begin_ _ created) path) ending

/-- What becomes of a session in any run from a reachable world on. -/
theorem reachable_fate (reachable : Reachable config w) (present : w.session? id = some s)
    (run : Runs (fun _ _ _ => True) w after) :
    Fate (Acts config True) (Ends True) s (w.log id) (after.session? id) (after.log id) :=
  (runs_later (fun _ _ _ _ => ⟨fun _ => trivial, fun _ _ _ _ _ _ => trivial⟩)
    (reachable_invariant reachable) run).advance.live
    id s present

/-! A session of a scripted run: a client connects and is upgraded. -/

def sampleRequest : Bytes :=
  ascii "GET /websockify HTTP/1.1\r\nHost: example.com\r\nUpgrade: websocket\r\nConnection: keep-alive, Upgrade\r\nSec-WebSocket-Key: dGhlIHNhbXBsZSBub25jZQ==\r\nSec-WebSocket-Version: 13\r\n\r\n"

def sampleConfig (bufferSize : Nat) : Config :=
  { proxyConfigInit with listenEndpoint := ⟨[42], [56]⟩, targetEndpoint := ⟨[42], [57]⟩, bufferSize := bufferSize }

def connected (config : Config) : World := (serverInit config).after (.scripted [] true 0) (.accept .reading)

def opened (config : Config) (inProgress : Bool) : World :=
  (connected config).after (.scripted [.ok sampleRequest] inProgress 0) (.client 0 .reading)

theorem connected_runs {allowed : World → Env → Call → Prop}
    (admitted : allowed (serverInit config) (.scripted [] true 0) (.accept .reading)) :
    Runs allowed (serverInit config) (connected config) := Runs.next .refl _ _ admitted trivial

theorem opened_runs {allowed : World → Env → Call → Prop} {inProgress : Bool}
    (first : allowed (serverInit config) (.scripted [] true 0) (.accept .reading))
    (second : allowed (connected config) (.scripted [.ok sampleRequest] inProgress 0) (.client 0 .reading))
    (enabled : (Call.client 0 .reading).Enabled (connected config)) :
    Runs allowed (serverInit config) (opened config inProgress) := (connected_runs first).next _ _ second enabled

/-- One callback more, the state it needs left to be checked with what the run before it needs. -/
theorem Runs.next_of {allowed : World → Env → Call → Prop} {before : Prop} {w u : World} {env : Env} {call : Call}
    (run : before → Runs allowed w u) (admitted : allowed u env call) (checked : before ∧ call.Enabled u) :
    Runs allowed w (u.after env call) := (run checked.1).next env call admitted checked.2

end Sockify.Proofs.Lifetimes
