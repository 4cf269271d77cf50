import Sockify.Lib.Unwinding
import Sockify.Proofs.Building
import Sockify.Proofs.Changes
import Sockify.Proofs.Locality
import Sockify.Proofs.ServerRegistry

/-! What happens to one session is settled by its own callbacks and the ticks:
no other client or target, and no new connection, can change a byte of it. -/

namespace Sockify.Proofs.Noninterference
open Sockify Stateful Registry SessionLogic Creation Lifetimes Building Changes Locality ServerRegistry Unwinding

/-- One callback and the answers it gets. -/
abbrev Input := Env × Call

def turn (w : World) (input : Input) : World := w.after input.1 input.2

def able (w : World) (input : Input) : Prop := input.2.Enabled w

/-- The callbacks of a session are its own and the tick. -/
def concerns (id : SessionId) (input : Input) : Bool :=
  match input.2 with
  | .accept _ => false
  | .client other _ => decide (other = id)
  | .target other _ => decide (other = id)
  | .tick => true

/-- Two worlds that a session cannot tell apart: the same state, the same
record, and the same interest while it lives. -/
structure Alike (id : SessionId) (w u : World) : Prop where
  session : w.session? id = u.session? id
  log : w.log id = u.log id
  interest : w.session? id ≠ none → w.interest id = u.interest id

/-- A world of this server in which the session has begun. -/
structure Hosts (config : Config) (id : SessionId) (w : World) : Prop where
  invariant : Invariant config True w
  born : id < w.nextId

variable {config : Config} {w u after : World} {id other : SessionId} {s : Session} {env : Env}
  {setting : Surroundings} {site : Site}

namespace Alike

theorem refl : Alike id w w := ⟨rfl, rfl, fun _ => rfl⟩

theorem symm (alike : Alike id w u) : Alike id u w :=
  ⟨alike.session.symm, alike.log.symm, fun present => (alike.interest (alike.session ▸ present)).symm⟩

theorem trans {v : World} (first : Alike id w u) (second : Alike id u v) : Alike id w v :=
  ⟨first.session.trans second.session, first.log.trans second.log, fun present =>
    (first.interest present).trans (second.interest (first.session ▸ present))⟩

end Alike

/-! The callbacks of one session. -/

theorem Ending.alike {α : Type} {ending : Ending α} {first second : Site}
    {result last : Except Fault α × World} (one : ending.At first result) (two : ending.At second last)
    (here : first.id = id) (there : second.id = id) : Alike id result.2 last.2 := by
  obtain ⟨-, one⟩ := one
  obtain ⟨-, two⟩ := two
  subst here
  split at one
  next released =>
    rw [if_pos released] at two
    have gone : result.2.session? first.id = none ∧ last.2.session? first.id = none :=
      ⟨session_none.mpr one.gone, session_none.mpr (there ▸ two.gone)⟩
    refine ⟨gone.1.trans gone.2.symm, ?_, fun present => absurd gone.1 present⟩
    rw [one.log, two.log, there, Function.update_self, Function.update_self]
  next kept =>
    rw [if_neg kept] at two
    rw [one, two]
    refine ⟨?_, ?_, fun _ => ?_⟩
    · exact (first.session_place_self _).trans (there ▸ second.session_place_self _).symm
    · exact (first.log_place_self _).trans (there ▸ second.log_place_self _).symm
    · exact (first.interest_place_self _).trans (there ▸ second.interest_place_self _).symm

theorem Ending.apart {α : Type} {ending : Ending α} {result : Except Fault α × World} (ends : ending.At site result)
    (different : other ≠ site.id) : Alike other site.world result.2 := by
  obtain ⟨-, ends⟩ := ends
  split at ends
  · exact ⟨(ends.sessions other different).symm, by simp [ends.log, different], fun _ =>
      (ends.interest other different).symm⟩
  · rw [ends]
    exact ⟨(site.session_place_other _ different).symm, by simp [Spot.place, different],
      fun _ => by simp [Spot.place, different]⟩

/-- What the session `id` sees around it in any world of this server. -/
def surroundingsOf (config : Config) (id : SessionId) : Surroundings := ⟨id, config, config.targetTlsEnabled⟩

theorem around {order : List SessionId}
    (inv : Invariant config True w) (linked : Linked w order) (present : w.session? id = some s) :
    (surroundingsOf config id).Around (siteOf linked present) := ⟨rfl, inv.configured, inv.contexts.2⟩

private theorem callback_consistent {program : Proc Unit}
    (local_ : Local (surroundingsOf config id) Idles program) (first : Invariant config True w)
    (second : Invariant config True u) (alike : Alike id w u) (present : w.session? id = some s) :
    Alike id (program w.begin).2 (program u.begin).2 := by
  obtain ⟨order, linked⟩ := first.linked
  obtain ⟨others, chained⟩ := second.linked
  have found : u.session? id = some s := alike.session ▸ present
  obtain ⟨ending, -, ends⟩ := local_ ⟨s, w.log id, w.interest id, 0⟩
  have left := ends _ (around first linked present)
  have right := ends _ (around second chained found)
  rw [show (siteOf linked present).place ⟨s, w.log id, w.interest id, 0⟩ =
    w.begin from (siteOf linked present).place_own present] at left
  rw [alike.log, alike.interest (by simp [present]),
    show (siteOf chained found).place ⟨s, u.log id, u.interest id, 0⟩ =
      u.begin from (siteOf chained found).place_own found] at right
  exact Ending.alike left right rfl rfl

/-- What a callback leaves of its session. -/
theorem callback_left {program : Proc Unit} (local_ : Local (surroundingsOf config id) Idles program)
    (inv : Invariant config True w) (present : w.session? id = some s) :
    ∃ y, Idles ⟨s, w.log id, w.interest id, 0⟩ y ∧
      (((program w.begin).2.session? id = some y.session ∧ (program w.begin).2.log id = y.log) ∨
        ((program w.begin).2.session? id = none ∧ (program w.begin).2.log id = y.log ++ [.release y.session])) := by
  obtain ⟨order, linked⟩ := inv.linked
  obtain ⟨ending, idles, ends⟩ := local_ ⟨s, w.log id, w.interest id, 0⟩
  obtain ⟨-, left⟩ := ends _ (around inv linked present)
  rw [show (siteOf linked present).place ⟨s, w.log id, w.interest id, 0⟩ =
    w.begin from (siteOf linked present).place_own present] at left
  refine ⟨ending.own, idles, ?_⟩
  split at left
  · refine .inr ⟨session_none.mpr left.gone, ?_⟩
    rw [left.log]
    exact Function.update_self _ _ _
  · rw [left]
    exact .inl ⟨(siteOf linked present).session_place_self _, (siteOf linked present).log_place_self _⟩

theorem callback_respects {program : Proc Unit}
    (local_ : Local (surroundingsOf config other) Idles program) (inv : Invariant config True w)
    (present : w.session? other = some s) (different : id ≠ other) : Alike id w (program w.begin).2 := by
  obtain ⟨order, linked⟩ := inv.linked
  obtain ⟨ending, -, ends⟩ := local_ ⟨s, w.log other, w.interest other, 0⟩
  have left := ends _ (around inv linked present)
  rw [show (siteOf linked present).place ⟨s, w.log other, w.interest other, 0⟩ = w.begin from
    (siteOf linked present).place_own present] at left
  have apart := Ending.apart left different
  exact ⟨apart.session, apart.log, apart.interest⟩

/-! The tick. -/

/-- What a tick that started in `w` has done to a session so far. -/
def Passed (w u : World) : Prop :=
  ∀ id, Alike id w u ∨ ∃ s, w.session? id = some s ∧ u.session? id = none ∧ u.log id = w.log id ++ [.release s]

theorem Passed.same (passed : Passed w u) (present : u.session? id = some s) : Alike id w u := by
  rcases passed id with same | ⟨_, -, gone, -⟩
  · exact same
  · rw [present] at gone
    cases gone

private theorem passed_close (live : Live w) :
    ∀ id, Keeps (fun u => Passed w u ∧ ∃ order, Linked u order) (sessionClose id) := by
  refine keeps_sessionClose (fun u both => both.2)
    (fun u id s both present => live id s ((both.1.same present).session.trans present)) ?_
  rintro site s after ⟨passed, -⟩ present released
  have same := passed.same present
  refine ⟨fun other => ?_, _, released.linked⟩
  by_cases here : other = site.id
  · subst here
    refine .inr ⟨s, same.session.trans present, session_none.mpr released.gone, ?_⟩
    rw [released.log, Function.update_self, same.log]
  · have still : Alike other site.world after :=
      ⟨(released.sessions other here).symm, by rw [released.log, Function.update_of_ne here], fun _ =>
        (released.interest other here).symm⟩
    rcases passed other with same | ⟨t, alive, gone, log⟩
    · exact .inl (same.trans still)
    · exact .inr ⟨t, alive, still.session ▸ gone, still.log ▸ log⟩

/-- A tick spares a session or releases it, by its own state and the time. -/
theorem tick_outcome (env : Env) (inv : Invariant config True w) (present : w.session? id = some s) :
    if sessionIsExpired s config (env.time 0) = true then
      (w.after env .tick).session? id = none ∧ (w.after env .tick).log id = w.log id ++ [.release s]
    else Alike id w (w.after env .tick) := by
  have begun : Invariant config True w.begin := inv.counted 0
  obtain ⟨order, linked⟩ := begun.linked
  have live : Live w.begin := begun.live
  have filters : Ensures (fun _ _ => False) (proxyTick env) _ w.begin := proxyTick_filters live linked
  obtain ⟨_, after, runs, scanned⟩ := filters.returns
  have passed : Passed w.begin (w.after env .tick) :=
    ((keeps_proxyTick (passed_close live) env).final ⟨fun _ => .inl .refl, order, linked⟩).1
  have ends : w.after env .tick = (proxyTick env w.begin).2 := rfl
  rw [runs] at ends
  rw [ends] at passed ⊢
  have verdict : survives w.begin (env.time 0) id = !sessionIsExpired s config (env.time 0) := by
    have same : w.begin.session? id = some s := present
    simp [survives, same, begun.configured]
  have list := scanned.linked
  rw [List.append_nil] at list
  split
  next expired =>
    have gone : after.session? id = none := by
      by_contra alive
      have member := list.live id (fun absent => alive (session_none.mpr absent))
      have spared : survives w.begin (env.time 0) id = true := (List.mem_filter.mp member).2
      simp [verdict, expired] at spared
    rcases passed id with same | ⟨t, before, -, log⟩
    · have alive : some s = none := present.symm.trans (same.session.trans gone)
      cases alive
    · obtain rfl : s = t := by simpa [World.begin, World.session?, World.node?] using present.symm.trans before
      exact ⟨gone, log⟩
  next fresh =>
    rcases passed id with same | ⟨_, -, gone, -⟩
    · exact ⟨same.session, same.log, same.interest⟩
    · have member : id ∈ order.filter (survives w.begin (env.time 0)) := by
        refine List.mem_filter.mpr ⟨linked.live id fun absent => ?_, by simp [verdict, fresh]⟩
        rw [session_none.mpr (show w.node? id = none from absent)] at present
        cases present
      exact absurd (session_none.mp gone) (list.alive member)

/-- A tick does nothing to a session that is gone. -/
theorem tick_misses (env : Env) (inv : Invariant config True w) (gone : w.session? id = none) :
    Alike id w (w.after env .tick) := by
  have begun : Invariant config True w.begin := inv.counted 0
  have live : Live w.begin := begun.live
  have passed : Passed w.begin (w.after env .tick) :=
    ((keeps_proxyTick (passed_close live) env).final ⟨fun _ => .inl .refl, begun.linked⟩).1
  rcases passed id with same | ⟨s, alive, -, -⟩
  · exact ⟨same.session, same.log, same.interest⟩
  · rw [show w.begin.session? id = none from gone] at alive
    cases alive

/-! The listener. -/

/-- What the listener leaves of a session that was there before. -/
structure Unmoved (config : Config) (id : SessionId) (w u : World) : Prop where
  hosts : Hosts config id u
  alike : Alike id w u

private theorem sessionCreate_watched (env : Env) (interest : Side → Option Events) (clientFd : Socket)
    (different : u.nextId ≠ id) (watched : Watched id interest u) :
    Ensures (fun _ => Watched id interest) (sessionCreate env clientFd) (fun _ => Watched id interest) u := by
  simp only [sessionCreate, ensures_bind]
  change Ensures _ _ _ u.called
  split
  · exact watched
  · rw [ensures_bind, ensures_alloc]
    exact keeps_setUp (builds_watched different) (fun _ _ => watched_update _) _ watched

private theorem sessionCreate_unmoved (clientFd : Socket) (unmoved : Unmoved config id w u)
    (room : u.activeConnections < u.config.maxConnections) :
    Ensures (fun _ => Unmoved config id w) (sessionCreate env clientFd) (fun _ => Unmoved config id w) u := by
  have invariant := unmoved.hosts.invariant
  have different : id ≠ u.nextId := unmoved.hosts.born.ne
  obtain ⟨order, linked⟩ := invariant.linked
  have creates : Ensures (fun _ _ => False) (sessionCreate env clientFd) (Made u) u :=
    sessionCreate_creates linked (invariant.fresh _ (Nat.le_refl _)).1
  have later := sessionCreate_later invariant env clientFd (.refl invariant) (invariant.configured ▸ room)
  have watched := sessionCreate_watched env (u.interest id) clientFd different.symm rfl
  refine ((creates.both later).both watched).weaken ?_ fun _ _ stopped => stopped.1.1.elim
  rintro created after ⟨⟨made, later⟩, watched⟩
  refine ⟨⟨later.invariant, unmoved.hosts.born.trans_le later.advance.nextId⟩, unmoved.alike.trans ?_⟩
  unfold Made at made
  split at made
  · exact ⟨by simp only [World.session?, made.nodes id], (made.log id different).symm, fun _ => Eq.symm watched⟩
  · exact ⟨(made.sessions id different).symm, by rw [made.log], fun _ => Eq.symm watched⟩

private theorem accept_respects (events : Events) (hosts : Hosts config id w) :
    Alike id w (w.after env (.accept events)) := by
  have begun : Unmoved config id w w.begin := ⟨⟨hosts.invariant.counted 0, hosts.born⟩, ⟨rfl, rfl, fun _ => rfl⟩⟩
  have keeps : Keeps (Unmoved config id w) (listenerCallback env events) := by
    apply keeps_listenerCallback
    · exact fun u unmoved => ⟨⟨unmoved.hosts.invariant.counted _, unmoved.hosts.born⟩,
        ⟨unmoved.alike.session, unmoved.alike.log, unmoved.alike.interest⟩⟩
    · exact fun clientFd u unmoved => ⟨⟨unmoved.hosts.invariant.performed _, unmoved.hosts.born⟩,
        ⟨unmoved.alike.session, unmoved.alike.log, unmoved.alike.interest⟩⟩
    · exact fun clientFd u unmoved room => sessionCreate_unmoved clientFd unmoved room
  exact (keeps.final begun).alike

/-! The unwinding conditions. -/

theorem step_keeps (hosts : Hosts config id w) (input : Input) (enabled : able w input) :
    Hosts config id (turn w input) := by
  have later : Later config True w (w.after input.1 input.2) :=
    step_later hosts.invariant enabled ⟨fun _ => trivial, fun _ _ _ _ _ _ => trivial⟩
  exact ⟨later.invariant, hosts.born.trans_le later.advance.nextId⟩

theorem step_respects (hosts : Hosts config id w) (input : Input) (enabled : able w input)
    (unseen : concerns id input = false) :
    Alike id w (turn w input) := by
  obtain ⟨env, call⟩ := input
  cases call with
  | accept events => exact accept_respects events hosts
  | tick => cases unseen
  | client other events =>
    obtain ⟨s, present, -⟩ := enabled
    have different : other ≠ id := by simpa [concerns] using unseen
    exact callback_respects (sessionHandleClientEvent_local events) hosts.invariant present different.symm
  | target other events =>
    obtain ⟨s, present, -⟩ := enabled
    have different : other ≠ id := by simpa [concerns] using unseen
    exact callback_respects (sessionHandleTargetEvent_local events) hosts.invariant present different.symm

private theorem able_carries (alike : Alike id w u) {input : Input} (seen : concerns id input = true)
    (enabled : able w input) : able u input := by
  obtain ⟨env, call⟩ := input
  cases call with
  | accept events | tick => trivial
  | client other events | target other events =>
    obtain rfl : other = id := by simpa [concerns] using seen
    obtain ⟨s, present, registered⟩ := enabled
    exact ⟨s, alike.session ▸ present, registered⟩

private theorem tick_consistent (first : Invariant config True w) (second : Invariant config True u)
    (alike : Alike id w u) :
    Alike id (w.after env .tick) (u.after env .tick) := by
  cases present : w.session? id with
  | some s =>
    have left := tick_outcome env first present
    have right := tick_outcome env second (alike.session ▸ present)
    split at left
    next expired =>
      rw [if_pos expired] at right
      exact ⟨left.1.trans right.1.symm, by rw [left.2, right.2, alike.log], fun present => absurd left.1 present⟩
    next fresh =>
      rw [if_neg fresh] at right
      exact left.symm.trans (alike.trans right)
  | none =>
    have left := tick_misses env first present
    have right := tick_misses env second (alike.session ▸ present)
    exact left.symm.trans (alike.trans right)

private theorem step_consistent (first : Hosts config id w) (second : Hosts config id u)
    (alike : Alike id w u) {input : Input} (seen : concerns id input = true) (enabled : able w input) :
    Alike id (turn w input) (turn u input) := by
  obtain ⟨env, call⟩ := input
  cases call with
  | accept events => cases seen
  | tick => exact tick_consistent first.invariant second.invariant alike
  | client other events =>
    obtain rfl : other = id := by simpa [concerns] using seen
    obtain ⟨s, present, -⟩ := enabled
    exact callback_consistent (sessionHandleClientEvent_local events) first.invariant second.invariant alike present
  | target other events =>
    obtain rfl : other = id := by simpa [concerns] using seen
    obtain ⟨s, present, -⟩ := enabled
    exact callback_consistent (sessionHandleTargetEvent_local events) first.invariant second.invariant alike present

private theorem server_unwinds (config : Config) (id : SessionId) :
    Unwinds turn able (Hosts config id) (concerns id) (Alike id) where
  keeps := fun _ input hosts enabled => step_keeps hosts input enabled
  symm := fun _ _ => Alike.symm
  trans := fun _ _ _ => Alike.trans
  respects := fun _ input hosts enabled unseen => step_respects hosts input enabled unseen
  carries := fun _ _ _ alike seen enabled => able_carries alike seen enabled
  consistent := fun _ _ _ first second alike seen enabled => step_consistent first second alike seen enabled

/-- Two runs of the server, from two worlds that hold a session in the same
state, that agree on the session's own callbacks and on the ticks: whatever
other clients connect, send and lose in either, the session ends up in the same
state, with the same record of calls and the same interest. It might as well
have been alone: its own callbacks are a run by themselves. -/
theorem sessions_apart {config : Config} {w u : World} {id : SessionId} {s : Session} {inputs others : List Input}
    (first : Reachable config w) (second : Reachable config u) (present : w.session? id = some s) (same : Alike id w u)
    (admitted : Admits turn able w inputs) (accepted : Admits turn able u others)
    (agree : inputs.filter (concerns id) = others.filter (concerns id)) :
    Alike id (inputs.foldl turn w) (others.foldl turn u) ∧
      Admits turn able w (inputs.filter (concerns id)) ∧
      Alike id (inputs.foldl turn w) ((inputs.filter (concerns id)).foldl turn w) := by
  have invariant := reachable_invariant first
  have other := reachable_invariant second
  have left : Hosts config id w := ⟨invariant, invariant.born present⟩
  have right : Hosts config id u := ⟨other, other.born (same.session ▸ present)⟩
  have unwinds := server_unwinds config id
  exact ⟨unwinds.runs_alike left right same admitted accepted agree, unwinds.purged left left .refl admitted⟩

def crowd : List Input :=
  [(.scripted [] true 0, .accept .reading), (.scripted [.ok sampleRequest] true 0, .client 1 .reading),
    (.scripted [] true 0, .target 0 .writing)]

def alone : List Input := [(.scripted [] true 0, .target 0 .writing)]

theorem sessions_apart_crowded : (crowd.foldl turn (opened (sampleConfig 64) true)).activeConnections = 2 ∧
    Alike 0 (crowd.foldl turn (opened (sampleConfig 64) true)) (alone.foldl turn (opened (sampleConfig 64) true)) := by
  have run : Reachable (sampleConfig 64) (opened (sampleConfig 64) true) :=
    opened_runs trivial trivial (by decide +kernel)
  have busy : Call.Enabled ((crowd.take 1).foldl turn (opened (sampleConfig 64) true)) (.client 1 .reading) := by
    decide +kernel
  have served : Call.Enabled ((crowd.take 2).foldl turn (opened (sampleConfig 64) true)) (.target 0 .writing) := by
    decide +kernel
  have waiting : Call.Enabled (opened (sampleConfig 64) true) (.target 0 .writing) := by decide +kernel
  have admitted : Admits turn able (opened (sampleConfig 64) true) crowd := ⟨trivial, busy, served, trivial⟩
  have accepted : Admits turn able (opened (sampleConfig 64) true) alone := ⟨waiting, trivial⟩
  have agree : crowd.filter (concerns 0) = alone.filter (concerns 0) := by simp [crowd, alone, concerns]
  obtain ⟨s, present, -⟩ := waiting
  exact ⟨by decide +kernel, (sessions_apart run run present .refl admitted accepted agree).1⟩

end Sockify.Proofs.Noninterference
