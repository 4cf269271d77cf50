import Mathlib.Algebra.BigOperators.Group.Finset.Piecewise
import Mathlib.Tactic.Abel
import Sockify.Proofs.Releases
import Sockify.Resources

/-! The ledger of descriptors: whatever `accept` and `connect` hand out is held
by a live session, has been closed once, or was lost with a failed allocation. -/

namespace Sockify.Proofs.DescriptorLedger
open Sockify Stateful Registry SessionLogic Soundness Creation Lifetimes Building Locality
  Noninterference ServerRegistry Releases

/-- The receptions that made a descriptor the client of a session. -/
def ofSession (id : SessionId) (reception : Reception) : Bool := decide (reception.owner = some id)

def isRefused (reception : Reception) : Bool := decide (reception = .refused)

def isLost (reception : Reception) : Bool := decide (reception = .lost)

/-- Every session accounts for its own descriptors, and the listener for those
that it closes. -/
structure Balanced (accepted : List (Socket × Reception)) (w : World) : Prop where
  each : ∀ id, (↑(heldBy w id) + ↑(closedBy w id) : Multiset Socket) =
    ↑(handedOut accepted (ofSession id)) + ↑((w.log id).flatMap opens)
  alive : ∀ id s, w.session? id = some s → closedBy w id = []
  refused : refusedIn w = handedOut accepted isRefused
  born : ∀ one ∈ accepted, ∀ id, one.2.owner = some id → id < w.nextId

variable {config : Config} {w u after : World} {id other : SessionId} {s : Session} {env : Env}
variable {accepted more : List (Socket × Reception)} {clientFd : Socket} {way : Reception → Bool}

@[simp] theorem handedOut_nil : handedOut [] way = [] := rfl

@[simp] theorem handedOut_append : handedOut
    (accepted ++ more) way = handedOut accepted way ++ handedOut more way := by
  simp [handedOut]

private theorem handedOut_single {reception : Reception} :
    handedOut [(clientFd, reception)] way = if way reception = true then [clientFd] else [] := by
  cases told : way reception <;> simp [handedOut, told]

private theorem heldBy_some (present : w.session? id = some s) : heldBy w id = sessionDescriptors s := by
  simp [heldBy, present]

private theorem heldBy_none (gone : w.session? id = none) : heldBy w id = [] := by simp [heldBy, gone]

private theorem heldBy_congr (same : u.session? id = w.session? id) : heldBy u id = heldBy w id := by
  rw [heldBy, heldBy, same]

@[simp] theorem opens_release (s : Session) : opens (.release s) = [] := rfl

/-! What the record shows as closed. -/

private theorem sessionCloseCalls_closed (s : Session) :
    (sessionCloseCalls s).flatMap Disposal.closed = sessionDescriptors s := by
  unfold sessionCloseCalls sessionDescriptors
  cases s.clientFd <;> cases s.targetFd <;> simp [Disposal.closed] <;> split <;> simp [Disposal.closed]

private theorem closeDeeds_closed (id other : SessionId) (s : Session) :
    (closeDeeds id s).flatMap (Deed.closed other) = if id = other then sessionDescriptors s else [] := by
  simp only [closeDeeds, List.flatMap_append, List.flatMap_map, Deed.closed]
  split
  · rw [sessionCloseCalls_closed]
    simp [freeDeeds, Deed.closed, Disposal.closed]
  next different => simp [freeDeeds, Deed.closed, different]

private theorem closeDeeds_refused (id : SessionId) (s : Session) : (closeDeeds id s).flatMap Deed.refused = [] := by
  simp [closeDeeds, List.flatMap_map, freeDeeds, Deed.refused]

private theorem closedBy_same (same : u.deeds = w.deeds) : closedBy u id = closedBy w id := by
  rw [closedBy, closedBy, same]

private theorem refusedIn_same (same : u.deeds = w.deeds) : refusedIn u = refusedIn w := by
  rw [refusedIn, refusedIn, same]

private theorem closedBy_more {deeds : List Deed} (grown : u.deeds = w.deeds ++ deeds) :
    closedBy u id = closedBy w id ++ deeds.flatMap (Deed.closed id) := by
  rw [closedBy, grown, List.flatMap_append]
  rfl

private theorem refusedIn_more {deeds : List Deed} (grown : u.deeds = w.deeds ++ deeds) :
    refusedIn u = refusedIn w ++ deeds.flatMap Deed.refused := by
  rw [refusedIn, grown, List.flatMap_append]
  rfl

/-- A session that does not yet exist has no descriptors, and none of it are closed. -/
theorem Balanced.unborn (balanced : Balanced accepted w) (later : w.nextId ≤ id) :
    handedOut accepted (ofSession id) = [] := by
  rw [handedOut, List.map_eq_nil_iff, List.filter_eq_nil_iff]
  intro one member own
  exact absurd (balanced.born one member id (by simpa [ofSession] using own)) (not_lt.mpr later)

theorem Balanced.untouched (balanced : Balanced accepted w) (later : w.nextId ≤ id)
    (silent : w.log id = []) : closedBy w id = [] := by
  have each := balanced.each id
  rw [balanced.unborn later, silent] at each
  have empty : (↑(heldBy w id ++ closedBy w id) : Multiset Socket) = 0 := each
  exact (List.append_eq_nil_iff.mp ((Multiset.coe_eq_zero _).mp empty)).2

private theorem startLeases_closed (config : Config) (id : SessionId) :
    closedBy (serverInit config) id = [] ∧ refusedIn (serverInit config) = [] := by
  constructor <;> simp [closedBy, refusedIn, serverInit, List.flatMap_map, Deed.closed, Deed.refused]

private theorem balanced_serverInit (config : Config) : Balanced [] (serverInit config) where
  each := fun id => by
    rw [(startLeases_closed config id).1]
    simp [heldBy, World.session?, World.node?, serverInit]
  alive := fun id _ _ => (startLeases_closed config id).1
  refused := (startLeases_closed config 0).2
  born := fun one member => by simp at member

/-! The sessions. -/

theorem Balanced.placed {site : Site} {x y : Own} (idles : Idles x y) (balanced : Balanced accepted (site.place x)) :
    Balanced accepted (site.place y) where
  each := fun id => by
    have each := balanced.each id
    rw [closedBy_same ((site.deeds_place y).trans (site.deeds_place x).symm)]
    by_cases here : id = site.id
    · subst here
      obtain ⟨more, grown, -⟩ := idles
      rw [heldBy_some (site.session_place_self x), site.log_place_self] at each
      rw [heldBy_some (site.session_place_self y), site.log_place_self,
        grown.held, grown.log, List.flatMap_append, ← Multiset.coe_add,
        ← Multiset.coe_add, ← add_assoc, ← each]
      exact add_right_comm _ _ _
    · have sessions : (site.place y).session? id = (site.place x).session? id :=
        (site.session_place_other y here).trans (site.session_place_other x here).symm
      have logs : (site.place y).log id = (site.place x).log id := by simp [Spot.place, here]
      rw [heldBy_congr sessions, logs]
      exact each
  alive := fun id s present => by
    rw [closedBy_same ((site.deeds_place y).trans (site.deeds_place x).symm)]
    by_cases here : id = site.id
    · subst here
      exact balanced.alive site.id _ (site.session_place_self x)
    · rw [site.session_place_other y here, ← site.session_place_other x here] at present
      exact balanced.alive id s present
  refused := (refusedIn_same ((site.deeds_place y).trans (site.deeds_place x).symm)).trans balanced.refused
  born := fun one member id own => by
    rw [site.nextId_place, ← site.nextId_place x]
    exact balanced.born one member id own

theorem Balanced.released {site : Site} {x : Own} (released : Released site x after)
    (balanced : Balanced accepted (site.place x)) :
    Balanced accepted after := by
  have grown : after.deeds = (site.place x).deeds ++ closeDeeds site.id x.session := by
    rw [released.deeds, site.deeds_place]
  have gone : after.session? site.id = none := session_none.mpr released.gone
  have sessions : ∀ id, id ≠ site.id → after.session? id = (site.place x).session? id :=
    fun id apart => (released.sessions id apart).trans (site.session_place_other x apart).symm
  refine ⟨fun id => ?_, fun id s present => ?_, ?_, fun one member id own => ?_⟩
  · have each := balanced.each id
    rw [closedBy_more grown, closeDeeds_closed]
    by_cases here : id = site.id
    · subst here
      rw [heldBy_some (site.session_place_self x), site.log_place_self] at each
      rw [heldBy_none gone, released.log, Function.update_self,
        if_pos rfl, List.flatMap_append, List.flatMap_singleton, opens_release,
        List.append_nil, ← each, ← Multiset.coe_add, Multiset.coe_nil, zero_add]
      exact add_comm _ _
    · have logs : after.log id = (site.place x).log id := by rw [released.log]; simp [Spot.place, here]
      rw [heldBy_congr (sessions id here), logs, if_neg (Ne.symm here), List.append_nil]
      exact each
  · have apart : id ≠ site.id := by
      rintro rfl
      rw [gone] at present
      cases present
    rw [closedBy_more grown, closeDeeds_closed, if_neg apart.symm, List.append_nil]
    exact balanced.alive id s (sessions id apart ▸ present)
  · rw [refusedIn_more grown, closeDeeds_refused, List.append_nil]
    exact balanced.refused
  · rw [released.nextId, ← site.nextId_place x]
    exact balanced.born one member id own

private theorem balanced_steady : Steady (Balanced accepted) where
  counted := fun _ _ balanced => ⟨balanced.each, balanced.alive, balanced.refused, balanced.born⟩
  placed := fun _ _ _ idles balanced => balanced.placed idles
  released := fun _ _ _ released balanced => balanced.released released

/-! The listener. -/

/-- A world of this server, with the descriptors that it has accepted. -/
structure Accounted (config : Config) (accepted : List (Socket × Reception)) (w : World) : Prop where
  invariant : Invariant config True w
  balanced : Balanced accepted w

theorem Accounted.counted (accounted : Accounted config accepted w) (calls : Nat) :
    Accounted config accepted { w with calls := calls } :=
  ⟨accounted.invariant.counted calls, balanced_steady.counted w calls accounted.balanced⟩

/-- A descriptor that no session gets leaves the accounts of the sessions alone. -/
theorem Balanced.aside (balanced : Balanced accepted w) (clientFd : Socket) {reception : Reception}
    (nobody : reception.owner = none) {u : World} (sessions : u.session? = w.session?)
    (log : u.log = w.log) (nextId : u.nextId = w.nextId) (closed : ∀ id, closedBy u id = closedBy w id)
    (refused : refusedIn u = refusedIn w ++ handedOut [(clientFd, reception)] isRefused) :
    Balanced (accepted ++ [(clientFd, reception)]) u := by
  refine ⟨fun id => ?_, fun id s present => ?_, ?_, fun one member id own => ?_⟩
  · rw [handedOut_append, handedOut_single, if_neg (by simp [ofSession, nobody]),
      List.append_nil, heldBy_congr (congrFun sessions id), closed, log]
    exact balanced.each id
  · rw [closed]
    exact balanced.alive id s (congrFun sessions id ▸ present)
  · rw [refused, balanced.refused, handedOut_append]
  · rw [nextId]
    rcases List.mem_append.mp member with old | new
    · exact balanced.born one old id own
    · obtain rfl := List.mem_singleton.mp new
      rw [nobody] at own
      cases own

theorem Accounted.lost (accounted : Accounted config accepted w) (clientFd : Socket) :
    Accounted config (accepted ++ [(clientFd, .lost)]) w :=
  ⟨accounted.invariant,
    accounted.balanced.aside clientFd rfl rfl rfl rfl (fun _ => rfl) (by simp [handedOut, isRefused])⟩

theorem Accounted.refused (accounted : Accounted config accepted w) (clientFd : Socket) :
    Accounted config (accepted ++ [(clientFd, .refused)]) (w.performed (.refuse clientFd)) := by
  have grown : (w.performed (.refuse clientFd)).deeds = w.deeds ++ [.refuse clientFd] := rfl
  refine ⟨accounted.invariant.performed _, accounted.balanced.aside clientFd rfl rfl rfl rfl (fun id => ?_) ?_⟩
  · rw [closedBy_more grown]
    simp [Deed.closed]
  · rw [refusedIn_more grown]
    simp [Deed.refused, handedOut, isRefused]

/-- A descriptor that went to the next session. -/
theorem Accounted.given (accounted : Accounted config accepted w) {reception : Reception}
    (mine : reception.owner = some w.nextId) (invariant : Invariant config True after)
    (later : w.nextId < after.nextId)
    (others : ∀ id, id ≠ w.nextId → after.session? id = w.session? id ∧ after.log id = w.log id)
    {deeds : List Deed} (grown : after.deeds = w.deeds ++ deeds)
    (mute : deeds.flatMap Deed.refused = [])
    (apart : ∀ id, id ≠ w.nextId → deeds.flatMap (Deed.closed id) = [])
    (own : (↑(heldBy after w.nextId) + ↑(deeds.flatMap (Deed.closed w.nextId)) : Multiset Socket) = {clientFd})
    (alive : ∀ s, after.session? w.nextId = some s → deeds.flatMap (Deed.closed w.nextId) = [])
    (silent : (after.log w.nextId).flatMap opens = []) :
    Accounted config (accepted ++ [(clientFd, reception)]) after := by
  have fresh := accounted.invariant.fresh w.nextId (Nat.le_refl _)
  have closed : closedBy after w.nextId = deeds.flatMap (Deed.closed w.nextId) := by
    rw [closedBy_more grown, accounted.balanced.untouched (Nat.le_refl _) fresh.2, List.nil_append]
  have still : ∀ id, id ≠ w.nextId → closedBy after id = closedBy w id := fun id there => by
    rw [closedBy_more grown, apart id there, List.append_nil]
  have taken : reception ≠ .refused := by
    rintro rfl
    cases mine
  refine ⟨invariant, fun id => ?_, fun id s present => ?_, ?_, fun one member id owner => ?_⟩
  · rw [handedOut_append, handedOut_single]
    by_cases here : id = w.nextId
    · subst here
      rw [closed, own, silent, accounted.balanced.unborn (Nat.le_refl _), if_pos (by simp [ofSession, mine])]
      rfl
    · obtain ⟨session, log⟩ := others id here
      rw [heldBy_congr session, still id here, log, if_neg (by simp [ofSession, mine, Ne.symm here]), List.append_nil]
      exact accounted.balanced.each id
  · by_cases here : id = w.nextId
    · subst here
      rw [closed]
      exact alive s present
    · rw [still id here]
      exact accounted.balanced.alive id s ((others id here).1 ▸ present)
  · rw [refusedIn_more grown, mute, List.append_nil, accounted.balanced.refused, handedOut_append, handedOut_single,
      if_neg (by simp [isRefused, taken]), List.append_nil]
  · rcases List.mem_append.mp member with old | new
    · exact (accounted.balanced.born one old id owner).trans later
    · obtain rfl := List.mem_singleton.mp new
      obtain rfl : w.nextId = id := Option.some.inj (mine.symm.trans owner)
      exact later

private theorem sessionCreate_allocated (clientFd : Socket) (allocated : env.alloc w.calls = true) :
    sessionCreate env clientFd w = sessionSetUp env w.nextId clientFd (drafted w.called clientFd) := by
  have counts : nextCall w = (.ok w.calls, w.called) := rfl
  rw [sessionCreate, bind_ok counts, if_neg (by simp [allocated])]
  rfl

private theorem sessionCreateReception_allocated {created : Option SessionId}
    (allocated : env.alloc w.calls = true)
    (runs : sessionSetUp env w.nextId clientFd (drafted w.called clientFd) = (.ok created, after)) :
    sessionCreateReception env clientFd w =
    (.ok (if created = none then .discarded w.nextId else .served w.nextId), after) := by
  have counts : nextCall w = (.ok w.calls, w.called) := rfl
  rw [sessionCreateReception, bind_ok counts, if_neg (by simp [allocated])]
  have allocates : sessionAlloc clientFd w.called = (.ok w.nextId, drafted w.called clientFd) := rfl
  rw [bind_ok allocates, bind_ok runs]
  split <;> rfl

/-- What `session_create` makes of its descriptor when there is memory for a session. -/
theorem setUp_owns (env : Env) (inv : Invariant config True w) (clientFd : Socket) : ∃ created after,
    sessionSetUp env w.nextId clientFd (drafted w.called clientFd) = (.ok created, after) ∧
    Made w.called created after ∧ Owns w.nextId clientFd after := by
  obtain ⟨order, linked⟩ := inv.linked
  have fresh := inv.fresh w.nextId (Nat.le_refl _)
  have linkedCalled : Linked w.called order := linked.congr rfl rfl fun _ => rfl
  let x : Own :=
    ⟨{ Session.zeroed with clientFd := some clientFd }, w.log w.nextId, w.interest w.nextId, w.called.calls⟩
  have own : (draft w.called clientFd).world.session? (draft w.called clientFd).id = some x.session := by
    simp [draft, World.session?, node_drafted, x]
  have creates : Ensures (fun _ _ => False)
      (sessionSetUp env w.nextId clientFd) (Made w.called) ((draft w.called clientFd).place x) :=
    sessionSetUp_creates linkedCalled
      fresh.1 clientFd rfl ⟨⟨rfl, rfl, rfl⟩, ⟨rfl, rfl⟩, ⟨rfl, rfl, rfl⟩, ⟨rfl, rfl, rfl⟩⟩
  rw [show (draft w.called clientFd).place x =
    drafted w.called clientFd from (draft w.called clientFd).place_own own] at creates
  have begun : Owns w.nextId clientFd (drafted w.called clientFd) := by
    refine ⟨fun s alive => ?_, fun s member => ?_, fun gone => ?_⟩
    · obtain rfl : x.session = s := Option.some.inj (own.symm.trans alive)
      rfl
    · have member : .release s ∈ w.log w.nextId := member
      rw [fresh.2] at member
      cases member
    · have alive : some x.session = none := own.symm.trans gone
      cases alive
  obtain ⟨created, after, runs, made⟩ := creates.returns
  have runs : sessionSetUp env w.nextId clientFd (drafted w.called clientFd) = (.ok created, after) := runs
  have keeps : Keeps (Owns w.nextId clientFd) (sessionSetUp env w.nextId clientFd) :=
    keeps_setUp builds_owns fun _ _ => owns_update fun _ => rfl
  have owns := keeps.final begun
  rw [runs] at owns
  exact ⟨created, after, runs, made, owns⟩

/-- A session that could not be set up is released with its descriptor. -/
theorem discarded_log (inv : Invariant config True w) (discarded : Discarded w.called after)
    (owns : Owns w.nextId clientFd after) :
    after.session? w.nextId = none ∧
      after.nextId = w.nextId + 1 ∧ ∃ s, after.log w.nextId = [.release s] ∧ sessionDescriptors s = [clientFd] ∧
      after.deeds = w.deeds ++ [.lease (.take (.session w.nextId))] ++ closeDeeds w.nextId s := by
  have fresh := inv.fresh w.nextId (Nat.le_refl _)
  have gone : after.session? w.nextId = none := session_none.mpr ((discarded.nodes _).trans fresh.1)
  obtain ⟨s, member⟩ := owns.somewhere gone
  rcases discarded.own with ⟨silent, -⟩ | ⟨t, next, log, deeds⟩
  · have empty : after.log w.nextId = [] := silent.trans fresh.2
    rw [empty] at member
    cases member
  · have only : after.log w.nextId = [.release t] :=
      log.trans (by rw [show w.called.log w.called.nextId = [] from fresh.2]; rfl)
    exact ⟨gone, next, t, only, owns.released t (by simp [only]), deeds⟩

private theorem create_receives (env : Env) (accounted : Accounted config accepted w)
    (room : w.activeConnections < config.maxConnections) (clientFd : Socket) :
    ∃ created reception after, sessionCreate env clientFd w = (.ok created, after) ∧
      sessionCreateReception env clientFd w = (.ok reception, after) ∧
      (created ≠ none ↔ ∃ id, reception = .served id) ∧
      Accounted config (accepted ++ [(clientFd, reception)]) after := by
  have inv := accounted.invariant
  cases allocated : env.alloc w.calls with
  | false =>
    refine ⟨none, .lost, w.called, ?_, ?_, by simp, (accounted.counted _).lost clientFd⟩
    · simp [sessionCreate, bind, nextCall, allocated, pure]
    · simp [sessionCreateReception, bind, nextCall, allocated, pure]
  | true =>
    obtain ⟨created, after, runs, made, owns⟩ := setUp_owns env inv clientFd
    have makes := (sessionCreate_allocated clientFd allocated).trans runs
    have later := sessionCreate_later inv env clientFd (.refl inv) room
    unfold Ensures at later
    rw [makes] at later
    have invariant : Invariant config True after := later.invariant
    refine ⟨created, _, after, makes, sessionCreateReception_allocated allocated runs, by cases created <;> simp, ?_⟩
    cases created with
    | none =>
      have discarded : Discarded w.called after := made
      obtain ⟨gone, next, s, log, held, deeds⟩ := discarded_log inv discarded owns
      refine accounted.given rfl invariant
        (next ▸ Nat.lt_succ_self _) (fun id different => ?_) (deeds.trans (List.append_assoc _ _ _)) ?_
        (fun id different => ?_) ?_ (fun s alive => ?_) (by simp [log])
      · exact ⟨by simp only [World.session?, discarded.nodes id]; rfl, discarded.log id different⟩
      · simp [closeDeeds_refused, Deed.refused]
      · simp [closeDeeds_closed, different.symm, Deed.closed]
      · simp [heldBy_none gone, closeDeeds_closed, held, Deed.closed]
      · rw [gone] at alive
        cases alive
    | some made_ =>
      have entered : Entered w.called after := made
      obtain ⟨s, alive, -⟩ := entered.session
      have alive : after.session? w.nextId = some s := alive
      have log : after.log w.nextId = [] := by
        rw [entered.log]
        exact (inv.fresh w.nextId (Nat.le_refl _)).2
      refine accounted.given rfl invariant
        (by rw [entered.nextId]; exact Nat.lt_succ_self _) (fun id different => ?_) entered.deeds rfl
        (fun _ _ => rfl) ?_ (fun _ _ => rfl) (by simp [log])
      · exact ⟨entered.sessions id different, by rw [entered.log]; rfl⟩
      · rw [heldBy_some alive, owns.alive s alive]
        rfl

/-- Telling what becomes of its descriptors does not change what the listener does. -/
theorem listener_receives (env : Env) (budget : Nat) (accounted : Accounted config accepted w) :
    ∃ more after, listenerLoop env budget w = (.ok (), after) ∧ listenerReceptions env budget w = (.ok more, after) ∧
      Accounted config (accepted ++ more) after := by
  induction budget generalizing w accepted with
  | zero => exact ⟨[], w, rfl, rfl, by rwa [List.append_nil]⟩
  | succ budget ih =>
    have called : Accounted config accepted w.called := accounted.counted _
    cases answer : env.accept w.calls with
    | error error =>
      refine ⟨[], w.called, ?_, ?_, by rwa [List.append_nil]⟩
      · simp [listenerLoop, bind, nextCall, answer, pure]
      · simp [listenerReceptions, bind, nextCall, answer, pure]
    | ok clientFd =>
      by_cases full : w.activeConnections ≥ w.config.maxConnections
      · obtain ⟨more, after, runs, tells, ends⟩ := ih (called.refused clientFd)
        refine ⟨(clientFd, .refused) :: more, after, ?_, ?_, by simpa using ends⟩
        · simpa [listenerLoop, bind, nextCall, answer, inspect, full, perform, change, World.called] using runs
        · simp only [World.called] at tells
          simp [listenerReceptions, bind, nextCall, answer, inspect, full, perform, change, World.called, tells, pure]
      · have room : w.called.activeConnections < config.maxConnections := by
          rw [← accounted.invariant.configured]
          exact not_le.mp full
        obtain ⟨created, reception, middle, makes, receives, served, ends⟩ := create_receives env called room clientFd
        simp only [World.called] at makes receives
        cases reception with
        | served id =>
          obtain ⟨more, after, runs, tells, last⟩ := ih ends
          refine ⟨(clientFd, .served id) :: more, after, ?_, ?_, by simpa using last⟩
          · simp [listenerLoop, bind, nextCall,
              answer, inspect, full, World.called, makes, onlyIf, served.mpr ⟨id, rfl⟩, runs]
          · simp [listenerReceptions, bind, nextCall, answer, inspect, full, World.called, receives, tells, pure]
        | refused | lost | discarded =>
          have none_ : created = none := by
            by_contra some_
            obtain ⟨id, same⟩ := served.mp some_
            cases same
          refine ⟨[(clientFd, _)], middle, ?_, ?_, ends⟩
          · simp [listenerLoop, bind, nextCall, answer, inspect, full, World.called, makes, onlyIf, none_, pure]
          · simp [listenerReceptions, bind, nextCall, answer, inspect, full, World.called, receives, pure]

/-! Whole runs. -/

private theorem step_accounted (accounted : Accounted config accepted w) {call : Call} (enabled : call.Enabled w) :
    Accounted config (accepted ++ acceptedBy w env call) (w.after env call) := by
  have inv := accounted.invariant
  have later : Later config True w (w.after env call) :=
    step_later inv enabled ⟨fun _ => trivial, fun _ _ _ _ _ _ => trivial⟩
  have steady : Steady (Balanced accepted) := balanced_steady
  have others : Balanced accepted (w.after env call) → acceptedBy w env call = [] →
      Accounted config (accepted ++ acceptedBy w env call) (w.after env call) := by
    intro balanced nothing
    rw [nothing, List.append_nil]
    exact ⟨later.invariant, balanced⟩
  cases call with
  | accept events =>
    have begun : Accounted config accepted w.begin := accounted.counted 0
    obtain ⟨more, after, runs, tells, ends⟩ := listener_receives env w.config.acceptBudget begun
    by_cases reads : events.read = true
    · have adds : acceptedBy w env (.accept events) = more := by
        rw [show w.config.acceptBudget = w.begin.config.acceptBudget from rfl] at tells
        simp only [acceptedBy, reads]
        rw [show w.config.acceptBudget = w.begin.config.acceptBudget from rfl, tells]
        rfl
      have reaches : w.after env (.accept events) = after := by
        simp only [World.after, Call.run, listenerCallback, bind, inspect, onlyIf, reads]
        rw [show w.begin.config.acceptBudget = w.config.acceptBudget from rfl]
        simp [runs]
      rw [adds, reaches]
      exact ends
    · refine others ?_ (by simp [acceptedBy, reads])
      have still : w.after env (.accept events) = w.begin := by
        simp [World.after, Call.run, listenerCallback, bind, inspect, onlyIf, reads, pure]
      rw [still]
      exact begun.balanced
  | tick => exact others (steady.tick inv accounted.balanced) rfl
  | client id events =>
    obtain ⟨s, present, -⟩ := enabled
    exact others (steady.callback (sessionHandleClientEvent_local events) inv present accounted.balanced) rfl
  | target id events =>
    obtain ⟨s, present, -⟩ := enabled
    exact others (steady.callback (sessionHandleTargetEvent_local events) inv present accounted.balanced) rfl

private theorem traced_accounted (run : Traced config w accepted) : Accounted config accepted w := by
  induction run with
  | start => exact ⟨invariant_serverInit config True, balanced_serverInit config⟩
  | next run env call enabled ih => exact step_accounted ih enabled

/-- Every run can be told with its descriptors. -/
theorem reachable_traced (reachable : Reachable config w) : ∃ accepted, Traced config w accepted := by
  induction reachable with
  | refl => exact ⟨[], .start⟩
  | tail _ step ih =>
    obtain ⟨env, call, -, enabled, rfl⟩ := step
    obtain ⟨accepted, run⟩ := ih
    exact ⟨_, run.next env call enabled⟩

/-! The totals. -/

private theorem handedOut_cons (one : Socket × Reception) :
    (↑(handedOut (one :: more) way) : Multiset Socket) =
    (if way one.2 = true then {one.1} else 0) + ↑(handedOut more way) := by
  cases told : way one.2 <;> simp [handedOut, told]

private theorem sum_own {n : Nat} {reception : Reception} (own : reception.owner = some id)
    (inside : id < n) :
    ∑ other ∈ Finset.range n, (if ofSession other reception = true then ({clientFd} : Multiset Socket) else 0) =
    {clientFd} := by
  have only : ∀ other ∈ Finset.range n,
      (if ofSession other reception = true then ({clientFd} : Multiset Socket) else 0) =
      if id = other then {clientFd} else 0 := fun other _ => by simp [ofSession, own]
  rw [Finset.sum_congr rfl only, Finset.sum_ite_eq, if_pos (Finset.mem_range.mpr inside)]

/-- Each accepted descriptor was received in one way. -/
theorem accepted_split {n : Nat} (born : ∀ one ∈ accepted, ∀ id, one.2.owner = some id → id < n) :
    (↑(accepted.map Prod.fst) : Multiset Socket) =
      ↑(handedOut accepted isRefused) + ↑(handedOut accepted isLost) + ∑ id ∈ Finset.range n,
      ↑(handedOut accepted (ofSession id)) := by
  induction accepted with
  | nil => simp
  | cons one rest ih =>
    have tail := ih fun other member => born other (List.mem_cons_of_mem one member)
    have head := born one List.mem_cons_self
    simp only [handedOut_cons, Finset.sum_add_distrib,
      List.map_cons, ← Multiset.cons_coe, tail, ← Multiset.singleton_add]
    obtain ⟨fd, reception⟩ := one
    cases reception with
    | refused | lost =>
      simp only [isRefused, isLost, ofSession,
        Reception.owner, decide_eq_true_eq, reduceCtorEq, if_true, if_false, Finset.sum_const_zero]
      abel
    | discarded id | served id =>
      rw [sum_own rfl (head id rfl)]
      simp only [isRefused, isLost, decide_eq_true_eq, reduceCtorEq, if_false]
      abel

private theorem balanced_total (balanced : Balanced accepted w) :
    (↑(accepted.map Prod.fst) : Multiset Socket) + connectedIn w =
      ↑(handedOut accepted isRefused) + ↑(handedOut accepted isLost) + closedIn w + heldIn w := by
  have each : heldIn w + closedIn w = ∑ id ∈ Finset.range w.nextId,
      ↑(handedOut accepted (ofSession id)) + connectedIn w := by
    rw [heldIn, closedIn, connectedIn, ← Finset.sum_add_distrib, ← Finset.sum_add_distrib]
    exact Finset.sum_congr rfl fun id _ => balanced.each id
  rw [accepted_split balanced.born,
    add_assoc _ _ (connectedIn w), ← each, add_assoc _ (closedIn w), add_comm (closedIn w)]

/-- Every run can be told with what `accept` handed out in it. At every moment of
it each descriptor that `accept` or `connect` has handed out counts once: the
listener has closed it at the limit, it was lost because there was no memory for
a session, `session_close` has closed it, or a live session holds it, which is
all that session holds. Behind the shutdown none is held any more. -/
theorem descriptors_accounted {config : Config} : (∀ w, Reachable config w → ∃ accepted, Traced config w accepted) ∧
    ∀ w accepted, Traced config w accepted →
      ((↑(accepted.map Prod.fst) : Multiset Socket) + connectedIn w =
        ↑(handedOut accepted isRefused) + ↑(handedOut accepted isLost) + closedIn w + heldIn w) ∧
      refusedIn w = handedOut accepted isRefused ∧
      (∀ id s, w.session? id = some s → closedBy w id = [] ∧
        (↑(sessionDescriptors s) : Multiset Socket) =
          ↑(handedOut accepted (ofSession id)) + ↑((w.log id).flatMap opens)) ∧
      (↑(accepted.map Prod.fst) : Multiset Socket) + connectedIn (proxyShutdown w).2 =
        ↑(handedOut accepted isRefused) + ↑(handedOut accepted isLost) + closedIn (proxyShutdown w).2 := by
  refine ⟨fun w => reachable_traced, fun w accepted run => ?_⟩
  have accounted := traced_accounted run
  refine ⟨balanced_total accounted.balanced, accounted.balanced.refused, fun id s present => ?_, ?_⟩
  · have untouched := accounted.balanced.alive id s present
    have each := accounted.balanced.each id
    rw [heldBy_some present, untouched, Multiset.coe_nil, add_zero] at each
    exact ⟨untouched, each⟩
  · obtain ⟨after, runs, -, balanced, gone⟩ := balanced_steady.shutdown accounted.invariant accounted.balanced
    have total := balanced_total balanced
    have empty : heldIn after = 0 :=
      Finset.sum_eq_zero fun id _ => by rw [heldBy_none (gone id)]; rfl
    rw [runs]
    rwa [empty, add_zero] at total

theorem descriptors_accounted_opened :
    ∃ accepted, Traced (sampleConfig 64) (opened (sampleConfig 64) true) accepted ∧
    accepted.map Prod.snd = [.served 0] ∧
    (↑(accepted.map Prod.fst) : Multiset Socket) + connectedIn (proxyShutdown (opened (sampleConfig 64) true)).2 =
      ↑(handedOut accepted isRefused) + ↑(handedOut accepted isLost) + closedIn
        (proxyShutdown (opened (sampleConfig 64) true)).2 := by
  have first : Traced (sampleConfig 64) (connected (sampleConfig 64)) _ :=
    Traced.next .start (.scripted [] true 0) (.accept .reading) (by simp [Call.Enabled])
  have run : Traced (sampleConfig 64) (opened (sampleConfig 64) true) _ :=
    first.next (.scripted [.ok sampleRequest] true 0) (.client 0 .reading) (by decide +kernel)
  exact ⟨_, run, by decide +kernel, (descriptors_accounted.2 _ _ run).2.2.2⟩

end Sockify.Proofs.DescriptorLedger
