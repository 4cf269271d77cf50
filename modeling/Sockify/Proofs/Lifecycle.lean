import Sockify.Lifecycle
import Sockify.Proofs.Releases

/-! Whatever fails while `sockify_proxy_run` starts, and whatever its event loop
brings, it gives back all that it has taken, and nothing that is still needed. -/

namespace Sockify.Proofs.Lifecycle
open Sockify Stateful Leases Registry SessionLogic Creation Lifetimes Locality Releases

/-- What has to be held as long as a resource is. -/
inductive Needs (config : Config) : Resource → Resource → Prop
  | tls : Needs config .tls .network
  | context (side : Side) : Needs config (.context side) .tls
  | listener : Needs config .listener .network
  | eventLoop : Needs config .eventLoop .listener
  | session (id : SessionId) : Needs config (.session id) .eventLoop
  | secured (id : SessionId) (side : Side) (secure : config.tlsOn side = true) :
      Needs config (.session id) (.context side)

/-- How far the process has come, apart from what its server shows. -/
structure Phase where
  network : Bool
  tls : Bool
  listener : Bool
  eventLoop : Bool

def holds (phase : Phase) (w : World) : Resource → Prop
  | .network => phase.network = true
  | .tls => phase.tls = true
  | .context side => w.tlsContext side = true
  | .listener => phase.listener = true
  | .eventLoop => phase.eventLoop = true
  | .session id => w.session? id ≠ none

def holdings (phase : Phase) (w : World) : Set Resource := {resource | holds phase w resource}

variable {config : Config} {w u base : World} {phase later : Phase} {resource : Resource}
  {broken : Fault → World → Prop} {env : Env}

@[simp] theorem mem_holdings : resource ∈ holdings phase w ↔ holds phase w resource := Iff.rfl

private theorem holdings_congr (sessions : ∀ id, u.session? id = w.session? id)
    (contexts : ∀ side, u.tlsContext side = w.tlsContext side) :
    holdings phase u = holdings phase w := by
  ext resource
  cases resource <;> simp [holds, sessions, contexts]

structure Ordered (config : Config) (phase : Phase) (w : World) : Prop where
  configured : w.config = config
  trace : Orderly (Needs config) ∅ w.leases (holdings phase w)

theorem Ordered.taken (ordered : Ordered config phase w) (resource : Resource) (configured : u.config = config)
    (leases : u.leases = w.leases ++ [.take resource]) (fresh : ¬ holds phase w resource)
    (ready : ∀ other, Needs config resource other → holds phase w other)
    (same : insert resource (holdings phase w) = holdings later u) : Ordered config later u := by
  refine ⟨configured, ?_⟩
  rw [leases, ← same]
  exact ordered.trace.taken fresh ready

theorem Ordered.given (ordered : Ordered config phase w) (resource : Resource) (configured : u.config = config)
    (leases : u.leases = w.leases ++ [.give resource]) (holding : holds phase w resource)
    (unused : ∀ other, holds phase w other → ¬ Needs config other resource)
    (same : holdings phase w \ {resource} = holdings later u) : Ordered config later u := by
  refine ⟨configured, ?_⟩
  rw [leases, ← same]
  exact ordered.trace.given holding unused

theorem Ordered.same (ordered : Ordered config phase w) (configured : u.config = w.config)
    (deeds : u.leases = w.leases) (sessions : ∀ id, u.session? id = w.session? id)
    (contexts : ∀ side, u.tlsContext side = w.tlsContext side) : Ordered config phase u := by
  refine ⟨configured.trans ordered.configured, ?_⟩
  rw [deeds, holdings_congr sessions contexts]
  exact ordered.trace

/-! The lookups behind the steps of the process. -/

private theorem leases_more {deeds : List Deed} (grown : u.deeds = w.deeds ++ deeds) :
    u.leases = w.leases ++ deeds.filterMap Deed.lease? := by
  rw [World.leases, grown, List.filterMap_append]
  rfl

private theorem leases_same (same : u.deeds = w.deeds) : u.leases = w.leases := by rw [World.leases, World.leases, same]

@[simp] theorem leases_leased (lease : Lease Resource) : (w.leased lease).leases = w.leases ++ [lease] :=
  leases_more (show (w.leased lease).deeds = w.deeds ++ [.lease lease] from rfl)

@[simp] theorem ensures_taking (resource : Resource) (post : Unit → World → Prop) :
    Ensures broken (taking resource) post w ↔ post () (w.leased (.take resource)) := Iff.rfl

@[simp] theorem ensures_giving (resource : Resource) (post : Unit → World → Prop) :
    Ensures broken (giving resource) post w ↔ post () (w.leased (.give resource)) := Iff.rfl

@[simp] theorem ensures_setContext (side : Side) (context : Bool) (post : Unit → World → Prop) :
    Ensures broken (setContext side context) post w ↔ post () (w.withTlsContext side context) := Iff.rfl

private theorem withTlsContext_else (side : Side) (context : Bool) :
    (w.withTlsContext side context).config = w.config ∧ (w.withTlsContext side context).log = w.log ∧
    (w.withTlsContext side context).nextId = w.nextId ∧ (w.withTlsContext side context).deeds = w.deeds ∧
    (w.withTlsContext side context).sessions = w.sessions := by
  cases side <;> exact ⟨rfl, rfl, rfl, rfl, rfl⟩

private theorem session_withTlsContext (side : Side) (context : Bool) (id : SessionId) :
    (w.withTlsContext side context).session? id = w.session? id := by
  simp only [World.session?, World.node?, (withTlsContext_else side context).2.2.2.2]

private theorem leases_withTlsContext (side : Side) (context : Bool) :
    (w.withTlsContext side context).leases = w.leases :=
  leases_same (withTlsContext_else side context).2.2.2.1

private theorem tlsContext_withTlsContext (side other : Side) (context : Bool) :
    (w.withTlsContext side context).tlsContext other = if other = side then context else w.tlsContext other := by
  cases side <;> cases other <;> rfl

private theorem holds_withTlsContext (side : Side) (context : Bool) :
    holds phase (w.withTlsContext side context) resource ↔
    if resource = .context side then context = true else holds phase w resource := by
  cases resource with
  | context other => by_cases same : other = side <;> simp [holds, tlsContext_withTlsContext, same]
  | session id => simp [holds, session_withTlsContext]
  | _ => simp [holds]

private theorem taken_context (side : Side) :
    insert (.context side) (holdings phase w) = holdings phase (w.withTlsContext side true) := by
  ext resource
  simp only [Set.mem_insert_iff, mem_holdings, holds_withTlsContext]
  split <;> simp_all

private theorem given_context (side : Side) :
    holdings phase w \ {.context side} = holdings phase (w.withTlsContext side false) := by
  ext resource
  simp only [Set.mem_sdiff, Set.mem_singleton_iff, mem_holdings, holds_withTlsContext]
  split <;> simp_all

/-- Before the event loop or behind it: the network is up, no session is there,
and the sessions have done what they had done in `base`. -/
structure Starting (config : Config) (tls : Bool) (base w : World) : Prop where
  ordered : Ordered config ⟨true, tls, false, false⟩ w
  empty : ∀ id, w.session? id = none
  based : tls = false → ∀ side, w.tlsContext side = false
  log : w.log = base.log
  nextId : w.nextId = base.nextId

/-- Nothing but the network is held. -/
def Bare (config : Config) (base w : World) : Prop := Starting config false base w

/-- What `proxy_destroy_tls` gives back. -/
def tlsGives (config : Config) (contexts : Side → Bool) : List (Lease Resource) :=
  (if contexts .client = true then [.give (.context .client)] else []) ++
    (if contexts .target = true then [.give (.context .target)] else []) ++
    (if tlsEnabled config = true then [.give .tls] else [])

private theorem destroyContext_gives (side : Side) {tls : Bool} (starting : Starting config tls base w) :
    Ensures (fun _ _ => False) (destroyContext side) (fun _ after => Starting config tls base after ∧
      (∀ other, after.tlsContext other = if other = side then false else w.tlsContext other) ∧
      after.deeds = w.deeds ++ (if w.tlsContext side = true then [.give (.context side)] else []).map .lease) w := by
  rw [destroyContext, ensures_bind, ensures_inspect, ensures_onlyIf, ensures_bind, ensures_giving, ensures_setContext]
  obtain ⟨configured, log, nextId, deeds, -⟩ := withTlsContext_else (w := w.leased (.give (.context side))) side false
  dsimp only [id_eq]
  split
  next held =>
    refine ⟨⟨?_, fun id => ?_, fun none other => ?_, log.trans starting.log, nextId.trans starting.nextId⟩,
      fun other => ?_, deeds⟩
    · refine starting.ordered.given (.context side)
          (configured.trans starting.ordered.configured) ?_ held (fun other holding needed => ?_)
        (given_context (w := w.leased (.give (.context side))) side)
      · rw [leases_withTlsContext, leases_leased]
      · cases needed with
        | secured id => exact holding (starting.empty id)
    · rw [session_withTlsContext]
      exact starting.empty id
    · rw [starting.based none side] at held
      cases held
    · rw [tlsContext_withTlsContext]
      rfl
  next absent =>
    rw [Bool.not_eq_true] at absent
    refine ⟨starting, fun other => ?_, (List.append_nil _).symm⟩
    split
    next same => rw [same, absent]
    next => rfl

private theorem proxyDestroyTls_gives (starting : Starting config (tlsEnabled config) base w) :
    Ensures (fun _ _ => False) proxyDestroyTls (fun _ after => Bare config base after ∧
      after.deeds = w.deeds ++ (tlsGives config w.tlsContext).map .lease) w := by
  rw [proxyDestroyTls, ensures_bind, ensures_inspect, ensures_bind]
  refine (destroyContext_gives .client starting).weaken (fun _ u ⟨first, toFirst, did⟩ => ?_) fun _ _ stopped => stopped
  rw [ensures_bind]
  refine (destroyContext_gives .target first).weaken (fun _ v ⟨second, toSecond, doing⟩ => ?_)
    fun _ _ stopped => stopped
  have contexts : ∀ side, v.tlsContext side = false := by
    intro side
    rw [toSecond, toFirst]
    cases side <;> rfl
  have still : u.tlsContext .target = w.tlsContext .target := (toFirst .target).trans (if_neg (by decide))
  rw [still, did, List.append_assoc, ← List.map_append] at doing
  rw [ensures_onlyIf, ensures_giving, id, starting.ordered.configured]
  split
  next enabled =>
    rw [enabled] at second
    refine ⟨⟨?_, second.empty, fun _ => contexts, second.log, second.nextId⟩, ?_⟩
    · refine second.ordered.given .tls second.ordered.configured
        (leases_leased _) rfl (fun other holding needed => ?_) ?_
      · cases needed with
        | context side =>
          rw [holds, contexts side] at holding
          cases holding
      · ext resource
        cases resource <;> simp [holds, World.leased, World.session?, World.node?, World.tlsContext]
    · rw [tlsGives, if_pos enabled, List.map_append, ← List.append_assoc, ← doing]
      rfl
  next plain =>
    refine ⟨?_, ?_⟩
    · rw [Bool.not_eq_true] at plain
      rw [plain] at second
      exact second
    · rw [tlsGives, if_neg plain, List.append_nil]
      exact doing

/-! The steps of the start. -/

def contextStep (config : Config) (startup : Startup) (side : Side) : Except Err Unit :=
  if config.tlsOn side then startup.tlsContextCreate side else .ok ()

def tlsSteps (config : Config) (startup : Startup) : List (Except Err Unit) :=
  if tlsEnabled config then
    [startup.tlsGlobalInit, if startup.tlsIsAvailable then .ok () else .error .unsupported,
      contextStep config startup .client, contextStep config startup .target]
  else []

/-- What each step of `sockify_proxy_run` answers in front of its event loop, in order. -/
def startSteps (config : Config) (startup : Startup) : List (Except Err Unit) :=
  [proxyValidateConfig config, startup.netInit] ++ tlsSteps config startup ++
    [startup.netListen config.listenEndpoint config.backlog,
      if startup.eventLoopCreate then .ok () else .error .nomem, startup.eventLoopAdd]

def firstError : List (Except Err Unit) → Except Err Unit
  | [] => .ok ()
  | .error error :: _ => .error error
  | .ok () :: rest => firstError rest

private theorem firstError_append (first second : List (Except Err Unit)) :
    firstError (first ++ second) = match firstError first with
      | .error error => .error error
      | .ok () => firstError second := by
  induction first with
  | nil => rfl
  | cons step rest ih =>
    cases step with
    | error error => rfl
    | ok value => exact ih

/-- How the set-up of one side's context, or of all TLS, ends. -/
def SetUp (config : Config) (base : World) (made : World → Prop) (rc : Except Err Unit) (after : World) : Prop :=
  match rc with
  | .ok () => made after
  | .error _ => Bare config base after

private theorem createContext_takes (startup : Startup) (side : Side)
    (enabled : tlsEnabled config = true) (starting : Starting config true base w)
    (absent : w.tlsContext side = false) :
    Ensures (fun _ _ => False) (createContext startup side)
      (fun rc after => rc = contextStep config startup side ∧
        SetUp config base (fun after => Starting config true base after ∧
          after = if config.tlsOn side = true
            then (w.leased (.take (.context side))).withTlsContext side true else w) rc after) w := by
  rw [createContext, ensures_bind, ensures_inspect, id, starting.ordered.configured, contextStep]
  split
  next on =>
    cases startup.tlsContextCreate side with
    | error error =>
      rw [ensures_bind]
      refine (proxyDestroyTls_gives (enabled ▸ starting)).weaken (fun _ after both => ?_) fun _ _ stopped => stopped
      exact ⟨rfl, both.1⟩
    | ok value =>
      rw [ensures_bind, ensures_taking, ensures_bind, ensures_setContext, ensures_pure]
      obtain ⟨configured, log, nextId, -, -⟩ := withTlsContext_else (w := w.leased (.take (.context side))) side true
      refine ⟨rfl, ⟨?_, fun id => ?_, fun none =>
        (by cases none), log.trans starting.log, nextId.trans starting.nextId⟩, rfl⟩
      · refine starting.ordered.taken (.context side)
            (configured.trans starting.ordered.configured) ?_ (by simp [holds, absent])
          (fun other needed => ?_) (taken_context (w := w.leased (.take (.context side))) side)
        · rw [leases_withTlsContext, leases_leased]
        · cases needed
          rfl
      · rw [session_withTlsContext]
        exact starting.empty id
  next off => exact ⟨rfl, starting, rfl⟩

private theorem proxyInitTls_takes (startup : Startup) (bare : Bare config base w)
    (zeroed : w = { serverZeroed config with deeds := w.deeds }) :
    Ensures (fun _ _ => False) (proxyInitTls startup)
      (fun rc after => rc = firstError (tlsSteps config startup) ∧
        SetUp config base (fun after => Starting config (tlsEnabled config) base after ∧
          after = { serverInit config with deeds := w.deeds ++ (tlsTakes config).map .lease }) rc after) w := by
  rw [proxyInitTls, ensures_bind, ensures_inspect, id, bare.ordered.configured, tlsSteps]
  cases enabled : tlsEnabled config with
  | false =>
    obtain ⟨client, target⟩ : config.clientTlsEnabled = false ∧ config.targetTlsEnabled = false := by
      simpa [tlsEnabled] using enabled
    refine ⟨rfl, bare, ?_⟩
    rw [zeroed]
    simp [serverZeroed, serverInit, tlsTakes, client, target, enabled]
  | true =>
    rw [if_neg (by simp), if_pos rfl]
    cases startup.tlsGlobalInit with
    | error error => exact ⟨rfl, bare⟩
    | ok value =>
      rw [ensures_bind, ensures_taking]
      have starting : Starting config true base (w.leased (.take .tls)) := by
        refine ⟨bare.ordered.taken .tls bare.ordered.configured
          (leases_leased _) (by simp [holds]) (fun other needed => ?_) ?_, bare.empty,
          fun none => (by cases none), bare.log, bare.nextId⟩
        · cases needed
          rfl
        · ext resource
          cases resource <;> simp [holds, World.leased, World.session?, World.node?, World.tlsContext]
      cases startup.tlsIsAvailable with
      | false =>
        rw [if_pos (by rfl), ensures_bind]
        refine (proxyDestroyTls_gives (enabled ▸ starting)).weaken (fun _ after both => ?_) fun _ _ stopped => stopped
        exact ⟨rfl, both.1⟩
      | true =>
        rw [if_neg (by simp), ensures_bind]
        refine (createContext_takes startup .client enabled starting (by rw [zeroed]; rfl)).weaken
          (fun rc u made => ?_) fun _ _ stopped => stopped
        obtain ⟨same, made⟩ := made
        rw [← same]
        cases rc with
        | error error => exact ⟨rfl, made⟩
        | ok value =>
          obtain ⟨middle, client⟩ := made
          have absent : u.tlsContext .target = false := by
            rw [client, zeroed]
            split <;> rfl
          refine (createContext_takes startup .target enabled middle absent).weaken (fun rc v made => ?_)
            fun _ _ stopped => stopped
          obtain ⟨same, made⟩ := made
          rw [← same]
          cases rc with
          | error error => exact ⟨rfl, made⟩
          | ok value =>
            obtain ⟨last, target⟩ := made
            refine ⟨rfl, last, ?_⟩
            rw [target, client, zeroed]
            cases on : config.clientTlsEnabled <;> cases too : config.targetTlsEnabled <;>
              simp [Config.tlsOn, World.leased,
                World.withTlsContext, serverZeroed, serverInit, tlsTakes, on, too, enabled]

/-! The event loop. -/

private theorem tlsContext_on (inv : Invariant config True w) (side : Side) :
    w.tlsContext side = config.tlsOn side := by
  cases side with
  | client => exact inv.contexts.1
  | target => exact inv.contexts.2

def looping (config : Config) : Phase := ⟨true, tlsEnabled config, true, true⟩

private theorem contexts_congr
    (contexts : u.clientTlsContext = w.clientTlsContext ∧ u.targetTlsContext = w.targetTlsContext)
    (side : Side) :
    u.tlsContext side = w.tlsContext side := by
  cases side with
  | client => exact contexts.1
  | target => exact contexts.2

private theorem closeDeeds_leases (id : SessionId) (s : Session) :
    (closeDeeds id s).filterMap Deed.lease? = [.give (.session id)] := by
  have mute : ((sessionCloseCalls s).map (Deed.dispose id)).filterMap Deed.lease? = [] := by
    simp [List.filterMap_map, Function.comp_def, Deed.lease?]
  rw [closeDeeds, List.filterMap_append, mute]
  rfl

/-- What is held when a session comes or goes. -/
theorem holdings_session {id : SessionId}
    (others : ∀ other, other ≠ id → u.session? other = w.session? other)
    (contexts : u.clientTlsContext = w.clientTlsContext ∧ u.targetTlsContext = w.targetTlsContext)
    (present : u.session? id ≠ none) :
    insert (.session id) (holdings phase w) = holdings phase u := by
  ext resource
  cases resource with
  | context side => simp [holds, contexts_congr contexts]
  | session other =>
    by_cases same : other = id
    · subst same
      simp [holds, present]
    · simp [holds, same, others other same]
  | _ => simp [holds]

private theorem placed_same (site : Site) (x y : Own) (ordered : Ordered config phase (site.place x)) :
    Ordered config phase (site.place y) := by
  refine ⟨(site.config_place y).trans ((site.config_place x).symm.trans ordered.configured), ?_⟩
  rw [leases_same ((site.deeds_place y).trans (site.deeds_place x).symm)]
  have same : holdings phase (site.place y) = holdings phase (site.place x) := by
    ext resource
    cases resource with
    | context side =>
      cases side <;> simp [holds, World.tlsContext]
    | session other =>
      by_cases here : other = site.id
      · subst here
        simp [holds]
      · simp [holds, site.session_place_other, here]
    | _ => simp [holds]
  rw [same]
  exact ordered.trace

/-- A session goes while nothing needs it. -/
theorem Ordered.released {site : Site} {x : Own} {after : World}
    (ordered : Ordered config phase (site.place x)) (released : Released site x after) :
    Ordered config phase after := by
  have grown : after.deeds = (site.place x).deeds ++ closeDeeds site.id x.session := by
    rw [released.deeds, site.deeds_place]
  have gone : after.session? site.id = none := session_none.mpr released.gone
  have configured : after.config = config := released.config.trans ((site.config_place x).symm.trans ordered.configured)
  have contexts := And.intro (released.contexts.1.trans (site.clientContext_place x).symm)
    (released.contexts.2.trans (site.targetContext_place x).symm)
  refine ordered.given (.session site.id) configured ?_ (by simp [holds]) (fun other _ needed => by cases needed) ?_
  · rw [leases_more grown, closeDeeds_leases]
  · ext resource
    cases resource with
    | context side => simp [holds, contexts_congr contexts]
    | session other =>
      by_cases here : other = site.id
      · subst here
        simp [holds, gone]
      · simp [holds, here, released.sessions, site.session_place_other]
    | _ => simp [holds]

private theorem ordered_steady : Steady (Ordered config phase) where
  counted := fun _ _ ordered => ⟨ordered.configured, ordered.trace⟩
  placed := fun site x y _ ordered => placed_same site x y ordered
  released := fun _ _ _ released ordered => ordered.released released

/-- A session comes when its event loop and its contexts are there. -/
theorem Ordered.allocated (ordered : Ordered config (looping config) w) (inv : Invariant config True w)
    (configured : u.config = config) (leases : u.leases = w.leases ++ [.take (.session w.nextId)])
    (contexts : u.clientTlsContext = w.clientTlsContext ∧ u.targetTlsContext = w.targetTlsContext)
    (others : ∀ other, other ≠ w.nextId → u.session? other = w.session? other)
    (present : u.session? w.nextId ≠ none) :
    Ordered config (looping config) u := by
  have fresh : w.session? w.nextId = none := session_none.mpr (inv.fresh w.nextId (Nat.le_refl _)).1
  refine ordered.taken (.session w.nextId) configured leases (by simp [holds, fresh])
    (fun other needed => ?_) (holdings_session others contexts present)
  cases needed with
  | session => rfl
  | secured _ side secure => exact (tlsContext_on inv side).trans secure

theorem Ordered.created {created : Option SessionId} {after : World}
    (ordered : Ordered config (looping config) w) (clientFd : Socket) (inv : Invariant config True w)
    (made : Made w created after) : Ordered config (looping config) after := by
  unfold Made at made
  split at made
  · have sessions : ∀ id, after.session? id = w.session? id := fun id => by simp only [World.session?, made.nodes id]
    rcases made.own with ⟨-, deeds⟩ | ⟨s, -, -, deeds⟩
    · exact ordered.same made.config (leases_same deeds) sessions (contexts_congr made.contexts)
    · have between : Ordered config (looping config) (drafted w clientFd) := by
        have grown : (drafted w clientFd).deeds = w.deeds ++ [.lease (.take (.session w.nextId))] := rfl
        refine ordered.allocated inv ordered.configured (leases_more grown) ⟨rfl, rfl⟩ (fun other apart => ?_) ?_
        · simp only [World.session?, node_drafted, if_neg apart]
        · simp [World.session?, node_drafted]
      have fresh : w.session? w.nextId = none := session_none.mpr (inv.fresh w.nextId (Nat.le_refl _)).1
      refine between.given (.session w.nextId)
        (made.config.trans ordered.configured) ?_ ?_ (fun other _ needed => by cases needed) ?_
      · have grown : after.deeds = (drafted w clientFd).deeds ++ closeDeeds w.nextId s := deeds
        rw [leases_more grown, closeDeeds_leases]
      · simp [holds, World.session?, node_drafted]
      · have taken : holdings (looping config) after = holdings (looping config) w :=
          holdings_congr sessions (contexts_congr made.contexts)
        have put : insert (.session w.nextId) (holdings (looping config) w) =
            holdings (looping config) (drafted w clientFd) := by
          refine holdings_session (fun other apart => ?_) ⟨rfl, rfl⟩ ?_
          · simp only [World.session?, node_drafted, if_neg apart]
          · simp [World.session?, node_drafted]
        rw [taken, ← put, Set.insert_sdiff_self_of_notMem]
        simp [holds, fresh]
  · obtain ⟨s, alive, -⟩ := made.session
    exact ordered.allocated inv (made.config.trans ordered.configured)
      (leases_more made.deeds) made.contexts made.sessions (by simp [alive])

private theorem step_ordered {call : Call} (inv : Invariant config True w)
    (ordered : Ordered config (looping config) w) (enabled : call.Enabled w) :
    Ordered config (looping config) (w.after env call) := by
  have begun : Invariant config True w.begin := inv.counted 0
  cases call with
  | accept events =>
    have keeps : Keeps (fun u => Later config True w.begin u ∧ Ordered config (looping config) u)
        (listenerCallback env events) := by
      apply keeps_listenerCallback
      · rintro u ⟨later, ordered⟩
        exact ⟨⟨later.invariant.counted _, later.advance.counted _⟩, ordered_steady.counted u _ ordered⟩
      · rintro clientFd u ⟨later, ordered⟩
        exact ⟨⟨later.invariant.performed _, later.advance.performed _⟩, ordered.same rfl
          ((leases_more (show (u.performed (.refuse clientFd)).deeds = u.deeds ++ [.refuse clientFd] from rfl)).trans
            (List.append_nil _))
          (fun _ => rfl) fun side => by cases side <;> rfl⟩
      · rintro clientFd u ⟨later, ordered⟩ room
        obtain ⟨order, linked⟩ := later.invariant.linked
        have creates : Ensures (fun _ u => Later config True w.begin u ∧ Ordered config (looping config) u)
            (sessionCreate env clientFd) (Made u) u :=
          sessionCreate_creates linked (later.invariant.fresh _ (Nat.le_refl _)).1
        have goes := sessionCreate_later begun env clientFd later (later.invariant.configured ▸ room)
        refine (creates.both goes).weaken (fun created after made => ⟨made.2, ?_⟩) fun _ _ stopped => stopped.1
        exact ordered.created clientFd later.invariant made.1
    exact (keeps.final ⟨.refl begun, ordered_steady.counted w 0 ordered⟩).2
  | client id events =>
    obtain ⟨s, present, -⟩ := enabled
    exact ordered_steady.callback (sessionHandleClientEvent_local events) inv present ordered
  | target id events =>
    obtain ⟨s, present, -⟩ := enabled
    exact ordered_steady.callback (sessionHandleTargetEvent_local events) inv present ordered
  | tick => exact ordered_steady.tick inv ordered

private theorem served_ordered (turns : List (Env × Call)) (reached : Reachable config w)
    (ordered : Ordered config (looping config) w) :
    Reachable config (w.served turns) ∧ Ordered config (looping config) (w.served turns) := by
  induction turns generalizing w with
  | nil => exact ⟨reached, ordered⟩
  | cons turn rest ih =>
    by_cases enabled : turn.2.Enabled w
    · have turned : w.turned turn = w.after turn.1 turn.2 := if_pos enabled
      rw [World.served, List.foldl_cons, turned]
      exact ih (reached.next turn.1 turn.2 trivial enabled) (step_ordered (reachable_invariant reached) ordered enabled)
    · have turned : w.turned turn = w := if_neg enabled
      rw [World.served, List.foldl_cons, turned]
      exact ih reached ordered

/-! The end. -/

/-- Everything has been given back, and the sessions have done what they had done in `base`. -/
structure Gone (config : Config) (base after : World) : Prop where
  trace : Orderly (Needs config) ∅ after.leases ∅
  log : after.log = base.log
  nextId : after.nextId = base.nextId

/-- The network is the last to go. -/
theorem bare_ends (bare : Bare config base w) : Gone config base (w.leased (.give .network)) := by
  have ordered : Ordered config ⟨false, false, false, false⟩ (w.leased (.give .network)) := by
    refine bare.ordered.given .network bare.ordered.configured (leases_leased _) rfl (fun other holding needed => ?_) ?_
    · cases needed <;> cases holding
    · ext resource
      cases resource <;> simp [holds, World.leased, World.session?, World.node?, World.tlsContext]
  have none : holdings ⟨false, false, false, false⟩ (w.leased (.give .network)) = ∅ := by
    have contexts : ∀ side, (w.leased (.give .network)).tlsContext side = false := bare.based rfl
    have sessions : ∀ id, (w.leased (.give .network)).session? id = none := bare.empty
    ext resource
    cases resource <;> simp [holds, contexts, sessions]
  exact ⟨none ▸ ordered.trace, bare.log, bare.nextId⟩

/-- What is given back behind the listener, or where there is none. -/
def lastLeases (config : Config) (contexts : Side → Bool) : List (Lease Resource) :=
  tlsGives config contexts ++ [.give .network]

private theorem windUp (rc : Except Err Unit) (starting : Starting config (tlsEnabled config) base w) :
    Ensures (fun _ _ => False) (do proxyDestroyTls; giving .network; pure rc)
      (fun value after => value = rc ∧ Gone config base after ∧
      after.deeds = w.deeds ++ (lastLeases config w.tlsContext).map .lease) w := by
  rw [ensures_bind]
  refine (proxyDestroyTls_gives starting).weaken (fun _ after both => ⟨rfl, bare_ends both.1, ?_⟩)
    fun _ _ stopped => stopped
  rw [lastLeases, List.map_append, ← List.append_assoc, ← both.2]
  rfl

private theorem windUp_listener (rc : Except Err Unit)
    (ordered : Ordered config ⟨true, tlsEnabled config, true, false⟩ w)
    (empty : ∀ id, w.session? id = none) (contexts : ∀ side, w.tlsContext side = config.tlsOn side) :
    Ensures (fun _ _ => False) (do giving .listener; proxyDestroyTls; giving .network; pure rc)
      (fun value after => value = rc ∧ Gone config w after ∧
      after.deeds = w.deeds ++ (Lease.give Resource.listener :: lastLeases config config.tlsOn).map .lease) w := by
  rw [ensures_bind, ensures_giving]
  have starting : Starting config (tlsEnabled config) w (w.leased (.give .listener)) := by
    refine ⟨ordered.given .listener ordered.configured (leases_leased _) rfl (fun other holding needed => ?_) ?_,
      empty, fun plain side => ?_, rfl, rfl⟩
    · cases needed
      cases holding
    · ext resource
      cases resource <;> simp [holds, World.leased, World.session?, World.node?, World.tlsContext]
    · have off : config.tlsOn side = false := by cases side <;> simp_all [tlsEnabled, Config.tlsOn]
      exact (contexts side).trans off
  refine (windUp rc starting).weaken (fun value after ends => ⟨ends.1, ends.2.1, ?_⟩) fun _ _ stopped => stopped
  have same : (w.leased (.give .listener)).tlsContext = config.tlsOn := funext contexts
  rw [ends.2.2, same]
  simp [World.leased]

/-- What is given back behind the closing loop. -/
def endLeases (config : Config) : List (Lease Resource) :=
  .give .eventLoop :: .give .listener :: lastLeases config config.tlsOn

/-- The process has served its clients: it was in the run of the server that the
callbacks make and in the closing loop, and gave back what it held behind that. -/
structure Served (config : Config) (turns : List (Env × Call)) (after : World) : Prop where
  reached : Reachable config ((serverInit config).served turns)
  log : after.log = (proxyShutdown ((serverInit config).served turns)).2.log
  deeds : after.deeds = (proxyShutdown ((serverInit config).served turns)).2.deeds ++ (endLeases config).map .lease

structure Unserved (after : World) : Prop where
  log : after.log = fun _ => []
  nextId : after.nextId = 0

/-- How `sockify_proxy_run` returns: with the failure of its start, or with what
its event loop returned. -/
def Returned (config : Config) (startup : Startup) (turns : List (Env × Call))
    (started rc : Except Err Unit) (after : World) : Prop :=
  Orderly (Needs config) ∅ after.leases ∅ ∧
    match started with
    | .error error => rc = .error error ∧ Unserved after
    | .ok () => rc = startup.eventLoopRun ∧ Served config turns after

theorem Gone.unserved (gone : Gone config (serverInit config) w) : Unserved w := ⟨gone.log, gone.nextId⟩

private theorem windUp_loop (rc : Except Err Unit) (ordered : Ordered config (looping config) w)
    (empty : ∀ id, w.session? id = none) (contexts : ∀ side, w.tlsContext side = config.tlsOn side) :
    Ensures (fun _ _ => False) (do giving .eventLoop; giving .listener; proxyDestroyTls; giving .network; pure rc)
      (fun value after => value = rc ∧
      Gone config w after ∧ after.deeds = w.deeds ++ (endLeases config).map .lease) w := by
  rw [ensures_bind, ensures_giving]
  have listening : Ordered config ⟨true, tlsEnabled config, true, false⟩ (w.leased (.give .eventLoop)) := by
    refine ordered.given .eventLoop ordered.configured (leases_leased _) rfl (fun other holding needed => ?_) ?_
    · cases needed with
      | session id => exact holding (empty id)
    · ext resource
      cases resource <;> simp [holds, looping, World.leased, World.session?, World.node?, World.tlsContext]
  refine (windUp_listener rc listening empty contexts).weaken (fun value after ends => ⟨ends.1, ?_, ?_⟩)
    fun _ _ stopped => stopped
  · exact ⟨ends.2.1.trace, ends.2.1.log, ends.2.1.nextId⟩
  · rw [ends.2.2]
    simp [World.leased, endLeases]

/-- The closing loop and what follows it, behind any callbacks. -/
theorem loop_ends (rc : Except Err Unit) (reached : Reachable config w)
    (ordered : Ordered config (looping config) w) :
    Ensures (fun _ _ => False)
      (do proxyShutdown; giving .eventLoop; giving .listener; proxyDestroyTls; giving .network; pure rc)
        (fun value after => value = rc ∧ Gone config (proxyShutdown w).2 after ∧
          after.deeds = (proxyShutdown w).2.deeds ++ (endLeases config).map .lease) w := by
  obtain ⟨middle, closes, later, left, empty⟩ := ordered_steady.shutdown (reachable_invariant reached) ordered
  rw [ensures_bind, closes]
  exact ensures_of_run closes (windUp_loop rc left empty (tlsContext_on later.invariant))

private theorem shutdown_serverInit (config : Config) : proxyShutdown
    (serverInit config) = (.ok (), serverInit config) :=
  rfl

private theorem proxyListening_returns (startup : Startup) (turns : List (Env × Call))
    (ordered : Ordered config ⟨true, tlsEnabled config, true, false⟩ w)
    (started : w.leased (.take .eventLoop) = serverInit config) :
    Ensures (fun _ _ => False) (proxyListening startup turns)
      (Returned config startup turns
        (firstError [if startup.eventLoopCreate then .ok () else .error .nomem, startup.eventLoopAdd])) w := by
  have begun : Ordered config (looping config) (serverInit config) := by
    rw [← started]
    refine ordered.taken .eventLoop ordered.configured (leases_leased _) (by simp [holds]) (fun other needed => ?_) ?_
    · cases needed
      rfl
    · ext resource
      cases resource <;> simp [holds, looping, World.leased, World.session?, World.node?, World.tlsContext]
  have empty : ∀ id, (serverInit config).session? id = none := fun _ => rfl
  rw [proxyListening]
  cases startup.eventLoopCreate with
  | false =>
    have contexts : ∀ side, (w.leased (.take .eventLoop)).tlsContext side = config.tlsOn side := by
      rw [started]
      exact tlsContext_on (invariant_serverInit config True)
    have log : (w.leased (.take .eventLoop)).log = fun _ => [] := by rw [started]; rfl
    have nextId : (w.leased (.take .eventLoop)).nextId = 0 := by rw [started]; rfl
    refine (windUp_listener (.error .nomem) ordered (started ▸ empty :) contexts).weaken (fun rc after ends => ?_)
      fun _ _ stopped => stopped
    exact ⟨ends.2.1.trace, ends.1, ends.2.1.log.trans log, ends.2.1.nextId.trans nextId⟩
  | true =>
    rw [if_neg (by simp), ensures_bind, ensures_taking, started, ensures_bind]
    cases failed : startup.eventLoopAdd with
    | error error =>
      have serves : proxyServe startup turns (serverInit config) = (.ok (.error error), serverInit config) := by
        rw [proxyServe, failed]; rfl
      refine ensures_of_run serves
        ((loop_ends (.error error) .refl begun).weaken (fun rc after ends => ?_) fun _ _ stopped => stopped)
      rw [shutdown_serverInit] at ends
      exact ⟨ends.2.1.trace, ends.1, ends.2.1.unserved⟩
    | ok value =>
      have serves : proxyServe startup turns (serverInit config) =
          (.ok startup.eventLoopRun, (serverInit config).served turns) := by
        rw [proxyServe, failed]
        rfl
      obtain ⟨reached, left⟩ := served_ordered turns .refl begun
      refine ensures_of_run serves
        ((loop_ends startup.eventLoopRun reached left).weaken (fun rc after ends => ?_) fun _ _ stopped => stopped)
      exact ⟨ends.2.1.trace, ends.1, reached, ends.2.1.log, ends.2.2⟩

private theorem proxyRun_returns (config : Config) (startup : Startup) (turns : List (Env × Call))
    (idle : Unserved w) (still : w.deeds = []) :
    Ensures (fun _ _ => False) (proxyRun config startup turns)
      (Returned config startup turns (firstError (startSteps config startup))) w := by
  have none : ∀ {u : World}, u.deeds = [] → Orderly (Needs config) ∅ u.leases ∅ := by
    intro u empty
    rw [World.leases, empty]
    exact .done
  rw [proxyRun, startSteps, List.append_assoc, firstError_append]
  cases proxyValidateConfig config with
  | error error => exact ⟨none still, rfl, idle⟩
  | ok value =>
    rw [ensures_bind, ensures_change]
    cases startup.netInit with
    | error error => exact ⟨none still, rfl, rfl, rfl⟩
    | ok value =>
      rw [ensures_bind, ensures_taking, ensures_bind, firstError_append, still]
      have bare : Bare config (serverInit config) ((serverZeroed config).leased (.take .network)) := by
        have first : insert .network ∅ =
            holdings ⟨true, false, false, false⟩ ((serverZeroed config).leased (.take .network)) := by
          ext resource
          cases resource with
          | context side => cases side <;> simp [holds, World.leased, World.tlsContext, serverZeroed]
          | session id => simp [holds, World.leased, World.session?, World.node?, serverZeroed, serverInit]
          | _ => simp [holds]
        refine ⟨⟨rfl, ?_⟩, fun _ => rfl, fun _ side => by cases side <;> rfl, rfl, rfl⟩
        rw [leases_leased, ← first]
        exact .take (by simp) (fun other needed => by cases needed) .done
      refine (proxyInitTls_takes startup bare rfl).weaken (fun rc u made => ?_) fun _ _ stopped => stopped
      obtain ⟨same, made⟩ := made
      rw [← same]
      cases rc with
      | error error =>
        have gone := bare_ends made
        exact ⟨gone.trace, rfl, gone.unserved⟩
      | ok value =>
        obtain ⟨starting, started⟩ := made
        cases startup.netListen config.listenEndpoint config.backlog with
        | error error =>
          refine (windUp (.error error) starting).weaken (fun rc after ends => ?_) fun _ _ stopped => stopped
          exact ⟨ends.2.1.trace, ends.1, ends.2.1.unserved⟩
        | ok value =>
          rw [ensures_bind, ensures_taking]
          refine proxyListening_returns startup turns ?_ ?_
          · refine starting.ordered.taken .listener starting.ordered.configured (leases_leased _) (by simp [holds])
              (fun other needed => ?_) ?_
            · cases needed
              rfl
            · ext resource
              cases resource <;> simp [holds, World.leased, World.session?, World.node?, World.tlsContext]
          · rw [started]
            simp [World.leased, serverInit, startLeases, serverZeroed]

/-- What each step of `sockify_proxy_run` answers, in order. -/
def runSteps (config : Config) (startup : Startup) : List (Except Err Unit) :=
  startSteps config startup ++ [startup.eventLoopRun]

/-- What `main` tells the system about its command line and its run. -/
def exitStatus (args : List Bytes) (startup : Startup) : Nat :=
  match cliParseArgs args proxyConfigInit with
  | (_, .exit) => 0
  | (_, .error _) => 2
  | (config, .ok) => if firstError (runSteps config startup) = .ok () then 0 else 1

/-- The event loop of a process with this command line runs. -/
def Starts (args : List Bytes) (startup : Startup) : Prop :=
  (cliParseArgs args proxyConfigInit).2 = .ok ∧
    firstError (startSteps (cliParseArgs args proxyConfigInit).1 startup) = .ok ()

/-- Whatever the command line, whichever step of the start fails, and whatever
callbacks the event loop makes until it returns: `main` returns and tells the
first failure; it takes nothing twice and nothing before what it needs, gives
back nothing that is still needed, and everything in the end. Its sessions are
those of the run of the server that these callbacks make, and of the closing
loop; where the event loop does not run it has none. -/
theorem main_orderly (args : List Bytes) (startup : Startup) (turns : List (Env × Call)) :
    ∃ status w, main args startup turns (serverZeroed proxyConfigInit) = (.ok status, w) ∧
      status = exitStatus args startup ∧
      Orderly (Needs (cliParseArgs args proxyConfigInit).1) ∅ w.leases ∅ ∧
      (Starts args startup → Served (cliParseArgs args proxyConfigInit).1 turns w) ∧
      (¬ Starts args startup → Unserved w) := by
  have idle : Unserved (serverZeroed proxyConfigInit) := ⟨rfl, rfl⟩
  rw [main, exitStatus, Starts]
  obtain ⟨config, code⟩ := cliParseArgs args proxyConfigInit
  cases code with
  | exit => exact ⟨0, _, rfl, rfl, .done, fun starts => (by cases starts.1), fun _ => idle⟩
  | error error => exact ⟨2, _, rfl, rfl, .done, fun starts => (by cases starts.1), fun _ => idle⟩
  | ok =>
    obtain ⟨rc, w, runs, trace, returned⟩ := (proxyRun_returns config startup turns idle rfl).returns
    refine ⟨if rc = .ok () then 0 else 1, w, (bind_ok runs _).trans (by cases rc <;> rfl), ?_, trace, ?_⟩
    · simp only [runSteps, firstError_append]
      cases outcome : firstError (startSteps config startup) with
      | error error =>
        rw [outcome] at returned
        simp [returned.1]
      | ok value =>
        rw [outcome] at returned
        rw [returned.1]
        cases startup.eventLoopRun <;> rfl
    · cases outcome : firstError (startSteps config startup) with
      | error error =>
        rw [outcome] at returned
        exact ⟨fun starts => (by cases starts.2), fun _ => returned.2⟩
      | ok value =>
        rw [outcome] at returned
        exact ⟨fun _ => returned.2, fun stops => absurd ⟨rfl, rfl⟩ stops⟩

end Sockify.Proofs.Lifecycle
