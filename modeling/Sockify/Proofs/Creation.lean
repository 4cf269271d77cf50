import Sockify.Proofs.SessionLogic
import Sockify.Proofs.Soundness

/-! A new session is linked in front of the others, or leaves no trace. -/

namespace Sockify.Proofs.Creation
open Sockify Stateful Registry SessionLogic Soundness

/-- A session as `session_create` hands it to the event loop. -/
structure Created (config : Config) (s : Session) : Prop where
  handshake : s.handshake = [] ∧ s.handshakeDone = false
  parser : s.wsParser = wsParserInit
  buffers : s.clientToTarget = sessionBuffer (sessionBufferSize config) ∧
    s.targetToClient = sessionBuffer (sessionBufferSize config)
  slot : s.clientOut = [] ∧ s.clientOutLen = 0 ∧ s.clientOutPos = 0 ∧ s.clientOutCapacity = ioChunk + 14
  closing : s.closing = .no ∧ s.pendingClose = false ∧ s.pendingClosePayload = []
  target : s.targetFd = none ∧ s.targetRegistered = false ∧
    s.targetConnecting = false ∧ s.targetTransport = transportInitPlain none
  ready : s.targetTlsReady = !config.targetTlsEnabled
  registered : s.clientRegistered = true

variable {config : Config} {s : Session}

theorem sessionBufferSize_pos (config : Config) : 0 < sessionBufferSize config := by
  unfold sessionBufferSize
  split
  · decide
  · omega

private theorem sessionBuffer_built (config : Config) :
    ∃ buf, bufferInit (List.replicate (sessionBufferSize config) 0) (sessionBufferSize config)
      (sessionBufferSize config * 3 / 4) (sessionBufferSize config / 4) = .ok buf ∧
      sessionBuffer (sessionBufferSize config) = buf := by
  have positive := sessionBufferSize_pos config
  have built : ∃ buf, bufferInit (List.replicate (sessionBufferSize config) 0) (sessionBufferSize config)
      (sessionBufferSize config * 3 / 4) (sessionBufferSize config / 4) = .ok buf := by
    unfold bufferInit
    rw [if_neg (by omega), if_neg (by omega)]
    exact ⟨_, rfl⟩
  obtain ⟨buf, built⟩ := built
  exact ⟨buf, built, by rw [sessionBuffer, built]⟩

theorem sessionBuffer_sized (config : Config) :
    Sized config (sessionBuffer (sessionBufferSize config)) ∧
    (sessionBuffer (sessionBufferSize config)).length = 0 := by
  obtain ⟨buf, built, same⟩ := sessionBuffer_built config
  obtain ⟨valid, -, length, capacity, highWater⟩ := BufferQueue.bufferInit_spec (List.length_replicate ..) built
  rw [same]
  exact ⟨⟨valid, capacity, highWater⟩, length⟩

theorem Created.sound (created : Created config s) : Sound config s where
  live := by simp [created.closing.1]
  parser := by
    rw [created.parser]
    exact ParserCursor.init_valid
  clientToTarget := by
    rw [created.buffers.1]
    exact (sessionBuffer_sized config).1
  targetToClient := by
    rw [created.buffers.2]
    exact (sessionBuffer_sized config).1
  capacity := created.slot.2.2.2
  slot := by simp [created.slot.1, created.slot.2.1, created.slot.2.2.1]
  registered := created.registered
  pending := by simp [created.closing.2.1]
  payload := by simp [created.closing.2.2]
  early := fun _ => by
    refine ⟨created.closing.1, created.closing.2.1, ⟨created.slot.2.1, created.slot.2.2.1⟩, created.parser, ?_,
      created.target.1, created.target.2.1, created.target.2.2.1⟩
    rw [created.buffers.1, created.buffers.2]
    exact ⟨(sessionBuffer_sized config).2, (sessionBuffer_sized config).2⟩
  late := by simp [created.handshake.2]

/-- What a failed creation leaves: the world it found, but for a spent identity. -/
structure Discarded (w : World) (after : World) : Prop where
  nodes : ∀ id, after.node? id = w.node? id
  log : ∀ id, id ≠ w.nextId → after.log id = w.log id
  own : (after.log w.nextId = w.log w.nextId ∧ after.deeds = w.deeds) ∨
    ∃ s, after.nextId = w.nextId + 1 ∧ after.log w.nextId = w.log w.nextId ++ [.release s] ∧
      after.deeds = w.deeds ++ [.lease (.take (.session w.nextId))] ++ closeDeeds w.nextId s
  registry : after.head = w.head ∧ after.activeConnections = w.activeConnections
  config : after.config = w.config
  contexts : after.clientTlsContext = w.clientTlsContext ∧ after.targetTlsContext = w.targetTlsContext
  nextId : w.nextId ≤ after.nextId

structure Entered (w : World) (after : World) : Prop where
  session : ∃ s, after.session? w.nextId = some s ∧ Created w.config s
  sessions : ∀ id, id ≠ w.nextId → after.session? id = w.session? id
  log : after.log = w.log
  linked : ∀ order, Linked w order → Linked after (w.nextId :: order)
  config : after.config = w.config
  contexts : after.clientTlsContext = w.clientTlsContext ∧ after.targetTlsContext = w.targetTlsContext
  nextId : after.nextId = w.nextId + 1
  deeds : after.deeds = w.deeds ++ [.lease (.take (.session w.nextId))]

section draft
variable {w : World} {broken : Fault → World → Prop}

/-- The world with the memory of a session that is not linked yet. -/
def drafted (w : World) (clientFd : Socket) : World :=
  { w with
    nextId := w.nextId + 1
    deeds := w.deeds ++ [.lease (.take (.session w.nextId))]
    sessions := w.sessions.insert w.nextId ⟨none, none, { Session.zeroed with clientFd := some clientFd }⟩ }

theorem node_drafted (clientFd : Socket) (id : SessionId) : (drafted w clientFd).node? id =
    if id = w.nextId then some ⟨none, none, { Session.zeroed with clientFd := some clientFd }⟩ else w.node? id := by
  unfold drafted World.node?
  by_cases same : id = w.nextId
  · rw [if_pos same, same, Finmap.lookup_insert]
  · rw [if_neg same, Finmap.lookup_insert_of_ne _ same]

/-- The spot of a session that is being created. -/
def draft (w : World) (clientFd : Socket) : Spot where
  world := drafted w clientFd
  id := w.nextId
  present := by simp [node_drafted]

private theorem node_draft (clientFd : Socket) (x : Own) :
    ((draft w clientFd).place x).node? w.nextId = some ⟨none, none, x.session⟩ := by
  obtain ⟨node, found, placed⟩ := (draft w clientFd).node_place_self x
  have same : node = ⟨none, none, { Session.zeroed with clientFd := some clientFd }⟩ := by
    simpa [draft, node_drafted, eq_comm] using found
  rw [same] at placed
  exact placed

theorem ensures_alloc (clientFd : Socket) (post : SessionId → World → Prop) :
    Ensures broken (sessionAlloc clientFd) post w ↔ post w.nextId (drafted w clientFd) := Iff.rfl

private theorem headless {order : List SessionId} (linked : Linked w order)
    (fresh : w.node? w.nextId = none) : w.head ≠ some w.nextId := by
  intro first
  rw [linked.first] at first
  exact linked.alive (List.mem_of_mem_head? first) fresh

private theorem head_draft (clientFd : Socket) (x : Own) : ((draft w clientFd).place x).head = w.head ∧
    ((draft w clientFd).place x).activeConnections = w.activeConnections := by
  have placed := (draft w clientFd).place_registry x
  exact placed

private theorem node_draft_other (clientFd : Socket) (x : Own) {id : SessionId} (different : id ≠ w.nextId) :
    ((draft w clientFd).place x).node? id = w.node? id := by
  rw [(draft w clientFd).node_place_other x different]
  change (drafted w clientFd).node? id = _
  rw [node_drafted, if_neg different]

/-- Giving up a session that was never linked. -/
theorem sessionClose_discards {order : List SessionId} (linked : Linked w order)
    (fresh : w.node? w.nextId = none) (clientFd : Socket) {x : Own} (silent : x.log = w.log w.nextId)
    (live : x.session.closing ≠ .released) :
    Ensures broken (sessionClose w.nextId) (fun _ after => Discarded w after) ((draft w clientFd).place x) := by
  let calls := (sessionCloseCalls x.session).map (Deed.dispose w.nextId)
  let last := (draft w clientFd).did (calls ++ freeDeeds w.nextId)
  refine (sessionClose_ensures (draft w clientFd) (fun middle => ∃ y : Own, y.log = x.log ∧
    middle = { last.place y with sessions := (last.place y).sessions.erase w.nextId }) live fun y same =>
      ?_).weaken ?_ fun _ _ stopped => stopped
  · let spot := (draft w clientFd).did calls
    have alone : (spot.place y).head ≠ some w.nextId := by
      rw [(spot.place_registry y).1]
      exact headless linked fresh
    have here : (spot.place y).node? w.nextId = some ⟨none, none, y.session⟩ := by
      rw [(draft w clientFd).did_place]
      exact node_draft clientFd y
    change Ensures broken (do serverUnlinkSession w.nextId; sessionFree w.nextId) _ (spot.place y)
    simp only [serverUnlinkSession, ensures_bind, ensures_derefNode _ here, ensures_inspect]
    rw [if_pos ⟨trivial, alone⟩, ensures_pure]
    simp only [sessionFree, perform, ensures_bind, ensures_change]
    refine ⟨{ y with calls := y.calls + 4 }, same, ?_⟩
    have done : last = spot.did (freeDeeds w.nextId) := ((draft w clientFd).did_did _ _).symm
    rw [done, spot.did_place]
    simp only [World.freed, World.performed,
      freeDeeds, Spot.deeds_place, List.append_assoc, List.cons_append, List.nil_append]
    rfl
  · rintro _ _ ⟨_, ⟨y, same, rfl⟩, rfl⟩
    have spent : (last.place y).nextId = w.nextId + 1 := last.nextId_place y
    have log : (last.place y).log = Function.update w.log w.nextId y.log := rfl
    have here : last.id = w.nextId := rfl
    refine ⟨?_, ?_, .inr ⟨x.session, spent, ?_, ?_⟩, ?_, ?_, ?_, ?_⟩
    · intro id
      change Finmap.lookup id ((last.place y).sessions.erase w.nextId) = _
      by_cases same : id = w.nextId
      · rw [same, fresh, Finmap.lookup_erase]
      · rw [Finmap.lookup_erase_ne same]
        exact (last.node_place_other y same).trans ((node_drafted clientFd id).trans (if_neg same))
    · intro id different
      change Function.update (Function.update w.log w.nextId y.log) w.nextId _ id = _
      rw [Function.update_of_ne different, Function.update_of_ne different]
    · change Function.update (Function.update w.log w.nextId y.log) w.nextId
        (Function.update w.log w.nextId y.log w.nextId ++ _) w.nextId = _
      rw [Function.update_self, Function.update_self, same, silent]
    · exact last.deeds_place y
    · exact last.place_registry y
    · exact last.config_place y
    · exact ⟨last.clientContext_place y, last.targetContext_place y⟩
    · exact spent ▸ Nat.le_succ _

/-- The world behind the linking of a new session in the state `s`. -/
structure Fronted (w : World) (s : Session) (after : World) : Prop where
  own : after.node? w.nextId = some ⟨w.head, none, s⟩
  others : ∀ id, id ≠ w.nextId →
    after.node? id = (w.node? id).map fun node => if w.head = some id then { node with prev := some w.nextId } else node
  log : after.log = w.log
  registry : after.head = some w.nextId ∧ after.activeConnections = w.activeConnections + 1
  config : after.config = w.config
  contexts : after.clientTlsContext = w.clientTlsContext ∧ after.targetTlsContext = w.targetTlsContext
  nextId : after.nextId = w.nextId + 1
  deeds : after.deeds = w.deeds ++ [.lease (.take (.session w.nextId))]

private theorem serverLinkSession_fronts {order : List SessionId} (linked : Linked w order)
    (fresh : w.node? w.nextId = none) (clientFd : Socket) {x : Own} (silent : x.log = w.log w.nextId) :
    Ensures broken (serverLinkSession w.nextId) (fun _ after => Fronted w x.session after)
      ((draft w clientFd).place x) := by
  have own := node_draft (w := w) clientFd x
  have log : ((draft w clientFd).place x).log = w.log := by
    change Function.update w.log w.nextId x.log = w.log
    rw [silent, Function.update_eq_self]
  have head := head_draft (w := w) clientFd x
  have config := (draft w clientFd).config_place x
  have contexts := And.intro ((draft w clientFd).clientContext_place x) ((draft w clientFd).targetContext_place x)
  have nextId := (draft w clientFd).nextId_place x
  have deeds := (draft w clientFd).deeds_place x
  have others := fun id (different : id ≠ w.nextId) => node_draft_other (w := w) clientFd x different
  generalize (draft w clientFd).place x = u at *
  simp only [serverLinkSession, ensures_bind, ensures_inspect, ensures_updateNode _ _ own, head.1]
  cases first : w.head with
  | none =>
    simp only [ensures_change]
    refine ⟨?_, ?_, log, ⟨rfl, congrArg (· + 1) head.2⟩, config, contexts, nextId, deeds⟩
    · rw [first]
      exact node_putNode_self
    · intro id different
      refine (node_putNode_other different).trans ?_
      simp [others id different, first]
  | some front =>
    have different : front ≠ w.nextId := by
      rintro rfl
      exact headless linked fresh first
    have alive : w.node? front ≠ none := by
      rw [linked.first] at first
      exact linked.alive (List.mem_of_mem_head? first)
    obtain ⟨node, found⟩ := Option.ne_none_iff_exists'.mp alive
    have still : (u.putNode w.nextId ⟨some front, none, x.session⟩).node? front = some node := by
      rw [node_putNode_other different, others front different, found]
    simp only [ensures_bind, ensures_updateNode _ _ still, ensures_change]
    refine ⟨?_, ?_, log, ⟨rfl, congrArg (· + 1) head.2⟩, config, contexts, nextId, deeds⟩
    · rw [first]
      exact (node_putNode_other different.symm).trans node_putNode_self
    · intro id apart
      by_cases same : id = front
      · subst same
        refine node_putNode_self.trans ?_
        simp [found, first]
      · refine (node_putNode_other same).trans ((node_putNode_other apart).trans ?_)
        simp [others id apart, first, Ne.symm same]

/-- A linked session may still have its times set. -/
theorem Fronted.enters {s t : Session} {after : World} (fronted : Fronted w s after) (fresh : w.node? w.nextId = none)
    (created : Created w.config t) : Entered w (after.put w.nextId t) := by
  have put : after.put w.nextId t = after.putNode w.nextId ⟨w.head, none, t⟩ := by simp [World.put, fronted.own]
  rw [put]
  have own : (after.putNode w.nextId ⟨w.head, none, t⟩).node? w.nextId = some ⟨w.head, none, t⟩ := node_putNode_self
  have others : ∀ id, id ≠ w.nextId → (after.putNode w.nextId ⟨w.head, none, t⟩).node? id =
      (w.node? id).map fun node => if w.head = some id then { node with prev := some w.nextId } else node :=
    fun id different => (node_putNode_other different).trans (fronted.others id different)
  refine ⟨⟨t, by simp [World.session?, own], created⟩,
    ?_, fronted.log, ?_, fronted.config, fronted.contexts, fronted.nextId, fronted.deeds⟩
  · intro id different
    simp only [World.session?, others id different, Option.map_map]
    congr 1
    funext node
    simp only [Function.comp]
    split <;> rfl
  · intro order linked
    refine linked.entered fresh fronted.registry.1 fronted.registry.2 (by simp [links, own]) fun id different => ?_
    simp only [links, others id different, Option.map_map]
    congr 1
    funext node
    simp only [Function.comp]
    split <;> rfl

structure Begun (s : Session) : Prop where
  closing : s.closing = .no ∧ s.pendingClose = false ∧ s.pendingClosePayload = []
  handshake : s.handshake = [] ∧ s.handshakeDone = false
  slot : s.clientOut = [] ∧ s.clientOutLen = 0 ∧ s.clientOutPos = 0
  target : s.targetFd = none ∧ s.targetRegistered = false ∧ s.targetConnecting = false

private theorem sessionInitClient_begins {env : Env} {site : Spot} {clientFd : Socket} {x : Own}
    (begun : Begun x.session) :
    Ensures broken (sessionInitClient env site.id clientFd)
      (fun _ after => ∃ y, after = site.place y ∧ y.log = x.log ∧ Begun y.session) (site.place x) := by
  simp only [sessionInitClient, ensures_bind, ensures_inspect]
  split
  · split
    · exact ⟨x, rfl, rfl, begun⟩
    · simp only [ensures_bind, ensures_nextCall]
      split
      · exact ⟨_, rfl, rfl, begun⟩
      · simp only [ensures_bind, ensures_update, ensures_pure]
        exact ⟨_, rfl, rfl, { begun with }⟩
  · simp only [ensures_bind, ensures_update, ensures_pure]
    exact ⟨_, rfl, rfl, { begun with }⟩

theorem Begun.live (begun : Begun s) : s.closing ≠ .released := by simp [begun.closing.1]

/-- The session with everything that `session_create` sets before it registers the client. -/
theorem Begun.created (begun : Begun s) (times : Int × Int × Int) : Created config
    { sessionInitBuffers config (sessionInitFields config s) with
      clientRegistered := true, createdAt := times.1, lastActivityAt := times.2.1, connectStartedAt := times.2.2 } where
  handshake := begun.handshake
  parser := rfl
  buffers := ⟨rfl, rfl⟩
  slot := ⟨begun.slot.1, begun.slot.2.1, begun.slot.2.2, rfl⟩
  closing := begun.closing
  target := ⟨begun.target.1, begun.target.2.1, begun.target.2.2, rfl⟩
  ready := rfl
  registered := rfl

/-- What `session_create` leaves behind its `calloc`. -/
def Made (w : World) (created : Option SessionId) (after : World) : Prop :=
  if created = none then Discarded w after else Entered w after

variable {order : List SessionId}

private theorem closed_discards (linked : Linked w order) (fresh : w.node? w.nextId = none)
    (clientFd : Socket) {x : Own} (silent : x.log = w.log w.nextId)
    (live : x.session.closing ≠ .released) :
    Ensures broken (do sessionClose (draft w clientFd).id; pure none) (Made w) ((draft w clientFd).place x) := by
  rw [ensures_bind]
  exact (sessionClose_discards linked fresh clientFd silent live).weaken (fun _ _ holds => holds)
    fun _ _ stopped => stopped

private theorem registerClient_creates {env : Env} (linked : Linked w order)
    (fresh : w.node? w.nextId = none) (clientFd : Socket) {x : Own} (silent : x.log = w.log w.nextId)
    (begun : Begun s) (shape : x.session = sessionInitBuffers w.config (sessionInitFields w.config s)) :
    Ensures broken (sessionRegisterClient env (draft w clientFd).id) (Made w) ((draft w clientFd).place x) := by
  simp only [sessionRegisterClient, ensures_bind, ensures_inspect, ensures_nextCall]
  split
  · exact closed_discards linked fresh clientFd silent (by rw [shape]; exact begun.live)
  · simp only [ensures_bind, ensures_setInterest, ensures_update]
    refine (serverLinkSession_fronts linked fresh clientFd (by exact silent)).weaken ?_ fun _ _ stopped => stopped
    intro _ after fronted
    have present : after.session? w.nextId = some { x.session with clientRegistered := true } := by
      rw [World.session?, fronted.own]
      rfl
    change Ensures broken (do update w.nextId _; pure (some w.nextId)) (Made w) after
    simp only [Ensures, bind, update, present, Made, pure]
    rw [if_neg (by simp)]
    refine fronted.enters fresh ?_
    rw [shape]
    exact begun.created (env.time x.calls, env.time x.calls, 0)

theorem sessionSetUp_creates {env : Env} (linked : Linked w order) (fresh : w.node? w.nextId = none)
    (clientFd : Socket) {x : Own} (silent : x.log = w.log w.nextId) (begun : Begun x.session) :
    Ensures broken (sessionSetUp env (draft w clientFd).id clientFd) (Made w) ((draft w clientFd).place x) := by
  simp only [sessionSetUp, ensures_bind, ensures_inspect]
  refine (sessionInitClient_begins begun).weaken ?_ fun _ _ stopped => stopped
  rintro rc _ ⟨y, rfl, same, begun⟩
  have config : ((draft w clientFd).place x).config = w.config := (draft w clientFd).config_place x
  split
  · exact closed_discards linked fresh clientFd (same.trans silent) begun.live
  · simp only [ensures_bind, ensures_update, ensures_nextCall]
    split
    · exact closed_discards linked fresh clientFd (same.trans silent) begun.live
    · simp only [ensures_bind, ensures_update]
      refine registerClient_creates linked fresh clientFd (same.trans silent) begun ?_
      rw [config]

theorem sessionCreate_creates {b : Fault → World → Prop} {env : Env} {clientFd : Socket} (linked : Linked w order)
    (fresh : w.node? w.nextId = none) : Ensures b (sessionCreate env clientFd) (Made w) w := by
  have linkedCalled : Linked w.called order := linked.congr rfl rfl fun _ => rfl
  simp only [sessionCreate, ensures_bind]
  change Ensures b _ (Made w) w.called
  split
  · simp only [ensures_pure, Made]
    exact ⟨fun _ => rfl, fun _ _ => rfl, .inl ⟨rfl, rfl⟩, ⟨rfl, rfl⟩, rfl, ⟨rfl, rfl⟩, Nat.le_refl _⟩
  · rw [ensures_bind, ensures_alloc]
    have own : (draft w.called clientFd).world.session? (draft w.called clientFd).id =
        some { Session.zeroed with clientFd := some clientFd } := by
      simp [draft, World.session?, node_drafted]
    change Ensures b (sessionSetUp env (draft w.called clientFd).id clientFd) _ (draft w.called clientFd).world
    rw [← (draft w.called clientFd).place_own own]
    refine (sessionSetUp_creates (w := w.called) linkedCalled fresh clientFd rfl ?_).weaken ?_
      fun _ _ stopped => stopped
    · exact ⟨⟨rfl, rfl, rfl⟩, ⟨rfl, rfl⟩, ⟨rfl, rfl, rfl⟩, ⟨rfl, rfl, rfl⟩⟩
    · intro created after made
      unfold Made at made ⊢
      split at made
      · rw [if_pos ‹_›]
        exact { made with }
      · rw [if_neg ‹_›]
        exact { made with linked := fun order holds => made.linked order (holds.congr rfl rfl fun _ => rfl) }

end draft

end Sockify.Proofs.Creation
