import Sockify.Proofs.Lifetimes
import Sockify.Resources

/-! What `session_create` keeps on its way: a property that none of its steps
can break holds behind it, whether it succeeds or gives up. -/

namespace Sockify.Proofs.Building
open Sockify Stateful Registry Lifetimes

/-- What the steps behind the client's transport leave of a session. -/
def Builder (f : Session → Session) : Prop :=
  ∀ s, sessionDescriptors (f s) = sessionDescriptors s ∧ (f s).closing = s.closing ∧
    (f s).clientTransport = s.clientTransport ∧ (f s).clientTlsReady = s.clientTlsReady

structure Builds (id : SessionId) (kept : World → Prop) : Prop where
  counts : ∀ w, kept w → kept w.called
  updates : ∀ f : Session → Session, Builder f → Keeps kept (update id f)
  nodes : ∀ other (f : Node → Node), (∀ node, (f node).session = node.session) → Keeps kept (updateNode other f)
  listed : ∀ w head active, kept w → kept { w with head := head, activeConnections := active }
  watches : ∀ side events, Keeps kept (setInterest id side events)
  closes : Keeps kept (sessionClose id)

variable {kept : World → Prop} {id other : SessionId} {env : Env} {clientFd : Socket}

section building
variable (builds : Builds id kept)
include builds

private theorem keeps_nextCall : Keeps kept nextCall := fun w holds => builds.counts w holds

private theorem keeps_giveUp : Keeps kept (do sessionClose id; pure none : Proc (Option SessionId)) :=
  builds.closes.bind fun _ => .pure _

private theorem keeps_initClient
    (inits : ∀ transport ready,
      Keeps kept (update id fun s => { s with clientTransport := transport, clientTlsReady := ready })) :
    Keeps kept (sessionInitClient env id clientFd) := by
  refine .bind (.inspect _) fun config =>
    .bind (.inspect _) fun context => .ite (fun _ => .ite (fun _ => .pure _) fun _ => ?_) fun _ => ?_
  · refine .bind (keeps_nextCall builds) fun n => ?_
    split
    · exact .pure _
    · exact .bind (inits _ _) fun _ => .pure _
  · exact .bind (inits _ _) fun _ => .pure _

private theorem keeps_link : Keeps kept (serverLinkSession id) := by
  refine .bind (.inspect _) fun head => .bind (builds.nodes id _ fun _ => rfl) fun _ => ?_
  have counted : Keeps kept
      (change fun w => { w with head := some id, activeConnections := w.activeConnections + 1 } : Proc Unit) :=
    .change fun w holds => builds.listed w _ _ holds
  cases head with
  | none => exact counted
  | some first => exact .bind (builds.nodes first _ fun _ => rfl) fun _ => counted

private theorem keeps_registerClient : Keeps kept (sessionRegisterClient env id) := by
  refine .bind (.inspect _) fun config => .bind (keeps_nextCall builds) fun n => ?_
  split
  · exact keeps_giveUp builds
  · exact .bind (builds.watches _ _) fun _ =>
        .bind (builds.updates _ fun _ => ⟨rfl, rfl, rfl, rfl⟩) fun _ => .bind (keeps_link builds) fun _ =>
      .bind (builds.updates _ fun _ => ⟨rfl, rfl, rfl, rfl⟩) fun _ => .pure _

/-- `session_create` behind the client's transport. -/
theorem keeps_setUpRest (config : Config) : Keeps kept (do
    update id (sessionInitFields config)
    let first ← nextCall
    let second ← nextCall
    let third ← nextCall
    if !env.alloc first ∨ !env.alloc second ∨ !env.alloc third then
      sessionClose id
      pure none
    else
      update id (sessionInitBuffers config)
      sessionRegisterClient env id : Proc (Option SessionId)) := by
  refine .bind (builds.updates _ fun _ => ⟨rfl, rfl, rfl, rfl⟩) fun _ =>
      .bind (keeps_nextCall builds) fun _ => .bind (keeps_nextCall builds) fun _ =>
    .bind (keeps_nextCall builds) fun _ => .ite (fun _ => keeps_giveUp builds) fun _ => ?_
  exact .bind (builds.updates _ fun _ => ⟨rfl, rfl, rfl, rfl⟩) fun _ => keeps_registerClient builds

theorem keeps_setUp
    (inits : ∀ transport ready,
      Keeps kept (update id fun s => { s with clientTransport := transport, clientTlsReady := ready })) :
    Keeps kept (sessionSetUp env id clientFd) :=
  .bind (.inspect _) fun config =>
      .bind (keeps_initClient builds inits) fun _ => .ite (fun _ => keeps_giveUp builds) fun _ =>
    keeps_setUpRest builds config

end building

/-- Unlinking a session touches links and counters alone. -/
theorem keeps_unlink
    (nodes : ∀ other (f : Node → Node), (∀ node, (f node).session = node.session) → Keeps kept (updateNode other f))
    (listed : ∀ w head active, kept w → kept { w with head := head, activeConnections := active }) :
    Keeps kept (serverUnlinkSession id) := by
  refine (keeps_derefNode id).bind fun node => (Keeps.inspect _).bind fun head => .ite (fun _ => .pure _) fun _ => ?_
  have next : Keeps kept (setNext node.prev node.next) := by
    unfold setNext
    split
    · exact nodes _ _ fun _ => rfl
    · exact .change fun w holds => listed w _ w.activeConnections holds
  have prev : Keeps kept (setPrev node.next node.prev) := by
    unfold setPrev
    split
    · exact nodes _ _ fun _ => rfl
    · exact .pure _
  exact next.bind fun _ => prev.bind fun _ => .bind (nodes _ _ fun _ => rfl) fun _ =>
    .change fun w holds => listed w w.head _ holds

/-- Freeing a session is calls that only the record shows, and the end of its memory. -/
theorem keeps_free (performs : ∀ deed, Keeps kept (perform deed))
    (ends : Keeps kept (change (·.freed id) : Proc Unit)) :
    Keeps kept (sessionFree id) :=
  (performs _).bind fun _ => (performs _).bind fun _ => (performs _).bind fun _ => ends

/-- The calls of `session_close`, which change neither a descriptor nor the mark. -/
theorem keeps_disposals (performs : ∀ deed, Keeps kept (perform deed))
    (watches : ∀ side, Keeps kept (setInterest id side none))
    (updates : ∀ f : Session → Session,
      (∀ s, sessionDescriptors (f s) = sessionDescriptors s ∧ (f s).closing = s.closing) → Keeps kept (update id f))
    (s : Session) {rest : Proc Unit} (ends : Keeps kept rest) :
    Keeps kept (do
      onlyIf (s.clientRegistered = true) do
        perform (.dispose id (.remove s.clientFd))
        setInterest id .client none
        update id fun s => { s with clientRegistered := false }
      onlyIf (s.targetRegistered = true) do
        perform (.dispose id (.remove s.targetFd))
        setInterest id .target none
        update id fun s => { s with targetRegistered := false }
      onlyIf (s.clientFd ≠ none) do
        perform (.dispose id (.destroy s.clientTransport))
        update id fun s => { s with clientTransport := transportDestroyed }
        perform (.dispose id (.close s.clientFd))
      onlyIf (s.targetFd ≠ none) do
        perform (.dispose id (.destroy s.targetTransport))
        update id fun s => { s with targetTransport := transportDestroyed }
        perform (.dispose id (.close s.targetFd))
      rest) := by
  have removes {f : Session → Session} (side : Side) (fd : Option Socket)
      (same : ∀ s, sessionDescriptors (f s) = sessionDescriptors s ∧ (f s).closing = s.closing) :
      Keeps kept (do perform (.dispose id (.remove fd)); setInterest id side none; update id f) :=
    (performs _).bind fun _ => (watches side).bind fun _ => updates f same
  have drops {f : Session → Session} (transport : Transport) (fd : Option Socket)
      (same : ∀ s, sessionDescriptors (f s) = sessionDescriptors s ∧ (f s).closing = s.closing) :
      Keeps kept (do perform (.dispose id (.destroy transport)); update id f; perform (.dispose id (.close fd))) :=
    (performs _).bind fun _ => (updates f same).bind fun _ => performs _
  refine .bind (.onlyIf fun _ => removes _ _ fun _ => ⟨rfl, rfl⟩) fun _ => ?_
  refine .bind (.onlyIf fun _ => removes _ _ fun _ => ⟨rfl, rfl⟩) fun _ => ?_
  refine .bind (.onlyIf fun _ => drops _ _ fun _ => ⟨rfl, rfl⟩) fun _ => ?_
  exact .bind (.onlyIf fun _ => drops _ _ fun _ => ⟨rfl, rfl⟩) fun _ => ends

/-! The interest of another session. -/

def Watched (id : SessionId) (interest : Side → Option Events) (w : World) : Prop := w.interest id = interest

variable {interest : Side → Option Events}

theorem watched_update (f : Session → Session) : Keeps (Watched id interest) (update other f) := by
  intro w holds
  unfold Ensures update World.put
  repeat' split
  all_goals grind [Watched, World.putNode]

private theorem watched_updateNode (f : Node → Node) : Keeps (Watched id interest) (updateNode other f) := by
  intro w holds
  unfold Ensures updateNode
  repeat' split
  all_goals grind [Watched, World.putNode]

private theorem watched_deref : Keeps (Watched id interest) (deref other) := by
  intro w holds
  unfold Ensures deref
  repeat' split
  all_goals grind

private theorem watched_setInterest (different : other ≠ id) (side : Side) (events : Option Events) :
    Keeps (Watched id interest) (setInterest other side events) :=
  .change fun w holds => by simpa [Watched, World.withInterest, different.symm] using holds

private theorem watched_freed : Keeps (Watched id interest) (change (·.freed other) : Proc Unit) :=
  .change fun _ holds => holds

private theorem watched_record (io : Io) : Keeps (Watched id interest) (record other io) := .change fun _ holds => holds

private theorem watched_perform (deed : Deed) : Keeps (Watched id interest) (perform deed) :=
  .change fun _ holds => holds

private theorem watched_close (different : other ≠ id) : Keeps (Watched id interest) (sessionClose other) := by
  refine watched_deref.bind fun s => .ite (fun _ => .pure _) fun _ => (watched_update _).bind fun _ => ?_
  refine keeps_disposals watched_perform (fun side => watched_setInterest different side none)
    (fun f _ => watched_update f) s ?_
  have unlinks : Keeps (Watched id interest) (serverUnlinkSession other) :=
    keeps_unlink (fun _ f _ => watched_updateNode f) fun _ _ _ holds => holds
  exact unlinks.bind fun _ => (keeps_free watched_perform watched_freed).bind fun _ => watched_record _

theorem builds_watched (different : other ≠ id) : Builds other (Watched id interest) where
  counts := fun _ holds => holds
  updates := fun f _ => watched_update f
  nodes := fun _ f _ => watched_updateNode f
  listed := fun _ _ _ holds => holds
  watches := watched_setInterest different
  closes := watched_close different

/-! The descriptor of the session itself. -/

/-- The session is there or was released, and one descriptor is all it holds. -/
structure Owns (id : SessionId) (clientFd : Socket) (w : World) : Prop where
  alive : ∀ s, w.session? id = some s → sessionDescriptors s = [clientFd]
  released : ∀ s, .release s ∈ w.log id → sessionDescriptors s = [clientFd]
  somewhere : w.session? id = none → ∃ s, .release s ∈ w.log id

theorem owns_update {f : Session → Session}
    (same : ∀ s, sessionDescriptors (f s) = sessionDescriptors s) :
    Keeps (Owns id clientFd) (update id f) := by
  intro w owns
  unfold Ensures update
  split
  next runs =>
    split at runs
    next s present =>
      obtain ⟨node, found, rfl⟩ : ∃ node, w.node? id = some node ∧ node.session = s := by
        simpa [World.session?] using present
      obtain ⟨-, rfl⟩ := Prod.mk.inj runs
      have log : (w.put id (f node.session)).log = w.log := by simp [World.put, found, World.putNode]
      have left : (w.put id (f node.session)).session? id = some (f node.session) := by
        simp [World.put, found, World.session?]
      refine ⟨fun s alive => ?_, fun s member =>
        owns.released s (log ▸ member), fun gone => absurd (left.symm.trans gone) (by simp)⟩
      obtain rfl : f node.session = s := Option.some.inj (left.symm.trans alive)
      exact (same _).trans (owns.alive _ present)
    next => cases runs
  next runs =>
    split at runs
    · cases runs
    · obtain ⟨-, rfl⟩ := Prod.mk.inj runs
      exact owns

private theorem owns_updateNode {f : Node → Node} (same : ∀ node, (f node).session = node.session) :
    Keeps (Owns id clientFd) (updateNode other f) := by
  intro w owns
  unfold Ensures updateNode
  split
  next runs =>
    split at runs
    next node found =>
      obtain ⟨-, rfl⟩ := Prod.mk.inj runs
      have sessions : (w.putNode other (f node)).session? id = w.session? id := by
        by_cases here : id = other
        · subst here
          simp [World.session?, found, same]
        · simp [World.session?, here]
      exact ⟨fun s alive => owns.alive s (sessions ▸ alive), owns.released, fun gone =>
        owns.somewhere (sessions ▸ gone)⟩
    next => cases runs
  next runs =>
    split at runs
    · cases runs
    · obtain ⟨-, rfl⟩ := Prod.mk.inj runs
      exact owns

private theorem owns_setInterest (side : Side) (events : Option Events) :
    Keeps (Owns id clientFd) (setInterest other side events) :=
  .change fun _ owns => ⟨owns.alive, owns.released, owns.somewhere⟩

private theorem owns_perform (deed : Deed) : Keeps (Owns id clientFd) (perform deed) :=
  .change fun _ owns => ⟨owns.alive, owns.released, owns.somewhere⟩

private theorem owns_close : Keeps (Owns id clientFd) (sessionClose id) := by
  intro w owns
  unfold sessionClose
  rw [ensures_bind]
  cases present : w.session? id with
  | none => simpa [Ensures, deref, present] using owns
  | some s =>
    have held := owns.alive s present
    have ends : Keeps (Owns id clientFd) (do
        sessionFree id
        record id (.release s)) := by
      intro u owns
      simp only [sessionFree, perform, record, ensures_bind, ensures_change]
      refine ⟨fun t alive => ?_, fun t member => ?_, fun _ => ⟨s, by simp [World.logged]⟩⟩
      · simp [World.session?, World.logged, World.node?, World.freed] at alive
      · have entry : .release t ∈ u.log id ∨ t = s := by simpa [World.logged, World.freed, World.performed] using member
        rcases entry with old | rfl
        · exact owns.released t old
        · exact held
    have unlinks : Keeps (Owns id clientFd) (serverUnlinkSession id) :=
      keeps_unlink (fun _ _ same => owns_updateNode same) fun _ _ _ owns => ⟨owns.alive, owns.released, owns.somewhere⟩
    simp only [Ensures, deref, present]
    refine Keeps.ite (fun _ => .pure _) (fun _ => ?_) w owns
    exact .bind (owns_update fun _ => rfl) fun _ =>
      keeps_disposals owns_perform (fun side => owns_setInterest side none)
        (fun f same => owns_update fun s => (same s).1) s
        (unlinks.bind fun _ => ends)

theorem builds_owns : Builds id (Owns id clientFd) where
  counts := fun _ owns => ⟨owns.alive, owns.released, owns.somewhere⟩
  updates := fun _ builder => owns_update fun s => (builder s).1
  nodes := fun _ _ same => owns_updateNode same
  listed := fun _ _ _ owns => ⟨owns.alive, owns.released, owns.somewhere⟩
  watches := owns_setInterest
  closes := owns_close

/-! A property of the session itself, as long as it is there. -/

def About (id : SessionId) (holds : Session → Prop) (w : World) : Prop := ∀ s, w.session? id = some s → holds s

variable {holds next : Session → Prop}

theorem update_moves {f : Session → Session} {w : World} (moves : ∀ s, holds s → next (f s))
    (about : About id holds w) :
    Ensures (fun _ => About id holds) (update id f) (fun _ => About id next) w := by
  unfold Ensures update
  split
  next runs =>
    split at runs
    next s present =>
      obtain ⟨node, found, rfl⟩ : ∃ node, w.node? id = some node ∧ node.session = s := by
        simpa [World.session?] using present
      obtain ⟨-, rfl⟩ := Prod.mk.inj runs
      intro s alive
      have left : (w.put id (f node.session)).session? id = some (f node.session) := by
        simp [World.put, found, World.session?]
      obtain rfl : f node.session = s := Option.some.inj (left.symm.trans alive)
      exact moves _ (about _ present)
    next => cases runs
  next runs =>
    split at runs
    · cases runs
    · obtain ⟨-, rfl⟩ := Prod.mk.inj runs
      exact about

private theorem about_update {f : Session → Session} (kept : ∀ s, holds s → holds (f s)) :
    Keeps (About id holds) (update id f) :=
  fun _ about => update_moves kept about

private theorem about_updateNode {f : Node → Node} (same : ∀ node, (f node).session = node.session) :
    Keeps (About id holds) (updateNode other f) := by
  intro w about
  unfold Ensures updateNode
  split
  next runs =>
    split at runs
    next node found =>
      obtain ⟨-, rfl⟩ := Prod.mk.inj runs
      have sessions : (w.putNode other (f node)).session? id = w.session? id := by
        by_cases here : id = other
        · subst here
          simp [World.session?, found, same]
        · simp [World.session?, here]
      exact fun s alive => about s (sessions ▸ alive)
    next => cases runs
  next runs =>
    split at runs
    · cases runs
    · obtain ⟨-, rfl⟩ := Prod.mk.inj runs
      exact about

private theorem about_setInterest (side : Side) (events : Option Events) :
    Keeps (About id holds) (setInterest other side events) :=
  .change fun _ about => about

private theorem about_deref : Keeps (About id holds) (deref id) := by
  intro w about
  unfold Ensures deref
  split
  next runs =>
    split at runs
    · obtain ⟨-, rfl⟩ := Prod.mk.inj runs
      exact about
    · cases runs
  next runs =>
    split at runs
    · cases runs
    · obtain ⟨-, rfl⟩ := Prod.mk.inj runs
      exact about

private theorem about_freed : Keeps (About id holds) (change (·.freed id) : Proc Unit) :=
  .change fun w _ s alive => by simp [World.session?, World.node?, World.freed] at alive

private theorem about_perform (deed : Deed) : Keeps (About id holds) (perform deed) := .change fun _ about => about

/-- A session that is marked as released is let go behind the mark. -/
theorem about_close (released : ∀ s, s.closing = .released → holds s) : Keeps (About id holds) (sessionClose id) := by
  refine about_deref.bind fun s => .ite (fun _ => .pure _) fun _ => ?_
  intro w about
  have marks : Ensures (fun _ => About id holds)
      (update id fun s => { s with closing := .released }) (fun _ => About id fun s => s.closing = .released) w :=
    update_moves (fun _ _ => rfl) about
  refine Keeps.behind marks (fun _ => ?_) fun u marked s alive => released s (marked s alive)
  refine keeps_disposals about_perform (fun side => about_setInterest side none)
    (fun f same => about_update fun s marked => (same s).2.trans marked) s ?_
  exact .bind (keeps_unlink (fun _ _ same => about_updateNode same) fun _ _ _ about => about) fun _ =>
    .bind (keeps_free about_perform about_freed) fun _ => .change fun _ about => about

/-- What every builder keeps and every released session may break, the building keeps. -/
theorem builds_about (keeps : ∀ f, Builder f → ∀ s, holds s → holds (f s))
    (released : ∀ s, s.closing = .released → holds s) :
    Builds id (About id holds) where
  counts := fun _ about => about
  updates := fun f builder => about_update (keeps f builder)
  nodes := fun _ _ same => about_updateNode same
  listed := fun _ _ _ about => about
  watches := about_setInterest
  closes := about_close released

end Sockify.Proofs.Building
