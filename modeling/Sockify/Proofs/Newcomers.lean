import Sockify.Proofs.Building

/-! The sessions that an accept adds: what `session_create` makes sure of holds
of each of them when the listener is done. -/

namespace Sockify.Proofs.Newcomers
open Sockify Stateful Registry SessionLogic Creation Lifetimes Building

/-- The sessions that were not there in `w` are as `session_create` returned them. -/
structure Joined (config : Config) (fresh : Session → Prop) (w u : World) : Prop where
  later : Later config True w u
  joined : ∀ id s, u.session? id = some s → w.session? id = none → fresh s

/-- What `session_create` makes sure of, when it returns a session. -/
def Returned (fresh : Session → Prop) (id : SessionId) (created : Option SessionId) (after : World) : Prop :=
  created ≠ none → About id fresh after

variable {config : Config} {fresh : Session → Prop} {w u : World} {id : SessionId} {env : Env}

/-- Only what comes behind it matters. -/
theorem ensures_behind {α β : Type} {program : Proc α} {next : α → Proc β} {post : β → World → Prop}
    (rest : ∀ value u, Ensures (fun _ _ => True) (next value) post u) :
    Ensures (fun _ _ => True) (program >>= next) post w := by
  rw [ensures_bind]
  unfold Ensures
  split
  · exact rest _ _
  · trivial

theorem update_sets {f : Session → Session} (sets : ∀ s, fresh (f s)) :
    Ensures (fun _ _ => True) (update id f) (fun _ => About id fresh) w :=
  (update_moves (fun s _ => sets s) (fun _ _ => trivial : About id (fun _ => True) w)).weaken
    (fun _ _ about => about) fun _ _ _ => trivial

theorem gaveUp_returns : Ensures (fun _ _ => True) (do sessionClose id; pure none) (Returned fresh id) w :=
  ensures_behind fun _ _ asked => absurd rfl asked

private theorem sessionCreate_returns (sets : ∀ (id : SessionId) (clientFd : Socket) (u : World), u.config = config →
      Ensures (fun _ _ => True) (sessionSetUp env id clientFd) (Returned fresh id) u)
    (configured : w.config = config) (clientFd : Socket) :
    Ensures (fun _ _ => True) (sessionCreate env clientFd) (Returned fresh w.nextId) w := by
  simp only [sessionCreate, ensures_bind]
  change Ensures _ _ _ w.called
  split
  · exact fun asked => absurd rfl asked
  · rw [ensures_bind, ensures_alloc]
    exact sets _ clientFd _ configured

private theorem joined_create (sets : ∀ (id : SessionId) (clientFd : Socket) (u : World), u.config = config →
      Ensures (fun _ _ => True) (sessionSetUp env id clientFd) (Returned fresh id) u)
    (inv : Invariant config True w) (clientFd : Socket) (joined : Joined config fresh w u)
    (room : u.activeConnections < u.config.maxConnections) :
    Ensures (fun _ => Joined config fresh w) (sessionCreate env clientFd) (fun _ => Joined config fresh w) u := by
  have invariant := joined.later.invariant
  obtain ⟨order, linked⟩ := invariant.linked
  have creates : Ensures (fun _ _ => False) (sessionCreate env clientFd) (Made u) u :=
    sessionCreate_creates linked (invariant.fresh _ (Nat.le_refl _)).1
  have later := sessionCreate_later inv env clientFd joined.later (invariant.configured ▸ room)
  refine ((creates.both later).both (sessionCreate_returns sets invariant.configured clientFd)).weaken ?_
    fun _ _ stopped => stopped.1.1.elim
  rintro created after ⟨⟨made, later⟩, returned⟩
  refine ⟨later, fun id s present absent => ?_⟩
  unfold Made at made
  split at made
  · exact joined.joined id s (by rw [← present]; simp only [World.session?, made.nodes id]) absent
  next some_ =>
    by_cases own : id = u.nextId
    · exact returned some_ s (own ▸ present)
    · exact joined.joined id s ((made.sessions id own).symm.trans present) absent

theorem accept_joins (sets : ∀ (id : SessionId) (clientFd : Socket) (u : World), u.config = config →
      Ensures (fun _ _ => True) (sessionSetUp env id clientFd) (Returned fresh id) u)
    (events : Events) (inv : Invariant config True w) : Joined config fresh w (w.after env (.accept events)) := by
  have begun : Joined config fresh w w.begin :=
    ⟨⟨inv.counted 0, Advance.refl.counted 0⟩, fun id s present absent => by
      rw [show w.session? id = some s from present] at absent
      cases absent⟩
  have keeps : Keeps (Joined config fresh w) (listenerCallback env events) := by
    apply keeps_listenerCallback
    · exact fun u joined => ⟨⟨joined.later.invariant.counted _, joined.later.advance.counted _⟩, joined.joined⟩
    · exact fun clientFd u joined =>
        ⟨⟨joined.later.invariant.performed _, joined.later.advance.performed _⟩, joined.joined⟩
    · exact fun clientFd u joined room => joined_create sets inv clientFd joined room
  exact keeps.final begun

end Sockify.Proofs.Newcomers
