import Sockify.Proofs.Registry

/-! Proof rules for the code that works on one session. A session's own part of
the world is all that this code changes while the session lives, so a
computation is followed on that part alone; once the session is released the
only thing left to happen is a lookup that fails. -/

namespace Sockify.Proofs.SessionLogic
open Sockify Stateful Registry

/-- The part of the world that belongs to one session, with the call count. -/
structure Own where
  session : Session
  log : List Io
  interest : Side → Option Events
  calls : Nat

structure Spot where
  world : World
  id : SessionId
  present : world.node? id ≠ none

/-- A session of a server whose list is well formed. -/
structure Site extends Spot where
  order : List SessionId
  linked : Linked world order

theorem Site.member (site : Site) : site.id ∈ site.order := site.linked.live site.id site.present

namespace Spot

variable (site : Spot)

def place (x : Own) : World :=
  { site.world.put site.id x.session with
    log := Function.update site.world.log site.id x.log
    interest := Function.update site.world.interest site.id x.interest
    calls := x.calls }

theorem node_place_self (x : Own) :
    ∃ node, site.world.node? site.id = some node ∧
    (site.place x).node? site.id = some { node with session := x.session } := by
  obtain ⟨node, present⟩ := Option.ne_none_iff_exists'.mp site.present
  refine ⟨node, present, ?_⟩
  change (site.world.put site.id x.session).node? site.id = _
  simp [World.put, present]

theorem node_place_other (x : Own) {other : SessionId} (different : other ≠ site.id) :
    (site.place x).node? other = site.world.node? other := by
  obtain ⟨node, present⟩ := Option.ne_none_iff_exists'.mp site.present
  change (site.world.put site.id x.session).node? other = _
  simp [World.put, present, different]

@[simp] theorem session_place_self (x : Own) : (site.place x).session? site.id = some x.session := by
  obtain ⟨node, -, placed⟩ := site.node_place_self x
  simp [World.session?, placed]

theorem session_place_other (x : Own) {other : SessionId} (different : other ≠ site.id) :
    (site.place x).session? other = site.world.session? other := by
  simp only [World.session?, site.node_place_other x different]

@[simp] theorem log_place_self (x : Own) : (site.place x).log site.id = x.log := by simp [place]

@[simp] theorem interest_place_self (x : Own) : (site.place x).interest site.id = x.interest := by simp [place]

@[simp] theorem calls_place (x : Own) : (site.place x).calls = x.calls := rfl

private theorem place_injective {x y : Own} (same : site.place x = site.place y) : x = y := by
  have session : x.session = y.session := by simpa using congrArg (fun w => w.session? site.id) same
  have log : x.log = y.log := by simpa using congrArg (fun w => w.log site.id) same
  have interest : x.interest = y.interest := by simpa using congrArg (fun w => w.interest site.id) same
  have calls : x.calls = y.calls := congrArg World.calls same
  cases x
  cases y
  simp_all

private theorem put_else (w : World) (id : SessionId) (s : Session) :
    (w.put id s).config = w.config ∧ (w.put id s).clientTlsContext = w.clientTlsContext ∧
    (w.put id s).targetTlsContext = w.targetTlsContext ∧ (w.put id s).nextId = w.nextId ∧
    (w.put id s).head = w.head ∧ (w.put id s).activeConnections = w.activeConnections := by
  unfold World.put
  split <;> simp [World.putNode]

@[simp] theorem config_place (x : Own) : (site.place x).config = site.world.config := (put_else _ _ _).1

@[simp] theorem clientContext_place (x : Own) : (site.place x).clientTlsContext = site.world.clientTlsContext :=
  (put_else _ _ _).2.1

@[simp] theorem targetContext_place (x : Own) : (site.place x).targetTlsContext = site.world.targetTlsContext :=
  (put_else _ _ _).2.2.1

theorem nextId_place (x : Own) : (site.place x).nextId = site.world.nextId := (put_else _ _ _).2.2.2.1

theorem place_registry (x : Own) :
    (site.place x).head = site.world.head ∧ (site.place x).activeConnections = site.world.activeConnections :=
  (put_else _ _ _).2.2.2.2

private theorem place_eq (x : Own) {node : Node} (present : site.world.node? site.id = some node) :
    site.place x = { site.world with
      sessions := site.world.sessions.insert site.id { node with session := x.session }
      log := Function.update site.world.log site.id x.log
      interest := Function.update site.world.interest site.id x.interest
      calls := x.calls } := by
  simp [place, World.put, present, World.putNode]

/-- The own part that the site's session has to begin with. -/
theorem place_own {s : Session} (present : site.world.session? site.id = some s) :
    site.place ⟨s, site.world.log site.id, site.world.interest site.id, site.world.calls⟩ = site.world := by
  obtain ⟨node, found⟩ := Option.ne_none_iff_exists'.mp site.present
  have same : node.session = s := by simpa [World.session?, found] using present
  rw [site.place_eq _ found]
  have kept : site.world.sessions.insert site.id { node with session := s } = site.world.sessions := by
    refine Finmap.ext_lookup fun other => ?_
    by_cases equal : other = site.id
    · subst equal
      rw [Finmap.lookup_insert, ← same]
      exact found.symm
    · exact Finmap.lookup_insert_of_ne _ equal
  simp [kept]

theorem put_place (x : Own) (t : Session) : (site.place x).put site.id t = site.place { x with session := t } := by
  obtain ⟨node, present, placed⟩ := site.node_place_self x
  rw [World.put, placed, site.place_eq _ present, site.place_eq _ present]
  simp [World.putNode]

theorem logged_place (x : Own) (io : Io) :
    (site.place x).logged site.id io = site.place { x with log := x.log ++ [io] } := by
  simp [World.logged, place]

theorem called_place (x : Own) : (site.place x).called = site.place { x with calls := x.calls + 1 } := rfl

theorem deeds_place (x : Own) : (site.place x).deeds = site.world.deeds := by
  unfold place World.put
  split <;> rfl

def did (deeds : List Deed) : Spot := { site with world := { site.world with deeds := site.world.deeds ++ deeds } }

@[simp] theorem did_nil : site.did [] = site := by simp [did]

theorem did_did (deeds more : List Deed) : (site.did deeds).did more = site.did (deeds ++ more) := by simp [did]

theorem did_place (x : Own) (deeds : List Deed) :
    (site.did deeds).place x = { site.place x with deeds := site.world.deeds ++ deeds } := by
  obtain ⟨node, present⟩ := Option.ne_none_iff_exists'.mp site.present
  have still : (site.did deeds).world.node? (site.did deeds).id = some node := present
  rw [place_eq _ _ present, place_eq _ _ still]
  rfl

private theorem performed_place (x : Own) (deed : Deed) :
    (site.place x).performed deed = (site.did [deed]).place { x with calls := x.calls + 1 } := by
  rw [did_place, World.performed, deeds_place]
  rfl

theorem withInterest_place (x : Own) (side : Side) (events : Option Events) :
    (site.place x).withInterest site.id side events =
      site.place { x with interest := Function.update x.interest side events } := by
  simp [World.withInterest, place]

end Spot

theorem Site.linked_place (site : Site) (x : Own) : Linked (site.place x) site.order := by
  refine site.linked.congr (site.place_registry x).1 (site.place_registry x).2 fun other => ?_
  by_cases same : other = site.id
  · obtain ⟨node, present, placed⟩ := site.node_place_self x
    simp [same, links, present, placed]
  · simp [links, site.node_place_other x same]

variable {site : Site} {α β : Type}

/-- The calls that `session_close` makes for a session in this state, in order,
before it frees the memory. -/
def sessionCloseCalls (s : Session) : List Disposal :=
  (if s.clientRegistered = true then [.remove s.clientFd] else []) ++
  (if s.targetRegistered = true then [.remove s.targetFd] else []) ++
  (if s.clientFd ≠ none then [.destroy s.clientTransport, .close s.clientFd] else []) ++
  (if s.targetFd ≠ none then [.destroy s.targetTransport, .close s.targetFd] else [])

/-- What `session_close` does for a session in this state. -/
def closeDeeds (id : SessionId) (s : Session) : List Deed := (sessionCloseCalls s).map (.dispose id) ++ freeDeeds id

structure Released (site : Site) (x : Own) (after : World) : Prop where
  gone : after.node? site.id = none
  sessions : ∀ other, other ≠ site.id → after.session? other = site.world.session? other
  log : after.log = Function.update site.world.log site.id (x.log ++ [.release x.session])
  interest : ∀ other, other ≠ site.id → after.interest other = site.world.interest other
  config : after.config = site.world.config
  contexts : after.clientTlsContext = site.world.clientTlsContext ∧ after.targetTlsContext = site.world.targetTlsContext
  nextId : after.nextId = site.world.nextId
  deeds : after.deeds = site.world.deeds ++ closeDeeds site.id x.session
  linked : Linked after (site.order.erase site.id)

section primitives
variable {site : Spot} {broken : Fault → World → Prop} {x : Own}

@[simp] theorem ensures_deref (post : Session → World → Prop) :
    Ensures broken (deref site.id) post (site.place x) ↔ post x.session (site.place x) := by
  simp [Ensures, deref]

@[simp] theorem ensures_update (f : Session → Session) (post : Unit → World → Prop) :
    Ensures broken (update site.id f) post (site.place x) ↔ post () (site.place { x with session := f x.session }) := by
  simp [Ensures, update, site.put_place]

@[simp] theorem ensures_record (io : Io) (post : Unit → World → Prop) :
    Ensures broken (record site.id io) post (site.place x) ↔ post () (site.place { x with log := x.log ++ [io] }) := by
  simp [record, site.logged_place]

@[simp] theorem ensures_nextCall (post : Nat → World → Prop) :
    Ensures broken nextCall post (site.place x) ↔ post x.calls (site.place { x with calls := x.calls + 1 }) := by
  rw [← site.called_place]
  exact Iff.rfl

@[simp] theorem ensures_setInterest (side : Side) (events : Option Events) (post : Unit → World → Prop) :
    Ensures broken (setInterest site.id side events) post (site.place x) ↔
      post () (site.place { x with interest := Function.update x.interest side events }) := by
  simp [setInterest, site.withInterest_place]

end primitives

/-- The program runs to its end on the session alone, and does this on the way. -/
def Does (id : SessionId) (deeds : List Deed) (program : Proc Unit) : Prop :=
  ∀ (site : Spot) (x : Own), site.id = id →
    ∃ y : Own, y.log = x.log ∧ program (site.place x) = (.ok (), (site.did deeds).place y)

namespace Does
variable {id : SessionId} {deeds more : List Deed} {first second : Proc Unit}

theorem perform (deed : Deed) : Does id [deed] (Sockify.perform deed) :=
  fun _ x _ => ⟨{ x with calls := x.calls + 1 }, rfl, Prod.ext rfl (Spot.performed_place _ x deed)⟩

theorem update (f : Session → Session) : Does id [] (Sockify.update id f) := by
  rintro site x rfl
  exact ⟨{ x with session := f x.session }, rfl, by simp [Sockify.update, site.put_place]⟩

theorem setInterest (side : Side) (events : Option Events) : Does id [] (Sockify.setInterest id side events) := by
  rintro site x rfl
  refine ⟨{ x with interest := Function.update x.interest side events }, rfl, ?_⟩
  simp [Sockify.setInterest, change, site.withInterest_place]

theorem sequence (one : Does id deeds first) (other : Does id more second) :
    Does id (deeds ++ more) (first >>= fun _ => second) := by
  intro site x here
  obtain ⟨y, same, runs⟩ := one site x here
  obtain ⟨z, still, ends⟩ := other (site.did deeds) y here
  refine ⟨z, still.trans same, ?_⟩
  rw [bind_ok runs, ends, Spot.did_did]

/-- What comes behind it starts with all of this done. -/
theorem behind {site : Spot} {x : Own} {done : List Deed} {next : Unit → Proc α}
    {post : α → World → Prop} {broken : Fault → World → Prop} (one : Does site.id more first)
    (rest : ∀ y : Own, y.log = x.log → Ensures broken (next ()) post ((site.did (done ++ more)).place y)) :
    Ensures broken (first >>= next) post ((site.did done).place x) := by
  obtain ⟨y, same, runs⟩ := one (site.did done) x rfl
  rw [Spot.did_did] at runs
  rw [ensures_bind]
  exact ensures_of_run runs (rest y same)

theorem onlyIf {condition : Prop} [Decidable condition] (inner : Does id deeds first) :
    Does id (if condition then deeds else []) (Stateful.onlyIf condition first) := by
  unfold Stateful.onlyIf
  split
  · exact inner
  · intro site x _
    exact ⟨x, rfl, by simp [Pure.pure]⟩

end Does

/-- Behind the calls to the other layers, closing a session is unlinking and freeing it. -/
theorem sessionClose_ensures (site : Spot) {broken : Fault → World → Prop} {x : Own}
    (left : World → Prop) (live : x.session.closing ≠ .released)
    (frees : ∀ y : Own, y.log = x.log → Ensures broken (do serverUnlinkSession site.id; sessionFree site.id)
      (fun _ => left) ((site.did ((sessionCloseCalls x.session).map (.dispose site.id))).place y)) :
    Ensures broken (sessionClose site.id)
      (fun _ after => ∃ middle, left middle ∧ after = middle.logged site.id (.release x.session)) (site.place x) := by
  have removes : ∀ (side : Side) fd f, Does site.id [.dispose site.id (.remove fd)] (do
      perform (.dispose site.id (.remove fd))
      setInterest site.id side none
      update site.id f) := fun _ _ f => .sequence (.perform _) (.sequence (.setInterest _ _) (.update f))
  have drops : ∀ transport fd f, Does site.id [.dispose site.id (.destroy transport), .dispose site.id (.close fd)] (do
      perform (.dispose site.id (.destroy transport))
      update site.id f
      perform (.dispose site.id (.close fd))) :=
        fun _ _ f => .sequence (.perform _) (.sequence (.update f) (.perform _))
  simp only [sessionCloseCalls, List.map_append, apply_ite (List.map _), List.map_cons, List.map_nil] at frees
  rw [sessionClose, ensures_bind, ensures_deref, if_neg live, ← site.did_nil]
  refine (Does.update _).behind fun u first => (Does.onlyIf (removes _ _ _)).behind fun v second => ?_
  refine (Does.onlyIf (removes _ _ _)).behind fun y third => (Does.onlyIf (drops _ _ _)).behind fun z fourth => ?_
  refine (Does.onlyIf (drops _ _ _)).behind fun last fifth => ?_
  simp only [List.nil_append]
  have freed := frees last (fifth.trans (fourth.trans (third.trans (second.trans first))))
  rw [ensures_bind] at freed ⊢
  refine freed.weaken (fun _ middle freed => ?_) fun _ _ stopped => stopped
  rw [ensures_bind]
  exact freed.weaken (fun _ final holds => ⟨final, holds, rfl⟩) fun _ _ stopped => stopped

/-- Releasing takes the session out of the map and the list, and records the
state in which it was found. -/
theorem sessionClose_releases (site : Site) {b : Fault → World → Prop} {x : Own}
    (live : x.session.closing ≠ .released) :
    Ensures b (sessionClose site.id) (fun _ after => Released site x after) (site.place x) := by
  obtain ⟨before, rest, order⟩ := List.append_of_mem site.member
  let later : Site := ⟨site.did ((sessionCloseCalls x.session).map (.dispose site.id)),
    site.order, site.linked.congr rfl rfl fun _ => rfl⟩
  refine (sessionClose_ensures site.toSpot (fun middle => ∃ y : Own, y.log = x.log ∧
    Unlinked (later.place y) site.id middle ∧ Linked middle (before ++ rest)) live fun y same => ?_).weaken ?_
      fun _ _ stopped => stopped
  · have linked : Linked (later.place y) (before ++ site.id :: rest) := order ▸ later.linked_place y
    exact (unlink_frees linked).weaken (fun _ middle left => ⟨y, same, left⟩) fun _ _ stopped => stopped
  · rintro _ _ ⟨middle, ⟨y, same, left, chain⟩, rfl⟩
    have distinct := site.linked.distinct
    have erased : site.order.erase site.id = before ++ rest := by
      rw [order] at distinct ⊢
      rw [List.erase_append_right _ (by simp [List.nodup_append] at distinct; grind), List.erase_cons_head]
    refine ⟨left.gone, ?_, ?_, ?_, ?_, ?_, ?_, ?_, ?_⟩
    · intro other different
      exact (left.sessions other different).trans (later.session_place_other y different)
    · have log : middle.log = Function.update site.world.log site.id x.log := by
        rw [left.log, ← same]
        rfl
      rw [World.logged, log, Function.update_self, Function.update_idem]
    · intro other different
      rw [World.logged, left.interest]
      exact Function.update_of_ne different _ _
    · exact left.config.trans (later.config_place y)
    · exact ⟨left.contexts.1.trans (later.clientContext_place y), left.contexts.2.trans (later.targetContext_place y)⟩
    · exact left.nextId.trans (later.nextId_place y)
    · refine left.deeds.trans ?_
      rw [later.deeds_place, closeDeeds, ← List.append_assoc]
      rfl
    · rw [erased]
      exact chain.congr rfl rfl fun _ => rfl

/-- Without its session, a computation does nothing but miss it. -/
def Inert (id : SessionId) (program : Proc α) : Prop :=
  ∀ w, w.node? id = none →
    Ensures (fun reason after => reason = .noSuchSession id ∧ after = w) program (fun _ after => after = w) w

namespace Inert
variable {id : SessionId}

theorem pure (value : α) : Inert id (Pure.pure value : Proc α) := fun _ _ => rfl

theorem bind {program : Proc α} {next : α → Proc β} (first : Inert id program) (rest : ∀ value, Inert id (next value)) :
    Inert id (program >>= next) := by
  intro w gone
  rw [ensures_bind]
  refine (first w gone).weaken ?_ fun _ _ stopped => stopped
  rintro value _ rfl
  exact rest value _ gone

theorem update (f : Session → Session) : Inert id (Sockify.update id f) := by
  intro w gone
  simp [Ensures, Sockify.update, World.session?, gone]

/-- Whatever comes behind a lookup is never reached. -/
theorem deref_bind (next : Session → Proc β) : Inert id (Sockify.deref id >>= next) := by
  intro w gone
  simp [Ensures, Bind.bind, Sockify.deref, World.session?, gone]

theorem sessionClose : Inert id (Sockify.sessionClose id) := deref_bind _

theorem ite {condition : Prop} [Decidable condition] {first second : Proc α} (yes : Inert id first)
    (no : Inert id second) :
    Inert id (if condition then first else second) := by
  split
  · exact yes
  · exact no

theorem onlyIf {condition : Prop} [Decidable condition] {program : Proc Unit} (inner : Inert id program) :
    Inert id (Stateful.onlyIf condition program) := ite inner (pure _)

end Inert

/-- Without its session, a computation stops on its first lookup. -/
def Misses (id : SessionId) (program : Proc α) : Prop :=
  ∀ w, w.node? id = none → program w = (.error (.noSuchSession id), w)

namespace Misses
variable {id : SessionId}

theorem deref_bind (next : Session → Proc β) : Misses id (Sockify.deref id >>= next) := by
  intro w gone
  simp [Bind.bind, Sockify.deref, World.session?, gone]

theorem ite {condition : Prop} [Decidable condition] {first second : Proc α} (yes : Misses id first)
    (no : Misses id second) :
    Misses id (if condition then first else second) := by
  split
  · exact yes
  · exact no

end Misses

/-- The program, started with the own part `x`, keeps the session and leaves it
in `alive`, or releases it in a state of `ended`. It stops on nothing but a
lookup of the session that it has released; `ended` is told whether it did. -/
def Yields (site : Site) (ended : Bool → Own → Prop) (program : Proc α) (alive : α → Own → Prop) (x : Own) : Prop :=
  Ensures (fun reason after => reason = .noSuchSession site.id ∧ ∃ y, ended true y ∧ Released site y after) program
    (fun value after => (∃ y, alive value y ∧ after = site.place y) ∨ ∃ y, ended false y ∧ Released site y after)
    (site.place x)

section rules
variable {ended : Bool → Own → Prop} {alive : β → Own → Prop} {x : Own}

theorem yields_pure {value : β} (holds : alive value x) : Yields site ended (pure value) alive x :=
  Or.inl ⟨x, holds, rfl⟩

theorem yields_deref (next : Session → Proc β) :
    Yields site ended (deref site.id >>= next) alive x ↔ Yields site ended (next x.session) alive x := by
  simp [Yields]

theorem yields_update (f : Session → Session) (next : Unit → Proc β) :
    Yields site ended (update site.id f >>= next) alive x ↔
      Yields site ended (next ()) alive { x with session := f x.session } := by
  simp [Yields]

theorem yields_record (io : Io) (next : Unit → Proc β) :
    Yields site ended (record site.id io >>= next) alive x ↔
      Yields site ended (next ()) alive { x with log := x.log ++ [io] } := by
  simp [Yields]

theorem yields_nextCall (next : Nat → Proc β) :
    Yields site ended (nextCall >>= next) alive x ↔
    Yields site ended (next x.calls) alive { x with calls := x.calls + 1 } := by
  simp [Yields]

theorem yields_setInterest (side : Side) (events : Option Events) (next : Unit → Proc β) :
    Yields site ended (setInterest site.id side events >>= next) alive x ↔
      Yields site ended (next ()) alive { x with interest := Function.update x.interest side events } := by
  simp [Yields]

theorem yields_config (next : Config → Proc β) :
    Yields site ended (inspect World.config >>= next) alive x ↔ Yields site ended (next site.world.config) alive x := by
  simp [Yields]

theorem yields_targetContext (next : Bool → Proc β) :
    Yields site ended (inspect World.targetTlsContext >>= next) alive x ↔
      Yields site ended (next site.world.targetTlsContext) alive x := by
  simp [Yields]

theorem yields_calls (next : Nat → Proc β) :
    Yields site ended (inspect World.calls >>= next) alive x ↔ Yields site ended (next x.calls) alive x := by
  simp [Yields]

theorem yields_pure_bind (value : α) (next : α → Proc β) :
    Yields site ended (pure value >>= next) alive x ↔ Yields site ended (next value) alive x := by
  simp [Yields]

theorem yields_bind_assoc {γ : Type} (program : Proc γ) (middle : γ → Proc α) (next : α → Proc β) :
    Yields site ended ((program >>= middle) >>= next) alive x ↔
      Yields site ended (program >>= fun value => middle value >>= next) alive x := by
  simp only [Yields, Ensures, bind]
  rcases program (site.place x) with ⟨_ | _, _⟩ <;> rfl

theorem yields_update_last {alive : Unit → Own → Prop} {f : Session → Session}
    (holds : alive () { x with session := f x.session }) :
    Yields site ended (update site.id f) alive x := by
  unfold Yields
  rw [ensures_update]
  exact .inl ⟨_, holds, rfl⟩

/-- A release in a state of `ended`. -/
theorem yields_close {alive : Unit → Own → Prop} (live : x.session.closing ≠ .released) (holds : ended false x) :
    Yields site ended (sessionClose site.id) alive x :=
  (sessionClose_releases site live).weaken (fun _ _ released => .inr ⟨x, holds, released⟩)
    fun _ _ (impossible : False) => impossible.elim

theorem Yields.weaken {program : Proc β} {ended' : Bool → Own → Prop} {alive' : β → Own → Prop}
    (holds : Yields site ended program alive x) (kept : ∀ value y, alive value y → alive' value y)
    (left : ∀ stopped y, ended stopped y → ended' stopped y) : Yields site ended' program alive' x := by
  refine Ensures.weaken holds ?_ ?_
  · rintro value after (⟨y, keeps, same⟩ | ⟨y, leaves, released⟩)
    · exact .inl ⟨y, kept value y keeps, same⟩
    · exact .inr ⟨y, left false y leaves, released⟩
  · rintro reason after ⟨missing, y, leaves, released⟩
    exact ⟨missing, y, left true y leaves, released⟩

/-- What two rules say of a session that the program keeps. -/
theorem Yields.and {program : Proc β} {ended' : Bool → Own → Prop} {alive' : β → Own → Prop}
    (first : Yields site ended program alive x) (second : Yields site ended' program alive' x) :
    Yields site ended program (fun value y => alive value y ∧ alive' value y) x := by
  unfold Yields Ensures at *
  generalize program (site.place x) = result at *
  obtain ⟨_ | value, after⟩ := result
  · exact first
  · rcases first with ⟨y, holds, rfl⟩ | released
    · rcases second with ⟨z, holds', same⟩ | ⟨z, -, released⟩
      · obtain rfl : y = z := site.place_injective same
        exact .inl ⟨y, ⟨holds, holds'⟩, rfl⟩
      · obtain ⟨node, -, present⟩ := site.node_place_self y
        cases present.symm.trans released.gone
    · exact .inr released

/-- Sequencing, where a release in the first part leaves the second one a dead
session. -/
theorem yields_bind {ended : Own → Prop} {program : Proc α} {next : α → Proc β} {m : α → Own → Prop}
    (first : Yields site (fun _ => ended) program m x)
    (rest : ∀ value y, m value y → Yields site (fun _ => ended) (next value) alive y)
    (inert : ∀ value, Inert site.id (next value)) : Yields site (fun _ => ended) (program >>= next) alive x := by
  unfold Yields at first ⊢
  rw [ensures_bind]
  refine first.weaken ?_ fun _ _ stopped => stopped
  rintro value after (⟨y, keeps, rfl⟩ | ⟨y, leaves, released⟩)
  · exact rest value y keeps
  · refine (inert value after released.gone).weaken ?_ ?_
    · rintro _ _ rfl
      exact .inr ⟨y, leaves, released⟩
    · rintro _ _ ⟨missing, rfl⟩
      exact ⟨missing, y, leaves, released⟩

/-- Sequencing, where a release in the first part makes the second one stop. -/
theorem yields_bind_misses {left : Own → Prop} {program : Proc α} {next : α → Proc β}
    {m : α → Own → Prop} (first : Yields site (fun _ => left) program m x)
    (rest : ∀ value y, m value y → Yields site ended (next value) alive y)
    (misses : ∀ value, Misses site.id (next value)) (stops : ∀ y, left y → ended true y) :
    Yields site ended (program >>= next) alive x := by
  unfold Yields at first ⊢
  rw [ensures_bind]
  refine first.weaken ?_ ?_
  · rintro value after (⟨y, keeps, rfl⟩ | ⟨y, leaves, released⟩)
    · exact rest value y keeps
    · unfold Ensures
      rw [misses value after released.gone]
      exact ⟨rfl, y, stops y leaves, released⟩
  · rintro reason after ⟨missing, y, leaves, released⟩
    exact ⟨missing, y, stops y leaves, released⟩

/-- Sequencing behind a part that stops when it has released the session. -/
theorem yields_bind_stops {lost : Bool → Own → Prop} {program : Proc α} {next : α → Proc β}
    {m : α → Own → Prop} (first : Yields site lost program m x)
    (rest : ∀ value y, m value y → Yields site ended (next value) alive y) (never : ∀ y, ¬ lost false y)
    (stops : ∀ y, lost true y → ended true y) : Yields site ended (program >>= next) alive x := by
  unfold Yields at first ⊢
  rw [ensures_bind]
  refine first.weaken ?_ ?_
  · rintro value after (⟨y, keeps, rfl⟩ | ⟨y, leaves, -⟩)
    · exact rest value y keeps
    · exact absurd leaves (never y)
  · rintro reason after ⟨missing, y, leaves, released⟩
    exact ⟨missing, y, stops y leaves, released⟩

/-- Sequencing behind a part that never releases the session. -/
theorem yields_bind_kept {program : Proc α} {next : α → Proc β} {m : α → Own → Prop}
    (first : Yields site (fun _ _ => False) program m x)
    (rest : ∀ value y, m value y → Yields site ended (next value) alive y) :
    Yields site ended (program >>= next) alive x :=
  yields_bind_stops first rest (fun _ impossible => impossible) fun _ impossible => impossible.elim

theorem yields_onlyIf {condition : Prop} [Decidable condition] {program : Proc Unit} {alive : Unit → Own → Prop}
    (yes : condition → Yields site ended program alive x) (no : ¬ condition → alive () x) :
    Yields site ended (onlyIf condition program) alive x := by
  unfold onlyIf
  split
  · exact yes ‹_›
  · exact yields_pure (no ‹_›)

end rules

end Sockify.Proofs.SessionLogic
