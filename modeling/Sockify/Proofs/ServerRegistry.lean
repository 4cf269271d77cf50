import Sockify.Proofs.Lifetimes

/-! The server's registry of sessions: whatever happens, its list is one well
formed doubly linked list of the live sessions, and its count is the list's
length. -/

namespace Sockify.Proofs.ServerRegistry
open Sockify Stateful Registry SessionLogic Creation Lifetimes

/-- A session that is closed before it is linked, in whatever state it was. -/
def sessionGiveUp (clientFd : Socket) (s : Session) : Proc Unit := do
  let id ← sessionAlloc clientFd
  update id fun _ => s
  sessionClose id

/-- What can happen to the registry: a callback of the event loop, and at any
time the release of a live session or of one that was never linked. -/
inductive Happens (w : World) : World → Prop
  | called (env : Env) (call : Call) (enabled : call.Enabled w) : Happens w (w.after env call)
  | closed (id : SessionId) (alive : w.node? id ≠ none) : Happens w (sessionClose id w).2
  | givenUp (clientFd : Socket) (s : Session) (live : s.closing ≠ .released) : Happens w (sessionGiveUp clientFd s w).2

def Mutual (w : World) : Prop :=
  (∀ first second, (∃ node, w.node? first = some node ∧ node.next = some second) ↔
    ∃ node, w.node? second = some node ∧ node.prev = some first) ∧
  ∀ id, w.head = some id → ∃ node, w.node? id = some node ∧ node.prev = none

/-- What a tick at the time `now` lets live. -/
def survives (w : World) (now : Int) (id : SessionId) : Bool :=
  (w.session? id).any fun s => !sessionIsExpired s w.config now

variable {config : Config} {w after : World} {order before rest : List SessionId} {id : SessionId}
  {s : Session} {env : Env} {now : Int}
variable {b : Fault → World → Prop}

private theorem linked_node {node : Node} (linked : Linked w (before ++ id :: rest))
    (present : w.node? id = some node) :
    node.next = rest.head? ∧ node.prev = before.getLast? := by
  have placed := linked.placed before id rest rfl
  simpa [links, present] using placed

private theorem linked_mutual (linked : Linked w order) : Mutual w := by
  refine ⟨fun first second => ⟨?_, ?_⟩, ?_⟩
  · intro ⟨node, present, next⟩
    obtain ⟨before, rest, rfl⟩ := List.append_of_mem (linked.live first (by simp [present]))
    rw [(linked_node linked present).1] at next
    obtain ⟨rest, rfl⟩ := List.head?_eq_some_iff.mp next
    have layout : before ++ first :: second :: rest = (before ++ [first]) ++ second :: rest := by simp
    have member : second ∈ before ++ first :: second :: rest := by simp
    obtain ⟨other, found⟩ := Option.ne_none_iff_exists'.mp (linked.alive member)
    rw [layout] at linked
    exact ⟨other, found, by simp [(linked_node linked found).2]⟩
  · intro ⟨node, present, prev⟩
    obtain ⟨before, rest, rfl⟩ := List.append_of_mem (linked.live second (by simp [present]))
    rw [(linked_node linked present).2] at prev
    obtain ⟨before, rfl⟩ := List.getLast?_eq_some_iff.mp prev
    have layout : before ++ [first] ++ second :: rest = before ++ first :: second :: rest := by simp
    have member : first ∈ before ++ [first] ++ second :: rest := by simp
    obtain ⟨other, found⟩ := Option.ne_none_iff_exists'.mp (linked.alive member)
    rw [layout] at linked
    exact ⟨other, found, by simp [(linked_node linked found).1]⟩
  · intro id head
    rw [linked.first] at head
    obtain ⟨rest, rfl⟩ := List.head?_eq_some_iff.mp head
    obtain ⟨node, found⟩ := Option.ne_none_iff_exists'.mp (linked.alive (List.mem_cons_self : id ∈ id :: rest))
    exact ⟨node, found, (linked_node (show Linked w ([] ++ id :: rest) from linked) found).2⟩

/-- There are at least as many sessions as the list is long. -/
theorem linked_length_le (linked : Linked w order) : order.length ≤ w.sessions.keys.card := by
  rw [← List.toFinset_card_of_nodup linked.distinct]
  apply Finset.card_le_card
  intro id member
  have alive := linked.alive (List.mem_toFinset.mp member)
  rw [Finmap.mem_keys]
  by_contra absent
  exact alive (Finmap.lookup_eq_none.mpr absent)

/-- What the release of one session leaves of the list and of the others. -/
structure Shortened (w : World) (id : SessionId) (order : List SessionId) (after : World) : Prop where
  linked : Linked after order
  others : ∀ other, other ≠ id → after.session? other = w.session? other
  config : after.config = w.config

private theorem sessionClose_shortens (linked : Linked w (before ++ id :: rest))
    (present : w.session? id = some s) (live : s.closing ≠ .released) :
    Ensures b (sessionClose id) (fun _ after => Shortened w id (before ++ rest) after) w := by
  let site : Site := ⟨⟨w, id, fun gone => by rw [session_none.mpr gone] at present; cases present⟩, _, linked⟩
  have closes := sessionClose_releases site (b := b) (x := ⟨s, w.log id, w.interest id, w.calls⟩) live
  rw [show site.place ⟨s, w.log id, w.interest id, w.calls⟩ = w from site.place_own present] at closes
  refine closes.weaken (fun _ after released => ?_) fun _ _ stopped => stopped
  have distinct : id ∉ before := by
    have apart := linked.distinct
    simp only [List.nodup_append, List.mem_cons] at apart
    exact fun member => apart.2.2 id member id (.inl rfl) rfl
  have erased : (before ++ id :: rest).erase id = before ++ rest := by
    rw [List.erase_append_right _ distinct, List.erase_cons_head]
  exact ⟨erased ▸ released.linked, released.sessions, released.config⟩

def Live (w : World) : Prop := ∀ id s, w.session? id = some s → s.closing ≠ .released

/-- A tick on its way: of the sessions of `w`, those of `kept` were let live and
those of `rest` are to be looked at. -/
structure Scanned (w : World) (kept rest : List SessionId) (u : World) : Prop where
  linked : Linked u (kept ++ rest)
  same : ∀ id ∈ kept ++ rest, u.session? id = w.session? id
  config : u.config = w.config

private theorem tickLoop_filters {u : World} {kept : List SessionId} {fuel : Nat} (live : Live w)
    (scanned : Scanned w kept rest u) (enough : rest.length ≤ fuel) :
    Ensures b (tickLoop now fuel rest.head?)
      (fun _ after => Scanned w (kept ++ rest.filter (survives w now)) [] after) u := by
  induction rest generalizing u kept fuel with
  | nil => simpa [tickLoop] using scanned
  | cons id rest ih =>
    cases fuel with
    | zero => simp at enough
    | succ fuel =>
      have enough : rest.length ≤ fuel := by simpa using enough
      have member : id ∈ kept ++ id :: rest := by simp
      obtain ⟨node, present⟩ := Option.ne_none_iff_exists'.mp (scanned.linked.alive member)
      have here : u.session? id = some node.session := by simp [World.session?, present]
      have before : w.session? id = some node.session := (scanned.same id member).symm.trans here
      have verdict : survives w now id = !sessionIsExpired node.session w.config now := by simp [survives, before]
      simp only [List.head?_cons, tickLoop, ensures_bind, ensures_derefNode _ present, ensures_inspect, ensures_onlyIf,
        (linked_node scanned.linked present).1, scanned.config]
      split
      next expired =>
        have doomed : survives w now id = false := by simp [verdict, expired]
        rw [List.filter_cons_of_neg (by simp [doomed])]
        refine (sessionClose_shortens scanned.linked here (live id _ before)).weaken ?_ fun _ _ stopped => stopped
        intro _ after shortened
        have distinct : id ∉ kept ++ rest := by
          have apart := scanned.linked.distinct
          rw [List.nodup_middle] at apart
          exact (List.nodup_cons.mp apart).1
        refine ih ⟨shortened.linked, ?_, shortened.config.trans scanned.config⟩ enough
        intro other there
        have different : other ≠ id := by
          rintro rfl
          exact distinct there
        rw [shortened.others other different]
        apply scanned.same
        simp only [List.mem_append, List.mem_cons] at there ⊢
        tauto
      next fresh =>
        have spared : survives w now id = true := by simp [verdict, fresh]
        rw [List.filter_cons_of_pos spared]
        have layout : kept ++ id :: rest = (kept ++ [id]) ++ rest := by simp
        have passed : Scanned w (kept ++ [id]) rest u :=
          ⟨layout ▸ scanned.linked, layout ▸ scanned.same, scanned.config⟩
        simpa using ih passed enough

/-- Without timeouts nothing expires. -/
theorem survives_untimed (linked : Linked w order)
    (untimed : w.config.handshakeTimeoutMs = 0 ∧ w.config.idleTimeoutMs = 0 ∧ w.config.connectTimeoutMs = 0) :
    order.filter (survives w now) = order := by
  rw [List.filter_eq_self]
  intro id member
  obtain ⟨node, present⟩ := Option.ne_none_iff_exists'.mp (linked.alive member)
  simp [survives, World.session?, present, sessionIsExpired, untimed.1, untimed.2.1, untimed.2.2]

theorem proxyTick_filters (live : Live w) (linked : Linked w order) :
    Ensures b (proxyTick env) (fun _ after => Scanned w (order.filter (survives w (env.time w.calls))) [] after) w := by
  have all : Scanned w [] order w := ⟨linked, fun _ _ => rfl, rfl⟩
  simp only [proxyTick, ensures_bind, ensures_inspect]
  split
  next empty =>
    rw [linked.first, List.head?_eq_none_iff] at empty
    subst empty
    exact all
  next =>
    split
    next untimed =>
      rw [survives_untimed linked untimed]
      exact ⟨by simpa using linked, fun _ _ => rfl, rfl⟩
    next =>
      simp only [ensures_bind, ensures_inspect]
      rw [linked.first]
      exact tickLoop_filters live all (linked_length_le linked)

theorem shutdownLoop_empties {fuel : Nat} (live : Live w) (linked : Linked w order) (enough : order.length ≤ fuel) :
    Ensures b (shutdownLoop fuel) (fun _ after => Linked after []) w := by
  induction order generalizing w fuel with
  | nil =>
    have empty : w.head = none := linked.first
    cases fuel <;> simpa [shutdownLoop, empty] using linked
  | cons id rest ih =>
    cases fuel with
    | zero => simp at enough
    | succ fuel =>
      have first : w.head = some id := linked.first
      obtain ⟨s, present⟩ : ∃ s, w.session? id = some s := by
        obtain ⟨node, found⟩ := Option.ne_none_iff_exists'.mp (linked.alive List.mem_cons_self)
        exact ⟨node.session, by simp [World.session?, found]⟩
      simp only [shutdownLoop, ensures_bind, ensures_inspect, first]
      refine (sessionClose_shortens (show Linked w ([] ++ id :: rest) from linked) present
        (live id s present)).weaken ?_ fun _ _ stopped => stopped
      intro _ after shortened
      refine ih ?_ shortened.linked (by simpa using enough)
      intro other t there
      by_cases same : other = id
      · have absent : id ∉ rest := (List.nodup_cons.mp linked.distinct).1
        have alive : after.node? other ≠ none := fun gone => by
          rw [session_none.mpr gone] at there
          cases there
        exact absurd (shortened.linked.live other alive) (same ▸ absent)
      · exact live other t ((shortened.others other same).symm.trans there)

private theorem sessionGiveUp_discards (linked : Linked w order) (fresh : w.node? w.nextId = none)
    (clientFd : Socket) (live : s.closing ≠ .released) :
    Ensures b (sessionGiveUp clientFd s) (fun _ after => Discarded w after) w := by
  simp only [sessionGiveUp, ensures_bind, ensures_alloc]
  have own : (draft w clientFd).world.session? (draft w clientFd).id =
      some { Session.zeroed with clientFd := some clientFd } := by
    simp [draft, World.session?, node_drafted]
  have silent : (draft w clientFd).world.log (draft w clientFd).id = w.log w.nextId := rfl
  change Ensures b (update (draft w clientFd).id _) _ (draft w clientFd).world
  rw [← (draft w clientFd).place_own own, ensures_update]
  exact sessionClose_discards linked fresh clientFd silent live

private theorem happens_later (inv : Invariant config True w) (happens : Happens w after) :
    Later config True w after := by
  cases happens with
  | called env call enabled => exact step_later inv enabled ⟨fun _ => trivial, fun _ _ _ _ _ _ => trivial⟩
  | closed id alive => exact Keeps.final (keeps_close inv id) (.refl inv)
  | givenUp clientFd s live =>
    obtain ⟨order, linked⟩ := inv.linked
    have discards := sessionGiveUp_discards (b := fun _ _ => False) linked (inv.fresh _ (Nat.le_refl _)).1 clientFd live
    obtain ⟨_, _, runs, discarded⟩ := discards.returns
    rw [runs]
    obtain ⟨invariant, advance⟩ := inv.discarded discarded
    exact ⟨invariant, advance⟩

private theorem happenings_invariant (run : Relation.ReflTransGen Happens (serverInit config) w) :
    Invariant config True w := by
  induction run with
  | refl => exact invariant_serverInit config True
  | tail _ step ih => exact (happens_later ih step).invariant

/-- The list of the live sessions after any history, and what a failed creation,
a tick and the shutdown make of it. -/
theorem registry_kept {config : Config} {w : World}
    (run : Relation.ReflTransGen Happens (serverInit config) w) :
    ∃ order, Linked w order ∧ Mutual w ∧
      w.activeConnections = order.length ∧ w.activeConnections ≤ config.maxConnections ∧
      (∀ env clientFd, ∃ created after, sessionCreate env clientFd w = (.ok created, after) ∧
        (created = none → Linked after order ∧
        after.activeConnections = w.activeConnections ∧ ∀ id, after.node? id = w.node? id)) ∧
      (∀ env, ∃ after, proxyTick env w = (.ok (), after) ∧
        Linked after (order.filter (survives w (env.time w.calls))) ∧
        ∀ id ∈ order.filter (survives w (env.time w.calls)), after.session? id = w.session? id) ∧
      ∃ after, proxyShutdown w = (.ok (), after) ∧
      after.head = none ∧ after.activeConnections = 0 ∧ ∀ id, after.node? id = none := by
  have inv := happenings_invariant run
  obtain ⟨order, linked⟩ := inv.linked
  have live : Live w := inv.live
  refine ⟨order, linked, linked_mutual linked, linked.count, inv.bounded, ?_, ?_, ?_⟩
  · intro env clientFd
    have creates : Ensures (fun _ _ => False) (sessionCreate env clientFd) (Made w) w :=
      sessionCreate_creates linked (inv.fresh _ (Nat.le_refl _)).1
    obtain ⟨created, after, runs, made⟩ := creates.returns
    refine ⟨created, after, runs, fun failed => ?_⟩
    rw [Made, if_pos failed] at made
    refine ⟨linked.congr made.registry.1 made.registry.2 fun id => ?_, made.registry.2, made.nodes⟩
    rw [links, links, made.nodes id]
  · intro env
    have filters : Ensures (fun _ _ => False) (proxyTick env) _ w := proxyTick_filters live linked
    obtain ⟨_, after, runs, scanned⟩ := filters.returns
    have list := scanned.linked
    have same := scanned.same
    rw [List.append_nil] at list same
    exact ⟨after, runs, list, same⟩
  · have empties : Ensures (fun _ _ => False) proxyShutdown (fun _ after => Linked after []) w := by
      simp only [proxyShutdown, ensures_bind, ensures_inspect]
      exact shutdownLoop_empties live linked (linked_length_le linked)
    obtain ⟨_, after, runs, empty⟩ := empties.returns
    refine ⟨after, runs, empty.first, empty.count, fun id => ?_⟩
    by_contra alive
    exact absurd (empty.live id alive) (by simp)

def crowded : World :=
  let first := connected (sampleConfig 64)
  let third := (first.after (.scripted [] true 0) (.accept .reading)).after (.scripted [] true 0) (.accept .reading)
  (sessionClose 1 (sessionGiveUp 9 Session.zeroed third).2).2

theorem registry_kept_crowded : crowded.activeConnections = 2 ∧
    (∃ order, Linked crowded order ∧ order.length = 2) ∧ (proxyShutdown crowded).2.activeConnections = 0 := by
  have run : Relation.ReflTransGen Happens (serverInit (sampleConfig 64)) crowded :=
    ((((Relation.ReflTransGen.refl.tail (.called (.scripted [] true 0) (.accept .reading) trivial)).tail
      (.called (.scripted [] true 0) (.accept .reading) trivial)).tail
      (.called (.scripted [] true 0) (.accept .reading) trivial)).tail
      (.givenUp 9 Session.zeroed (by decide))).tail (.closed 1 (by decide +kernel))
  have two : crowded.activeConnections = 2 := by decide +kernel
  obtain ⟨order, linked, -, count, -, -, -, after, runs, -, none, -⟩ := registry_kept run
  exact ⟨two, ⟨order, linked, count.symm.trans two⟩, by rw [runs, none]⟩

end Sockify.Proofs.ServerRegistry
