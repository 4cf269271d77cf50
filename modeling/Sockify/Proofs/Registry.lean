import Sockify.Server

/-! The live sessions form one doubly linked list. Releasing a session takes it
out of the list without looking up a session that is gone. -/

namespace Sockify.Proofs.Registry
open Sockify Stateful

variable {w : World} {id other : SessionId} {node : Node} {s t : Session} {io : Io} {side : Side}
  {events : Option Events}

/-! Lookups behind each primitive step. -/

@[simp] theorem node_putNode_self : (w.putNode id node).node? id = some node := by
  simp [World.putNode, World.node?]

@[simp] theorem node_putNode_other (different : other ≠ id) : (w.putNode id node).node? other = w.node? other := by
  simp [World.putNode, World.node?, different]

theorem node_putNode : (w.putNode id node).node? other = if other = id then some node else w.node? other := by
  by_cases same : other = id
  · rw [if_pos same, same, node_putNode_self]
  · rw [if_neg same, node_putNode_other same]

@[simp] theorem node_freed_self : (w.freed id).node? id = none := by
  simp [World.freed, World.node?]

@[simp] theorem node_freed_other (different : other ≠ id) : (w.freed id).node? other = w.node? other := by
  simp [World.freed, World.node?, different]

def links (w : World) (id : SessionId) : Option (Option SessionId × Option SessionId) :=
  (w.node? id).map fun node => (node.next, node.prev)

structure Linked (w : World) (order : List SessionId) : Prop where
  distinct : order.Nodup
  first : w.head = order.head?
  count : w.activeConnections = order.length
  live : ∀ id, w.node? id ≠ none → id ∈ order
  placed : ∀ before id after, order = before ++ id :: after → links w id = some (after.head?, before.getLast?)

theorem Linked.alive {order : List SessionId} (linked : Linked w order) (member : id ∈ order) : w.node? id ≠ none := by
  obtain ⟨before, after, layout⟩ := List.append_of_mem member
  intro gone
  have placed := linked.placed before id after layout
  simp [links, gone] at placed

/-- The list depends on the links and the counters alone. -/
theorem Linked.congr {after : World} {order : List SessionId} (linked : Linked w order)
    (sameHead : after.head = w.head) (sameCount : after.activeConnections = w.activeConnections)
    (sameLinks : ∀ id, links after id = links w id) : Linked after order := by
  refine ⟨linked.distinct, sameHead.trans linked.first, sameCount.trans linked.count, ?_, ?_⟩
  · intro id present
    refine linked.live id fun gone => present ?_
    have absent : links after id = none := by rw [sameLinks, links, gone]; rfl
    simpa [links] using absent
  · intro before id rest layout
    rw [sameLinks]
    exact linked.placed before id rest layout

theorem linked_serverInit (config : Config) : Linked (serverInit config) [] := by
  refine ⟨List.nodup_nil, rfl, rfl, ?_, ?_⟩
  · intro id present
    simp [World.node?, serverInit] at present
  · intro before id rest layout
    simp at layout

/-- The new neighbours of a session when the one between `before` and `after` goes. -/
def relink (before after : List SessionId) (id : SessionId) (old : Option SessionId × Option SessionId) :
    Option SessionId × Option SessionId :=
  (if before.getLast? = some id then after.head? else old.1, if after.head? = some id then before.getLast? else old.2)

private theorem relink_behind {before after pre rest : List SessionId} {x : SessionId} (absent : x ∉ before)
    (fresh : x ∉ pre) (layout : after = pre ++ x :: rest) :
    relink before after x (rest.head?, (before ++ id :: pre).getLast?) = (rest.head?, (before ++ pre).getLast?) := by
  have last : before.getLast? ≠ some x := fun same => absent (List.mem_of_getLast? same)
  simp only [relink, if_neg last, Prod.mk.injEq, true_and]
  cases pre with
  | nil => simp [layout]
  | cons y pre =>
    have other : y ≠ x := fun same => fresh (by simp [same])
    simp [layout, other, List.getLast?_append]

private theorem relink_ahead {before after pre rest : List SessionId} {x : SessionId} (absent : x ∉ after)
    (fresh : x ∉ rest) (layout : before = pre ++ x :: rest) :
    relink before after x ((rest ++ id :: after).head?, pre.getLast?) = ((rest ++ after).head?, pre.getLast?) := by
  have first : after.head? ≠ some x := fun same => absent (List.mem_of_mem_head? same)
  simp only [relink, if_neg first, Prod.mk.injEq, and_true]
  cases rest with
  | nil => simp [layout]
  | cons y rest =>
    have other : (y :: rest).getLast? ≠ some x := fun same => fresh (List.mem_of_getLast? same)
    simp only [layout, List.getLast?_append, List.getLast?_cons_cons, List.cons_append, List.head?_cons]
    rw [if_neg]
    intro same
    rw [List.getLast?_eq_some_getLast (List.cons_ne_nil y rest), Option.some_or] at same
    exact other (by rw [List.getLast?_eq_some_getLast (List.cons_ne_nil y rest)]; exact same)

/-- Taking a session out of the list leaves the list of the others. -/
theorem Linked.removed {before rest : List SessionId} {after : World}
    (linked : Linked w (before ++ id :: rest))
    (head : after.head = if before = [] then rest.head? else w.head)
    (count : after.activeConnections = w.activeConnections - 1) (gone : links after id = none)
    (others : ∀ x, x ≠ id → links after x = (links w x).map (relink before rest x)) :
    Linked after (before ++ rest) := by
  have distinct := linked.distinct
  refine ⟨?_, ?_, ?_, ?_, ?_⟩
  · exact distinct.sublist (List.Sublist.append_left (List.sublist_cons_self id rest) before)
  · rw [head]
    split
    next empty => simp [empty]
    next some_ => rw [linked.first, List.head?_append_of_ne_nil _ some_, List.head?_append_of_ne_nil _ some_]
  · rw [count, linked.count]
    simp
  · intro x present
    have different : x ≠ id := by
      rintro rfl
      simp [links] at gone
      exact present gone
    have was : w.node? x ≠ none := by
      intro absent
      have missing := others x different
      simp only [links, absent, Option.map_none] at missing
      exact present (by simpa using missing)
    have member := linked.live x was
    simp only [List.mem_append, List.mem_cons] at member ⊢
    tauto
  · intro pre x post layout
    have behind : ∀ front, pre = before ++ front →
        rest = front ++ x :: post → links after x = some (post.head?, pre.getLast?) := by
      rintro front rfl rfl
      have apart : x ≠ id ∧ x ∉ before ∧ x ∉ front := by simp [List.nodup_append] at distinct; grind
      rw [others x apart.1, linked.placed (before ++ id :: front) x post (by simp), Option.map_some,
        relink_behind apart.2.1 apart.2.2 rfl]
    rcases List.append_eq_append_iff.mp layout with ⟨front, shape, layout⟩ | ⟨front, shape, layout⟩
    · exact behind front shape layout
    · cases front with
      | nil => exact behind [] (by simpa using shape.symm) (by simpa using layout.symm)
      | cons y front =>
        obtain ⟨rfl, rfl⟩ : x = y ∧ post = front ++ rest := by simpa using layout
        subst shape
        have apart : x ≠ id ∧ x ∉ rest ∧ x ∉ front := by simp [List.nodup_append] at distinct; grind
        rw [others x apart.1, linked.placed pre x (front ++ id :: rest) (by simp), Option.map_some,
          relink_ahead apart.2.1 apart.2.2 rfl]

/-- A new session in front of the list. -/
theorem Linked.entered {order : List SessionId} {after : World} (linked : Linked w order)
    (fresh : w.node? id = none) (head : after.head = some id)
    (count : after.activeConnections = w.activeConnections + 1)
    (own : links after id = some (w.head, none))
    (others : ∀ x, x ≠ id → links after x = (links w x).map fun old =>
      (old.1, if w.head = some x then some id else old.2)) :
    Linked after (id :: order) := by
  have absent : id ∉ order := fun member => linked.alive member fresh
  refine ⟨List.nodup_cons.mpr ⟨absent, linked.distinct⟩, head, by rw [count, linked.count, List.length_cons], ?_, ?_⟩
  · intro x present
    by_cases same : x = id
    · exact same ▸ List.mem_cons_self
    · refine List.mem_cons_of_mem id (linked.live x fun gone => present ?_)
      have missing := others x same
      simpa [links, gone] using missing
  · intro before x rest layout
    cases before with
    | nil =>
      obtain ⟨rfl, rfl⟩ : id = x ∧ order = rest := by simpa using layout
      rw [own, linked.first]
      rfl
    | cons y before =>
      obtain ⟨rfl, shape⟩ : id = y ∧ order = before ++ x :: rest := by simpa using layout
      have different : x ≠ id := by
        rintro rfl
        exact absent (by simp [shape])
      rw [others x different, linked.placed before x rest shape, linked.first, shape]
      cases before with
      | nil => simp
      | cons z before =>
        have apart : z ≠ x := by
          have distinct := linked.distinct
          rw [shape] at distinct
          simp only [List.cons_append, List.nodup_cons, List.mem_append, List.mem_cons] at distinct
          rintro rfl
          exact distinct.1 (.inr (.inl rfl))
        simp [apart]

/-- What the calls of `free` leave in the record. -/
def freeDeeds (id : SessionId) : List Deed :=
  [.dispose id (.free .clientToTargetStorage),
    .dispose id (.free .targetToClientStorage), .dispose id (.free .clientOut),
    .lease (.give (.session id))]

structure Unlinked (w : World) (id : SessionId) (after : World) : Prop where
  gone : after.node? id = none
  sessions : ∀ other, other ≠ id → after.session? other = w.session? other
  log : after.log = w.log
  interest : after.interest = w.interest
  config : after.config = w.config
  contexts : after.clientTlsContext = w.clientTlsContext ∧ after.targetTlsContext = w.targetTlsContext
  nextId : after.nextId = w.nextId
  deeds : after.deeds = w.deeds ++ freeDeeds id

variable {broken : Fault → World → Prop}

theorem ensures_derefNode (post : Node → World → Prop) (present : w.node? id = some node) :
    Ensures broken (derefNode id) post w ↔ post node w := by
  simp [Ensures, derefNode, present]

theorem ensures_updateNode (f : Node → Node) (post : Unit → World → Prop) (present : w.node? id = some node) :
    Ensures broken (updateNode id f) post w ↔ post () (w.putNode id (f node)) := by
  simp [Ensures, updateNode, present]

/-- The world in which the node in front of a place, or the head, points elsewhere. -/
def withNext (w : World) (prev next : Option SessionId) : World :=
  match prev with
  | some prev => match w.node? prev with
    | some other => w.putNode prev { other with next := next }
    | none => w
  | none => { w with head := next }

def withPrev (w : World) (next prev : Option SessionId) : World :=
  match next with
  | some next => match w.node? next with
    | some other => w.putNode next { other with prev := prev }
    | none => w
  | none => w

private theorem node_withNext (prev next : Option SessionId) (x : SessionId) :
    (withNext w prev next).node? x =
      (w.node? x).map fun node => if prev = some x then { node with next := next } else node := by
  unfold withNext
  split
  next p =>
    split
    next other present =>
      rw [node_putNode]
      by_cases same : x = p
      · simp [same, present]
      · simp [same, Ne.symm same]
    next absent =>
      by_cases same : p = x
      · simp [← same, absent]
      · simp [same]
  next => simp [World.node?]

private theorem node_withPrev (next prev : Option SessionId) (x : SessionId) :
    (withPrev w next prev).node? x =
      (w.node? x).map fun node => if next = some x then { node with prev := prev } else node := by
  unfold withPrev
  split
  next n =>
    split
    next other present =>
      rw [node_putNode]
      by_cases same : x = n
      · simp [same, present]
      · simp [same, Ne.symm same]
    next absent =>
      by_cases same : n = x
      · simp [← same, absent]
      · simp [same]
  next => simp

private theorem withNext_else (prev next : Option SessionId) :
    (withNext w prev next).log = w.log ∧ (withNext w prev next).interest = w.interest ∧
    (withNext w prev next).config = w.config ∧ (withNext w prev next).clientTlsContext = w.clientTlsContext ∧
    (withNext w prev next).targetTlsContext = w.targetTlsContext ∧ (withNext w prev next).nextId = w.nextId ∧
    (withNext w prev next).deeds = w.deeds ∧ (withNext w prev next).activeConnections = w.activeConnections ∧
    (withNext w prev next).head = if prev = none then next else w.head := by
  unfold withNext
  repeat' split
  all_goals simp_all [World.putNode]

private theorem withPrev_else (next prev : Option SessionId) :
    (withPrev w next prev).log = w.log ∧ (withPrev w next prev).interest = w.interest ∧
    (withPrev w next prev).config = w.config ∧ (withPrev w next prev).clientTlsContext = w.clientTlsContext ∧
    (withPrev w next prev).targetTlsContext = w.targetTlsContext ∧ (withPrev w next prev).nextId = w.nextId ∧
    (withPrev w next prev).deeds = w.deeds ∧ (withPrev w next prev).activeConnections = w.activeConnections ∧
    (withPrev w next prev).head = w.head := by
  unfold withPrev
  repeat' split
  all_goals simp_all [World.putNode]

private theorem ensures_setNext (prev next : Option SessionId) (post : Unit → World → Prop)
    (present : ∀ x, prev = some x → w.node? x ≠ none) :
    Ensures broken (setNext prev next) post w ↔ post () (withNext w prev next) := by
  unfold setNext withNext
  split
  next p =>
    obtain ⟨node, found⟩ := Option.ne_none_iff_exists'.mp (present p rfl)
    simp [ensures_updateNode _ _ found, found]
  next => simp

private theorem ensures_setPrev (next prev : Option SessionId) (post : Unit → World → Prop)
    (present : ∀ x, next = some x → w.node? x ≠ none) :
    Ensures broken (setPrev next prev) post w ↔ post () (withPrev w next prev) := by
  unfold setPrev withPrev
  split
  next n =>
    obtain ⟨node, found⟩ := Option.ne_none_iff_exists'.mp (present n rfl)
    simp [ensures_updateNode _ _ found, found]
  next => simp

theorem unlink_frees {before rest : List SessionId} (linked : Linked w (before ++ id :: rest)) :
    Ensures broken (do serverUnlinkSession id; sessionFree id)
      (fun _ after => Unlinked w id after ∧ Linked after (before ++ rest)) w := by
  have placed := linked.placed before id rest rfl
  obtain ⟨node, present, neighbours⟩ : ∃ node, w.node? id = some node ∧
      (node.next, node.prev) = (rest.head?, before.getLast?) := by
    simpa [links] using placed
  obtain ⟨next, prev⟩ := Prod.mk.inj neighbours
  have attached : ¬ (node.prev = none ∧ w.head ≠ some id) := by
    rintro ⟨first, behind⟩
    rw [prev, List.getLast?_eq_none_iff] at first
    exact behind (by rw [linked.first, first]; rfl)
  simp only [serverUnlinkSession, ensures_bind, ensures_derefNode _ present, ensures_inspect, if_neg attached]
  have distinct := linked.distinct
  have notPrev : node.prev ≠ some id := by
    intro same
    have member := List.mem_of_getLast? (prev.symm.trans same)
    exact (List.disjoint_of_nodup_append distinct) member List.mem_cons_self
  have notNext : node.next ≠ some id := by
    intro same
    have member := List.mem_of_mem_head? (next.symm.trans same)
    simp [List.nodup_append, member] at distinct
  have ahead : ∀ x, node.prev = some x → w.node? x ≠ none := fun x same =>
    linked.alive (List.mem_append_left _ (List.mem_of_getLast? (prev.symm.trans same)))
  have behind : ∀ x, node.next = some x → (withNext w node.prev node.next).node? x ≠ none := by
    intro x same
    have alive := linked.alive
      (List.mem_append_right before (List.mem_cons_of_mem id (List.mem_of_mem_head? (next.symm.trans same))))
    simpa [node_withNext] using alive
  have still : (withPrev (withNext w node.prev node.next) node.next node.prev).node? id = some node := by
    simp [node_withPrev, node_withNext, present, notPrev, notNext]
  rw [ensures_setNext _ _ _ ahead,
    ensures_bind, ensures_setPrev _ _ _ behind, ensures_bind, ensures_updateNode _ _ still]
  simp only [sessionFree, perform, ensures_bind, ensures_change]
  obtain ⟨log, interest, config, client, target, nextId, deeds, count, head⟩ :=
    withPrev_else (w := withNext w node.prev node.next) node.next node.prev
  obtain ⟨log', interest', config', client', target', nextId', deeds', count', head'⟩ :=
    withNext_else (w := w) node.prev node.next
  have nodes : ∀ x, (withPrev (withNext w node.prev node.next) node.next node.prev).node? x =
      (w.node? x).map fun old => ⟨(relink before rest x (old.next, old.prev)).1,
          (relink before rest x (old.next, old.prev)).2, old.session⟩ := by
    intro x
    rw [node_withPrev, node_withNext, Option.map_map]
    congr 1
    funext old
    simp only [Function.comp, relink, next, prev]
    split <;> split <;> rfl
  generalize withPrev (withNext w node.prev node.next) node.next node.prev = last at *
  have final : ∀ u : World, u.sessions =
      (last.putNode id { node with prev := none, next := none }).sessions → ∀ x, x ≠ id →
      (u.freed id).node? x = last.node? x := by
    intro u same x different
    rw [node_freed_other different, World.node?, same]
    exact node_putNode_other different
  refine ⟨⟨node_freed_self, ?_, log.trans log', interest.trans interest', config.trans config',
    ⟨client.trans client', target.trans target'⟩, nextId.trans nextId', ?_⟩, linked.removed ?_ ?_ ?_ ?_⟩
  · intro x different
    rw [World.session?, final _ ?_ x different, nodes, World.session?, Option.map_map]
    · rfl
    · rfl
  · change (((last.deeds ++ [_]) ++ [_]) ++ [_]) ++ [_] = _
    rw [deeds, deeds']
    simp [freeDeeds]
  · change last.head = _
    rw [head, head', prev, next]
    simp only [List.getLast?_eq_none_iff]
  · change last.activeConnections - 1 = _
    rw [count, count']
  · simp [links]
  · intro x different
    rw [links, final _ ?_ x different, nodes, links, Option.map_map, Option.map_map]
    · rfl
    · rfl

end Sockify.Proofs.Registry
