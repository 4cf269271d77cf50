import Mathlib.Data.List.Nodup
import Sockify.Event.Kernel

/-! Whom the loops over `epoll` and `kqueue` call. A batch of events is a
snapshot: its pointers were good when the kernel was asked, and stay good as
long as no callback removes the descriptor of an event that is still to come. -/

namespace Sockify.Proofs.KernelDispatch
open Sockify Event SwapRemove

def owner (impl : KernelImpl) (id : SourceId) : Option Socket := (impl.heap id).map Source.fd

/-- The table holds the sources that are in memory, one for each descriptor. -/
structure Formed (impl : KernelImpl) : Prop where
  held : ∀ id, id ∈ impl.sources ↔ owner impl id ≠ none
  apart : ∀ first second fd, owner impl first = some fd → owner impl second = some fd → first = second
  fresh : ∀ id, owner impl id ≠ none → id < impl.nextId
  distinct : impl.sources.Nodup

/-- What an operation can do to a loop. -/
inductive Effect (impl : KernelImpl) : Operation → KernelImpl → Prop
  | kept {operation after} (sources : after.sources = impl.sources) (owners : ∀ id, owner after id = owner impl id)
      (nextId : after.nextId = impl.nextId) (absent : ∀ fd, operation = .remove fd → ∀ id, owner impl id ≠ some fd) :
      Effect impl operation after
  | added {after} (source : Source) (replies : Replies) (sources : after.sources = impl.sources ++ [impl.nextId])
      (heap : after.heap = Function.update impl.heap impl.nextId (some source))
      (nextId : after.nextId = impl.nextId + 1)
      (absent : ∀ id, owner impl id ≠ some source.fd) : Effect impl (.add source replies) after
  | removed {fd id front back after} (layout : impl.sources = front ++ id :: back) (held : owner impl id = some fd)
      (sources : after.sources = swapRemove impl.sources front.length)
      (heap : after.heap = Function.update impl.heap id none)
      (nextId : after.nextId = impl.nextId) : Effect impl (.remove fd) after

/-- Of the events of a batch, up to the one whose callback stops the loop, none
is for a descriptor that `past` or the callback of an earlier event removes. -/
def Undisturbed {ρ : Type} (fdOf : ρ → Option Socket) : List Operation → List (ρ × Reaction) → Prop
  | _, [] => True
  | past, (report, reaction) :: rest =>
    (∀ fd, fdOf report = some fd → .remove fd ∉ past) ∧
      (reaction.stops = true ∨ Undisturbed fdOf (past ++ reaction.operations) rest)

variable {impl after : KernelImpl} {id : SourceId} {fd : Socket} {operation : Operation}

theorem owner_none : owner impl id = none ↔ impl.heap id = none := by simp [owner]

theorem formed_create : Formed kernelCreate where
  held := by simp [kernelCreate, owner]
  apart := by simp [kernelCreate, owner]
  fresh := by simp [kernelCreate, owner]
  distinct := List.nodup_nil

/-- The search finds the one source that has the descriptor. -/
theorem kernelFind_some {place : Nat} (found : kernelFind impl fd = some place) :
    ∃ front id back, impl.sources = front ++ id :: back ∧ place = front.length ∧ owner impl id = some fd := by
  obtain ⟨inside, holds, -⟩ := List.findIdx?_eq_some_iff_getElem.mp found
  refine ⟨impl.sources.take place, impl.sources[place], impl.sources.drop (place + 1), ?_, ?_, ?_⟩
  · rw [List.getElem_cons_drop, List.take_append_drop]
  · rw [List.length_take, Nat.min_eq_left (Nat.le_of_lt inside)]
  · obtain ⟨source, present, same⟩ := (Option.any_eq_true _ _).mp holds
    rw [owner, present, Option.map_some, beq_iff_eq.mp same]

theorem kernelFind_none (formed : Formed impl) (missing : kernelFind impl fd = none) (id : SourceId) :
    owner impl id ≠ some fd := by
  intro held
  have member : id ∈ impl.sources := by
    rw [formed.held, held]
    simp
  have other := List.findIdx?_eq_none_iff.mp missing id member
  obtain ⟨source, present, same⟩ : ∃ source, impl.heap id = some source ∧ source.fd = fd := by simpa [owner] using held
  simp [present, same] at other

theorem sources_getD {front back : List SourceId} (layout : impl.sources = front ++ id :: back) :
    impl.sources.getD front.length 0 = id := by
  simp [layout]

theorem owner_setEvents (other : SourceId) (events : Events) :
    owner (kernelSetEvents impl id events) other = owner impl other := by
  by_cases same : other = id
  · subst same
    simp only [owner, kernelSetEvents, Function.update_self, Option.map_map]
    rfl
  · simp only [owner, kernelSetEvents, Function.update_of_ne same]

theorem kernelAdd_effect (formed : Formed impl) (source : Source) (replies : Replies)
    (grown allocated : Bool) (reply : Except Err Unit) :
    Effect impl (.add source replies) (kernelAdd impl source grown allocated reply).1 := by
  have unchanged : ∀ capacity, Effect impl (.add source replies) { impl with capacity := capacity } :=
    fun capacity => .kept rfl (fun _ => rfl) rfl nofun
  unfold kernelAdd
  split
  · exact unchanged impl.capacity
  next missing =>
    have absent := kernelFind_none formed missing
    have put : ∀ capacity, Effect impl (.add source replies) { impl with
        capacity := capacity
        sources := impl.sources ++ [impl.nextId]
        heap := Function.update impl.heap impl.nextId (some source)
        nextId := impl.nextId + 1 } := fun capacity => .added source replies rfl rfl rfl absent
    split
    · exact unchanged impl.capacity
    next larger growth =>
      obtain ⟨capacity, rfl⟩ : ∃ capacity, larger = { impl with capacity := capacity } := by
        unfold kernelGrow at growth
        split at growth
        · exact ⟨impl.capacity, (Except.ok.inj growth).symm⟩
        · split at growth
          · exact ⟨_, (Except.ok.inj growth).symm⟩
          · cases growth
      split
      · exact unchanged capacity
      · split
        · exact unchanged capacity
        · exact put capacity

private theorem kernelRemove_effect (formed : Formed impl) (fd : Socket) :
    Effect impl (.remove fd) (kernelRemove impl fd).1 := by
  unfold kernelRemove
  split
  next missing =>
    refine .kept rfl (fun _ => rfl) rfl fun other same id => ?_
    cases same
    exact kernelFind_none formed missing id
  next place found =>
    obtain ⟨front, id, back, layout, rfl, held⟩ := kernelFind_some found
    exact .removed layout held rfl (by simp only [kernelDrop, sources_getD layout]) rfl

theorem epollPerform_effect (formed : Formed impl) (operation : Operation) :
    Effect impl operation (epollPerform impl operation) := by
  cases operation with
  | add source replies => exact kernelAdd_effect formed source replies _ _ _
  | remove fd => exact kernelRemove_effect formed fd
  | modify fd events admitted =>
    simp only [epollPerform, epollModifyCommon]
    split
    · exact .kept rfl (fun _ => rfl) rfl nofun
    · exact .kept rfl (fun other => owner_setEvents other events) rfl nofun

theorem kqueuePerform_effect (formed : Formed impl) (operation : Operation) :
    Effect impl operation (kqueuePerform impl operation) := by
  cases operation with
  | add source replies => exact kernelAdd_effect formed source replies _ _ _
  | remove fd => exact kernelRemove_effect formed fd
  | modify fd events admitted =>
    simp only [kqueuePerform, kqueueModifyCommon]
    split
    · exact .kept rfl (fun _ => rfl) rfl nofun
    · split
      · exact .kept rfl (fun _ => rfl) rfl nofun
      · exact .kept rfl (fun other => owner_setEvents other events) rfl nofun

theorem Effect.owner (effect : Effect impl operation after) (formed : Formed impl) (old : id < impl.nextId) :
    owner after id = match operation with
      | .remove fd => if KernelDispatch.owner impl id = some fd then none else KernelDispatch.owner impl id
      | _ => KernelDispatch.owner impl id := by
  cases effect with
  | kept sources owners nextId absent =>
    rw [owners]
    cases operation with
    | remove fd => exact (if_neg (absent fd rfl id)).symm
    | _ => rfl
  | added source replies sources heap nextId absent =>
    simp only [KernelDispatch.owner, heap]
    rw [Function.update_of_ne (Nat.ne_of_lt old)]
  | @removed fd gone front back _ layout held sources heap nextId =>
    simp only
    split
    next same =>
      obtain rfl : id = gone := formed.apart id gone fd same held
      simp [KernelDispatch.owner, heap]
    next other =>
      have different : id ≠ gone := by
        rintro rfl
        exact other held
      simp only [KernelDispatch.owner, heap]
      rw [Function.update_of_ne different]

theorem Effect.formed (effect : Effect impl operation after) (formed : Formed impl) : Formed after := by
  cases effect with
  | kept sources owners nextId absent =>
    refine ⟨fun id => ?_, fun first second fd => ?_, fun id => ?_, sources ▸ formed.distinct⟩
    · rw [sources, owners]
      exact formed.held id
    · rw [owners, owners]
      exact formed.apart first second fd
    · rw [owners, nextId]
      exact formed.fresh id
  | added source replies sources heap nextId absent =>
    have own : KernelDispatch.owner after impl.nextId = some source.fd := by simp [KernelDispatch.owner, heap]
    have others : ∀ id, id ≠ impl.nextId → KernelDispatch.owner after id = KernelDispatch.owner impl id := by
      intro id different
      simp only [KernelDispatch.owner, heap]
      rw [Function.update_of_ne different]
    have unused : impl.nextId ∉ impl.sources := by
      rw [formed.held]
      exact fun present => Nat.lt_irrefl _ (formed.fresh _ present)
    refine ⟨fun id => ?_, fun first second fd => ?_, fun id present => ?_, ?_⟩
    · rw [sources, List.mem_append, List.mem_singleton]
      by_cases same : id = impl.nextId
      · simp [same, own]
      · rw [others id same, or_iff_left same]
        exact formed.held id
    · by_cases one : first = impl.nextId <;> by_cases two : second = impl.nextId
      · exact fun _ _ => one.trans two.symm
      · subst one
        rw [own, others second two]
        intro same held
        exact absurd (held.trans same.symm) (absent second)
      · subst two
        rw [own, others first one]
        intro held same
        exact absurd (held.trans same.symm) (absent first)
      · rw [others first one, others second two]
        exact formed.apart first second fd
    · rw [nextId]
      by_cases same : id = impl.nextId
      · rw [same]
        exact Nat.lt_succ_self _
      · rw [others id same] at present
        exact Nat.lt_succ_of_lt (formed.fresh id present)
    · rw [sources]
      simpa [List.nodup_append] using ⟨formed.distinct, fun id member same => unused (same ▸ member)⟩
  | @removed fd gone front back _ layout held sources heap nextId =>
    have own : KernelDispatch.owner after gone = none := by simp [KernelDispatch.owner, heap]
    have others : ∀ id, id ≠ gone → KernelDispatch.owner after id = KernelDispatch.owner impl id := by
      intro id different
      simp only [KernelDispatch.owner, heap]
      rw [Function.update_of_ne different]
    have shorter : List.Perm after.sources (front ++ back) := by
      rw [sources, layout]
      exact swapRemove_perm front back gone
    have distinct := formed.distinct
    rw [layout, List.nodup_middle, List.nodup_cons] at distinct
    refine ⟨fun id => ?_, fun first second fd one two => ?_, fun id present => ?_, shorter.nodup_iff.mpr distinct.2⟩
    · rw [shorter.mem_iff]
      by_cases same : id = gone
      · subst same
        simp [own, distinct.1]
      · rw [others id same, ← formed.held, layout]
        simp [same]
    · have alive : ∀ id, KernelDispatch.owner after id = some fd → id ≠ gone := by
        rintro _ present rfl
        rw [own] at present
        cases present
      rw [others first (alive first one)] at one
      rw [others second (alive second two)] at two
      exact formed.apart first second fd one two
    · have alive : id ≠ gone := fun same => present (same ▸ own)
      rw [nextId]
      rw [others id alive] at present
      exact formed.fresh id present

theorem Effect.nextId_le (effect : Effect impl operation after) : impl.nextId ≤ after.nextId := by
  cases effect with
  | kept _ _ nextId => exact Nat.le_of_eq nextId.symm
  | added _ _ _ _ nextId => exact nextId ▸ Nat.le_succ _
  | removed _ _ _ _ nextId => exact Nat.le_of_eq nextId.symm

section backend
variable {perform : KernelImpl → Operation → KernelImpl}
  (effects : ∀ {impl}, Formed impl → ∀ operation, Effect impl operation (perform impl operation))
include effects

private theorem operations_formed (operations : List Operation) (formed : Formed impl) :
    Formed (operations.foldl perform impl) := by
  induction operations generalizing impl with
  | nil => exact formed
  | cons operation rest ih => exact ih ((effects formed operation).formed formed)

/-- A source goes when its descriptor is removed, and does not come back. -/
theorem operations_owner (operations : List Operation) (formed : Formed impl) (old : id < impl.nextId) :
    owner (operations.foldl perform impl) id =
      if ∃ fd, owner impl id = some fd ∧ .remove fd ∈ operations then none else owner impl id := by
  induction operations generalizing impl with
  | nil => simp
  | cons operation rest ih =>
    have effect := effects formed operation
    have first := effect.owner formed old
    rw [List.foldl_cons, ih (effect.formed formed) (Nat.lt_of_lt_of_le old effect.nextId_le), first]
    cases operation with
    | add source replies => simp
    | modify fd events admitted => simp
    | remove fd =>
      by_cases same : owner impl id = some fd
      · simp [same]
      · simp only [if_neg same, List.mem_cons, Operation.remove.injEq]
        congr 1
        grind

private theorem operations_registered (operations : List Operation) (formed : Formed impl)
    (held : owner impl id = some fd) :
    id ∈ (operations.foldl perform impl).sources ↔ .remove fd ∉ operations := by
  have old : id < impl.nextId := formed.fresh id (by simp [held])
  rw [(operations_formed effects operations formed).held, operations_owner effects operations formed old]
  simp [held]

/-- What a batch calls is registered just when the batch is not disturbed. -/
theorem dispatch_registered {ρ : Type} {pointer : ρ → Option SourceId} {mask : ρ → Events}
    (formed : Formed impl) (past : List Operation) (batch : List (ρ × Reaction))
    (refers : ∀ entry ∈ batch, ∃ id ∈ impl.sources, pointer entry.1 = some id) :
    (∀ call ∈ kernelDispatch perform pointer mask (past.foldl perform impl) batch, call.source ∈ call.impl.sources) ↔
      Undisturbed (fun report => (pointer report).bind (owner impl)) past batch := by
  induction batch generalizing past with
  | nil => simp [kernelDispatch, Undisturbed]
  | cons entry rest ih =>
    obtain ⟨report, reaction⟩ := entry
    obtain ⟨id, member, points⟩ := refers (report, reaction) List.mem_cons_self
    obtain ⟨fd, held⟩ := Option.ne_none_iff_exists'.mp ((formed.held id).mp member)
    have known : ∀ other, (some id).bind (owner impl) = some other ↔ fd = other := by
      intro other
      rw [Option.bind_some, held, Option.some.injEq]
    have registered := operations_registered effects past formed held
    have later := ih (past ++ reaction.operations) fun other there => refers other (List.mem_cons_of_mem _ there)
    rw [List.foldl_append] at later
    simp only [kernelDispatch, points, Undisturbed, known, forall_eq', List.forall_mem_cons, registered]
    apply and_congr_right
    intro undisturbed
    have present : (past.foldl perform impl).heap id ≠ none := by
      rw [Ne, ← owner_none, ← Ne, ← (operations_formed effects past formed).held, registered]
      exact undisturbed
    cases stops : reaction.stops with
    | true => simp
    | false => simpa [present] using later

end backend

/-- Registrations in whatever order, and then any batch of events of registered
sources: every call is for a source that is registered at that moment if and
only if no callback removes the descriptor of an event that is still to come. -/
theorem batch_calls_registered (built : List Operation) :
    (∀ batch : List (EpollEvent × Reaction),
      (∀ entry ∈ batch, entry.1.ptr ∈ (built.foldl epollPerform kernelCreate).sources) →
      ((∀ call ∈ epollDispatch (built.foldl epollPerform kernelCreate) batch, call.source ∈ call.impl.sources) ↔
        Undisturbed (fun event => owner (built.foldl epollPerform kernelCreate) event.ptr) [] batch)) ∧
    (∀ batch : List (KEvent × Reaction),
      (∀ entry ∈ batch, ∃ id ∈ (built.foldl kqueuePerform kernelCreate).sources, entry.1.udata = some id) →
      ((∀ call ∈ kqueueDispatch (built.foldl kqueuePerform kernelCreate) batch, call.source ∈ call.impl.sources) ↔
        Undisturbed (fun event => event.udata.bind (owner (built.foldl kqueuePerform kernelCreate))) [] batch)) := by
  constructor
  · intro batch refers
    have formed := operations_formed epollPerform_effect built formed_create
    exact dispatch_registered epollPerform_effect formed [] batch fun entry member => ⟨_, refers entry member, rfl⟩
  · intro batch refers
    have formed := operations_formed kqueuePerform_effect built formed_create
    exact dispatch_registered kqueuePerform_effect formed [] batch refers

def paired : List Operation := [.add ⟨5, .reading, 1, 50⟩ .fine, .add ⟨7, .writing, 1, 70⟩ .fine]

/-- Both are ready; the first callback does what `operations` says. -/
def bothReady (operations : List Operation) : List (EpollEvent × Reaction) :=
  [(⟨true, false, false, false, 0⟩, ⟨operations, false⟩), (⟨false, true, false, false, 1⟩, ⟨[], false⟩)]

def bothFiltered (operations : List Operation) : List (KEvent × Reaction) :=
  [(⟨.read, false, some 0⟩, ⟨operations, false⟩), (⟨.write, false, some 1⟩, ⟨[], false⟩)]

theorem batch_calls_registered_modified :
    (∀ call ∈ epollDispatch (paired.foldl epollPerform kernelCreate) (bothReady [.modify 7 .both true]),
    call.source ∈ call.impl.sources) ∧
    ∀ call ∈ kqueueDispatch (paired.foldl kqueuePerform kernelCreate) (bothFiltered [.modify 7 .both true]),
      call.source ∈ call.impl.sources := by
  constructor
  · apply ((batch_calls_registered paired).1 (bothReady [.modify 7 .both true]) (by decide)).mpr
    simp [Undisturbed, bothReady]
  · apply ((batch_calls_registered paired).2 (bothFiltered [.modify 7 .both true]) (by decide)).mpr
    simp [Undisturbed, bothFiltered]

/-- The first callback releases the session, and with it both descriptors. -/
theorem batch_calls_freed :
    (∀ entry ∈ bothReady [.remove 5, .remove 7], entry.1.ptr ∈ (paired.foldl epollPerform kernelCreate).sources) ∧
    (¬ ∀ call ∈ epollDispatch (paired.foldl epollPerform kernelCreate) (bothReady [.remove 5, .remove 7]),
      call.source ∈ call.impl.sources) ∧
    (∀ entry ∈ bothFiltered [.remove 5, .remove 7],
      ∃ id ∈ (paired.foldl kqueuePerform kernelCreate).sources, entry.1.udata = some id) ∧
    ¬ ∀ call ∈ kqueueDispatch (paired.foldl kqueuePerform kernelCreate) (bothFiltered [.remove 5, .remove 7]),
      call.source ∈ call.impl.sources := by
  decide

end Sockify.Proofs.KernelDispatch
