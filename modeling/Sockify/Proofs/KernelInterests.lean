import Sockify.Event.Interests
import Sockify.Proofs.KernelDispatch

/-! The registration tables beside the kernel's own. What a call does to the two
is the same for both backends; they differ in when a refused call leaves one of
them behind the other. -/

namespace Sockify.Proofs.KernelInterests
open Sockify Event SwapRemove KernelDispatch

def Registered (impl : KernelImpl) (id : SourceId) (source : Source) : Prop :=
  id ∈ impl.sources ∧ impl.heap id = some source

def descriptors (impl : KernelImpl) : List Socket := impl.sources.filterMap (owner impl)

def records (impl : KernelImpl) : List (Option Source) := impl.sources.map impl.heap

/-- Requests that name a descriptor which is there already, or not at all. -/
def Refused (impl : KernelImpl) : Request → Prop
  | .add source _ _ => source.fd ∈ descriptors impl
  | .modify fd _ | .remove fd => fd ∉ descriptors impl

/-- What a call must leave: one source for each descriptor, no trace of a refused
request or of a failure in the table, and a kernel that holds what is recorded. -/
structure Kept {κ : Type} (mirrors : KernelImpl → κ → Prop) (before : Loop κ) (request : Request)
    (after : Loop κ × Except Err Unit) : Prop where
  single : (descriptors after.1.impl).Nodup
  refused : Refused before.impl request → after = (before, .error .invalid)
  failed : after.2 ≠ .ok () → records after.1.impl = records before.impl
  mirrored : mirrors after.1.impl after.1.kernel

section Table
variable {impl : KernelImpl} {id other : SourceId} {fd : Socket} {source found : Source} {front back : List SourceId}

theorem Registered.owner (registered : Registered impl id source) : KernelDispatch.owner impl id = some source.fd := by
  rw [KernelDispatch.owner, registered.2, Option.map_some]

private theorem mem_descriptors : fd ∈ descriptors impl ↔ ∃ id source, Registered impl id source ∧ source.fd = fd := by
  rw [descriptors, List.mem_filterMap]
  constructor
  · rintro ⟨id, member, held⟩
    obtain ⟨source, present, same⟩ := Option.map_eq_some_iff.mp held
    exact ⟨id, source, ⟨member, present⟩, same⟩
  · rintro ⟨id, source, registered, rfl⟩
    exact ⟨id, registered.1, registered.owner⟩

theorem Registered.unique (registered : Registered impl id source) (formed : Formed impl)
    (also : Registered impl other found) (same : found.fd = source.fd) : other = id ∧ found = source := by
  obtain rfl := formed.apart other id source.fd (same ▸ also.owner) registered.owner
  exact ⟨rfl, Option.some.inj (also.2.symm.trans registered.2)⟩

theorem descriptors_nodup (formed : Formed impl) : (descriptors impl).Nodup := by
  apply formed.distinct.filterMap
  intro first second fd one two
  exact formed.apart first second fd one two

/-- The search for a descriptor that is not registered. -/
theorem find_none : kernelFind impl fd = none ↔ fd ∉ descriptors impl := by
  rw [kernelFind, List.findIdx?_eq_none_iff, mem_descriptors]
  constructor
  · rintro missing ⟨id, source, registered, rfl⟩
    have other := missing id registered.1
    simp [registered.2] at other
  · intro absent id member
    cases present : impl.heap id with
    | none => rfl
    | some source =>
      have different : source.fd ≠ fd := fun same => absent ⟨id, source, ⟨member, present⟩, same⟩
      simpa using different

/-- The search for a registered descriptor finds its source. -/
theorem find_some (inside : fd ∈ descriptors impl) :
    ∃ front id back source, kernelFind impl fd = some front.length ∧
    impl.sources = front ++ id :: back ∧
    impl.sources.getD front.length 0 = id ∧ Registered impl id source ∧ source.fd = fd := by
  cases search : kernelFind impl fd with
  | none => exact absurd inside (find_none.mp search)
  | some place =>
    obtain ⟨front, id, back, layout, rfl, held⟩ := kernelFind_some search
    obtain ⟨source, present, same⟩ := Option.map_eq_some_iff.mp held
    exact ⟨front, id, back, source, rfl, layout, sources_getD layout, ⟨by rw [layout]; simp, present⟩, same⟩

private theorem registered_place (formed : Formed impl) :
    Registered (kernelPlace impl source) other found ↔
    Registered impl other found ∨ other = impl.nextId ∧ found = source := by
  have unused : impl.nextId ∉ impl.sources := by
    intro member
    exact Nat.lt_irrefl _ (formed.fresh _ ((formed.held _).mp member))
  simp only [Registered, kernelPlace, List.mem_append, List.mem_singleton]
  by_cases same : other = impl.nextId
  · subst same
    simp [unused, eq_comm]
  · simp [same]

private theorem registered_setEvents {events : Events} (registered : Registered impl id source) :
    Registered (kernelSetEvents impl id events) other found ↔
      (other ≠ id ∧ Registered impl other found) ∨ (other = id ∧ found = { source with events := events }) := by
  simp only [Registered, kernelSetEvents]
  by_cases same : other = id
  · subst same
    simp [registered.1, registered.2, eq_comm]
  · simp [same]

private theorem registered_drop (layout : impl.sources = front ++ id :: back) :
    Registered (kernelDrop impl front.length) other found ↔ other ≠ id ∧ Registered impl other found := by
  have place : impl.sources.getD front.length 0 = id := sources_getD layout
  have shorter : (swapRemove impl.sources front.length).Perm (front ++ back) := by
    rw [layout]
    exact swapRemove_perm front back id
  simp only [Registered, kernelDrop, place, shorter.mem_iff]
  by_cases same : other = id
  · subst same
    simp
  · simp [same, layout]

/-- New events change the record of a source, unless they are the old ones. -/
theorem records_setEvents {events : Events} (registered : Registered impl id source) :
    records (kernelSetEvents impl id events) = records impl ↔ source.events = events := by
  constructor
  · intro same
    have entry := List.map_inj_left.mp same id registered.1
    simp only [kernelSetEvents, Function.update_self, registered.2, Option.map_some, Option.some.injEq] at entry
    rw [← entry]
  · rintro rfl
    have unchanged : kernelSetEvents impl id source.events = impl := by
      have heap : Function.update impl.heap id
          ((impl.heap id).map fun old => { old with events := source.events }) = impl.heap := by
        rw [registered.2, Option.map_some, ← registered.2, Function.update_eq_self]
      rw [kernelSetEvents, heap]
    rw [unchanged]

/-- A table that grows keeps its sources. -/
theorem kernelGrow_cases (impl : KernelImpl) (grown : Bool) :
    (kernelGrow impl grown = .error .nomem ∧ ¬ (impl.sources.length < impl.capacity ∨ grown = true)) ∨
      ∃ capacity, kernelGrow impl grown = .ok { impl with capacity := capacity } ∧
      (impl.sources.length < impl.capacity ∨ grown = true) := by
  rw [kernelGrow]
  by_cases room : impl.sources.length < impl.capacity
  · rw [if_pos room]
    exact .inr ⟨impl.capacity, rfl, .inl room⟩
  · rw [if_neg room]
    cases grown with
    | false => exact .inl ⟨rfl, by simp [room]⟩
    | true => exact .inr ⟨nextCapacity impl.capacity, rfl, .inr rfl⟩

end Table

section Mirror
variable {κ ι : Type} {held : κ → Socket → ι → SourceId → Prop} {wants : Events → ι → Prop}

/-- The kernel holds what the sources of the table want, under their pointers,
and nothing else. -/
def Mirrors (held : κ → Socket → ι → SourceId → Prop) (wants : Events → ι → Prop) (impl : KernelImpl)
    (kernel : κ) : Prop :=
  ∀ fd interest id, held kernel fd interest id ↔
    ∃ source, Registered impl id source ∧ source.fd = fd ∧ wants source.events interest

variable {impl : KernelImpl} {kernel after : κ} {id : SourceId} {source : Source} {fd : Socket}
  {interest : ι} {front back : List SourceId}

/-- The kernel holds nothing for a descriptor outside the table. -/
theorem Mirrors.absent (mirrors : Mirrors held wants impl kernel) (absent : fd ∉ descriptors impl) :
    ¬ held kernel fd interest id := by
  intro holds
  obtain ⟨source, registered, same, -⟩ := (mirrors fd interest id).mp holds
  exact absent (mem_descriptors.mpr ⟨id, source, registered, same⟩)

/-- What it holds for a descriptor of the table. -/
theorem Mirrors.present (mirrors : Mirrors held wants impl kernel) (formed : Formed impl)
    (registered : Registered impl id source) {other : SourceId} :
    held kernel source.fd interest other ↔ other = id ∧ wants source.events interest := by
  rw [mirrors]
  constructor
  · rintro ⟨found, also, same, wanted⟩
    obtain ⟨rfl, rfl⟩ := registered.unique formed also same
    exact ⟨rfl, wanted⟩
  · rintro ⟨rfl, wanted⟩
    exact ⟨source, registered, rfl, wanted⟩

private theorem mirrors_place (mirrors : Mirrors held wants impl kernel) (formed : Formed impl)
    (asked : ∀ fd interest id, held after fd interest id ↔
      if fd = source.fd then id = impl.nextId ∧ wants source.events interest else held kernel fd interest id)
    (absent : source.fd ∉ descriptors impl) : Mirrors held wants (kernelPlace impl source) after := by
  intro fd interest id
  rw [asked]
  simp only [registered_place formed]
  by_cases same : fd = source.fd
  · subst same
    rw [if_pos rfl]
    constructor
    · rintro ⟨rfl, wanted⟩
      exact ⟨source, .inr ⟨rfl, rfl⟩, rfl, wanted⟩
    · rintro ⟨found, registered | ⟨rfl, rfl⟩, same, wanted⟩
      · exact absurd (mem_descriptors.mpr ⟨id, found, registered, same⟩) absent
      · exact ⟨rfl, wanted⟩
  · rw [if_neg same, mirrors]
    constructor
    · rintro ⟨found, registered, owns, wanted⟩
      exact ⟨found, .inl registered, owns, wanted⟩
    · rintro ⟨found, registered | ⟨rfl, rfl⟩, owns, wanted⟩
      · exact ⟨found, registered, owns, wanted⟩
      · exact absurd owns.symm same

private theorem mirrors_setEvents {events : Events} (mirrors : Mirrors held wants impl kernel)
    (formed : Formed impl) (registered : Registered impl id source)
    (asked : ∀ fd interest other, held after fd interest other ↔
      if fd = source.fd then other = id ∧ wants events interest else held kernel fd interest other) :
    Mirrors held wants (kernelSetEvents impl id events) after := by
  intro fd interest other
  rw [asked]
  simp only [registered_setEvents registered]
  by_cases same : fd = source.fd
  · subst same
    rw [if_pos rfl]
    constructor
    · rintro ⟨rfl, wanted⟩
      exact ⟨_, .inr ⟨rfl, rfl⟩, rfl, wanted⟩
    · rintro ⟨found, ⟨different, also⟩ | ⟨rfl, rfl⟩, owns, wanted⟩
      · exact absurd (registered.unique formed also owns).1 different
      · exact ⟨rfl, wanted⟩
  · rw [if_neg same, mirrors]
    constructor
    · rintro ⟨found, also, owns, wanted⟩
      refine ⟨found, .inl ⟨?_, also⟩, owns, wanted⟩
      rintro rfl
      rw [Option.some.inj (also.2.symm.trans registered.2)] at owns
      exact same owns.symm
    · rintro ⟨found, ⟨-, also⟩ | ⟨rfl, rfl⟩, owns, wanted⟩
      · exact ⟨found, also, owns, wanted⟩
      · exact absurd owns.symm same

private theorem mirrors_drop (mirrors : Mirrors held wants impl kernel) (formed : Formed impl)
    (registered : Registered impl id source) (layout : impl.sources = front ++ id :: back)
    (asked : ∀ fd interest other, held after fd interest other ↔ fd ≠ source.fd ∧ held kernel fd interest other) :
    Mirrors held wants (kernelDrop impl front.length) after := by
  intro fd interest other
  rw [asked]
  simp only [registered_drop layout]
  rw [mirrors]
  constructor
  · rintro ⟨different, found, also, owns, wanted⟩
    refine ⟨found, ⟨?_, also⟩, owns, wanted⟩
    rintro rfl
    rw [Option.some.inj (also.2.symm.trans registered.2)] at owns
    exact different owns.symm
  · rintro ⟨found, ⟨different, also⟩, owns, wanted⟩
    refine ⟨?_, found, also, owns, wanted⟩
    rintro rfl
    exact different (registered.unique formed also owns).1

/-- A call that changes neither the table nor the kernel. -/
theorem kept_same {loop : Loop κ} {request : Request} {error : Err} {mirrors : KernelImpl → κ → Prop}
    (formed : Formed loop.impl) (mirrored : mirrors loop.impl loop.kernel)
    (invalid : Refused loop.impl request → error = .invalid) :
    Kept mirrors loop request (loop, .error error) where
  single := descriptors_nodup formed
  refused := fun refused => by rw [invalid refused]
  failed := fun _ => rfl
  mirrored := mirrored

end Mirror

section Runs
variable {κ α : Type} (call : Loop κ → Request → α → Loop κ × Except Err Unit) (mirrors : KernelImpl → κ → Prop)
  (spares : KernelImpl → Request → α → Prop)

def Holds : Loop κ → List (Request × α) → Prop
  | _, [] => True
  | loop, (request, answer) :: rest =>
    Kept mirrors loop request (call loop request answer) ∧ Holds (call loop request answer).1 rest

def Meets : Loop κ → List (Request × α) → Prop
  | _, [] => True
  | loop, (request, answer) :: rest => spares loop.impl request answer ∧ Meets (call loop request answer).1 rest

variable {call mirrors spares}

private theorem holds_iff (stays : ∀ loop request answer, Formed loop.impl → Formed (call loop request answer).1.impl)
    (step : ∀ loop request answer, Formed loop.impl → mirrors loop.impl loop.kernel →
      (Kept mirrors loop request (call loop request answer) ↔ spares loop.impl request answer))
    (run : List (Request × α)) (loop : Loop κ) (formed : Formed loop.impl) (mirrored : mirrors loop.impl loop.kernel) :
    Holds call mirrors loop run ↔ Meets call spares loop run := by
  induction run generalizing loop with
  | nil => exact Iff.rfl
  | cons first rest ih =>
    obtain ⟨request, answer⟩ := first
    rw [Holds, Meets, ← step loop request answer formed mirrored]
    constructor
    · rintro ⟨kept, later⟩
      exact ⟨kept, (ih _ (stays loop request answer formed) kept.mirrored).mp later⟩
    · rintro ⟨kept, later⟩
      exact ⟨kept, (ih _ (stays loop request answer formed) kept.mirrored).mpr later⟩

end Runs

section Tables
variable {impl : KernelImpl} {id : SourceId} {source : Source} {front back : List SourceId}

theorem formed_capacity (formed : Formed impl) (capacity : Nat) : Formed { impl with capacity := capacity } :=
  ⟨formed.held, formed.apart, formed.fresh, formed.distinct⟩

theorem formed_setEvents (formed : Formed impl) (id : SourceId) (events : Events) :
    Formed (kernelSetEvents impl id events) := by
  have effect : Effect impl (.modify 0 events true) (kernelSetEvents impl id events) :=
    .kept rfl (fun other => owner_setEvents other events) rfl nofun
  exact effect.formed formed

theorem formed_drop (formed : Formed impl) (registered : Registered impl id source)
    (layout : impl.sources = front ++ id :: back) :
    Formed (kernelDrop impl front.length) := by
  have heap : (kernelDrop impl front.length).heap = Function.update impl.heap id none := by
    simp only [kernelDrop, sources_getD layout]
  have effect : Effect impl (.remove source.fd) (kernelDrop impl front.length) :=
    .removed layout registered.owner rfl heap rfl
  exact effect.formed formed

end Tables

section Adding
variable {κ ι : Type} {held : κ → Socket → ι → SourceId → Prop} {wants : Events → ι → Prop}
  {loop : Loop κ} {source : Source}
  {grown allocated : Bool} (ask : κ → SourceId → κ × Except Err Unit)

/-- An addition gets as far as the kernel. -/
def Asks (impl : KernelImpl) (source : Source) (grown allocated : Bool) : Prop :=
  source.fd ∉ descriptors impl ∧ (impl.sources.length < impl.capacity ∨ grown = true) ∧ allocated = true

/-- Then the table may have grown, and the kernel's answer decides. -/
theorem addCommon_asks (asks : Asks loop.impl source grown allocated) :
    ∃ capacity, addCommon ask loop source grown allocated =
    match ask loop.kernel loop.impl.nextId with
      | (kernel, .error error) => (⟨{ loop.impl with capacity := capacity }, kernel⟩, .error error)
      | (kernel, .ok ()) => (⟨kernelPlace { loop.impl with capacity := capacity } source, kernel⟩, .ok ()) := by
  obtain ⟨absent, room, rfl⟩ := asks
  rcases kernelGrow_cases loop.impl grown with ⟨-, full⟩ | ⟨capacity, growth, -⟩
  · exact absurd room full
  · refine ⟨capacity, ?_⟩
    rw [addCommon, find_none.mpr absent]
    simp only [growth]
    rfl

/-- Otherwise the table keeps its sources and the kernel is not asked. -/
theorem addCommon_stops (stops : ¬ Asks loop.impl source grown allocated) : ∃ capacity error,
    addCommon ask loop source grown allocated = (⟨{ loop.impl with capacity := capacity }, loop.kernel⟩, .error error) ∧
      (source.fd ∈ descriptors loop.impl → capacity = loop.impl.capacity ∧ error = .invalid) := by
  by_cases inside : source.fd ∈ descriptors loop.impl
  · obtain ⟨front, id, back, found, search, -⟩ := find_some inside
    refine ⟨loop.impl.capacity, .invalid, ?_, fun _ => ⟨rfl, rfl⟩⟩
    rw [addCommon, search]
  · rcases kernelGrow_cases loop.impl grown with ⟨growth, -⟩ | ⟨capacity, growth, room⟩
    · refine ⟨loop.impl.capacity, .nomem, ?_, fun member => absurd member inside⟩
      rw [addCommon, find_none.mpr inside]
      simp only [growth]
    · have unallocated : allocated = false := by
        cases allocated with
        | false => rfl
        | true => exact absurd ⟨inside, room, rfl⟩ stops
      refine ⟨capacity, .nomem, ?_, fun member => absurd member inside⟩
      rw [addCommon, find_none.mpr inside]
      simp only [growth, unallocated]
      rfl

/-- The table of an addition, by what the kernel would answer. -/
theorem addCommon_table (answer : Except Err Unit)
    (same : answer = .ok () ↔ (ask loop.kernel loop.impl.nextId).2 = .ok ()) :
    (addCommon ask loop source grown allocated).1.impl = (kernelAdd loop.impl source grown allocated answer).1 := by
  rw [addCommon, kernelAdd]
  cases kernelFind loop.impl source.fd with
  | some place => rfl
  | none =>
    rcases kernelGrow_cases loop.impl grown with ⟨growth, -⟩ | ⟨capacity, growth, -⟩
    · simp only [growth]
    · simp only [growth]
      cases allocated with
      | false => rfl
      | true =>
        generalize ask loop.kernel loop.impl.nextId = asked at same ⊢
        obtain ⟨kernel, _ | _⟩ := asked <;> cases answer
        · rfl
        · cases same.mp rfl
        · cases same.mpr rfl
        · rfl

/-- An addition is right when the kernel, if it is asked, holds afterwards what it
has granted and nothing of what it has refused. -/
theorem addCommon_kept (formed : Formed loop.impl) (mirrored : Mirrors held wants loop.impl loop.kernel)
    (asked : Asks loop.impl source grown allocated → match ask loop.kernel loop.impl.nextId with
      | (kernel, .error _) => Mirrors held wants loop.impl kernel
      | (kernel, .ok ()) => ∀ fd interest id, held kernel fd interest id ↔
        if fd = source.fd then id = loop.impl.nextId ∧ wants source.events interest
        else held loop.kernel fd interest id) :
    Kept (Mirrors held wants) loop (.add source grown allocated) (addCommon ask loop source grown allocated) := by
  have whole : Formed (addCommon ask loop source grown allocated).1.impl := by
    rw [addCommon_table ask (ask loop.kernel loop.impl.nextId).2 Iff.rfl]
    exact (kernelAdd_effect formed source .fine grown allocated _).formed formed
  by_cases asks : Asks loop.impl source grown allocated
  · have answered := asked asks
    obtain ⟨capacity, shape⟩ := addCommon_asks ask asks
    have larger := formed_capacity formed capacity
    refine ⟨descriptors_nodup whole, fun present => absurd present asks.1, ?_, ?_⟩
    · rw [shape]
      split
      · exact fun _ => rfl
      · exact fun failed => absurd rfl failed
    · rw [shape]
      split
      next kernel error answer =>
        rw [answer] at answered
        exact answered
      next kernel answer =>
        rw [answer] at answered
        have same : Mirrors held wants { loop.impl with capacity := capacity } loop.kernel := mirrored
        exact mirrors_place same larger answered asks.1
  · obtain ⟨capacity, error, shape, present⟩ := addCommon_stops ask asks
    rw [shape] at whole ⊢
    refine ⟨descriptors_nodup whole, ?_, fun _ => rfl, mirrored⟩
    intro inside
    obtain ⟨rfl, rfl⟩ := present inside
    rfl

end Adding

section Epoll
variable {loop : Loop EpollSet} {set : EpollSet} {op : EpollCtl} {fd : Socket} {events : Events}
  {id : SourceId} {admitted : Bool}

/-- What the epoll set holds for a descriptor: one interest, under one pointer. -/
def EpollHolds (set : EpollSet) (fd : Socket) (interest : Events) (id : SourceId) : Prop := set fd = some (interest, id)

abbrev EpollMirrors : KernelImpl → EpollSet → Prop :=
  Mirrors EpollHolds (fun events interest => interest = toEpollEvents events)

/-- The calls that an epoll loop survives a refusal of: a modification that
changes nothing, and a removal of nothing. -/
def EpollSpares (impl : KernelImpl) : Request → Bool → Prop
  | .add .., _ => True
  | .modify fd events, admitted =>
    admitted = true ∨ ∀ id source, Registered impl id source → source.fd = fd → source.events = events
  | .remove fd, admitted => admitted = true ∨ fd ∉ descriptors impl

theorem epollCtl_admitted (sound : op = .add ↔ set fd = none) : epollCtl set op fd events id true =
    (Function.update set fd (if op = .delete then none else some (toEpollEvents events, id)), .ok ()) := by
  rw [epollCtl, if_neg]
  rintro (refused | wrong)
  · cases refused
  · rw [sound] at wrong
    by_cases absent : set fd = none
    · exact (wrong.mp absent) absent
    · exact absent (wrong.mpr absent)

private theorem epollCtl_refused : epollCtl set op fd events id false = (set, .error .sys) := by
  rw [epollCtl, if_pos (.inl rfl)]

/-- The entry of a descriptor after it was written. -/
theorem epollHolds_update (interest : Events) (other : SourceId) (name : Socket) :
    EpollHolds (Function.update set fd (some (toEpollEvents events, id))) name interest other ↔
      if name = fd then other = id ∧ interest = toEpollEvents events else EpollHolds set name interest other := by
  rw [EpollHolds, EpollHolds]
  by_cases same : name = fd
  · subst same
    rw [Function.update_self, if_pos rfl, Option.some.injEq, Prod.mk.injEq]
    constructor <;> rintro ⟨rfl, rfl⟩ <;> exact ⟨rfl, rfl⟩
  · rw [Function.update_of_ne same, if_neg same]

theorem epoll_unheld (mirrored : EpollMirrors loop.impl loop.kernel)
    (absent : fd ∉ descriptors loop.impl) : loop.kernel fd = none := by
  cases entry : loop.kernel fd with
  | none => rfl
  | some held => exact absurd entry (mirrored.absent absent)

theorem epoll_held {source : Source} (mirrored : EpollMirrors loop.impl loop.kernel) (formed : Formed loop.impl)
    (registered : Registered loop.impl id source) : loop.kernel source.fd = some (toEpollEvents source.events, id) :=
  (mirrored.present formed registered).mpr ⟨rfl, rfl⟩

private theorem epollAdd_kept {source : Source} {grown allocated : Bool} (formed : Formed loop.impl)
    (mirrored : EpollMirrors loop.impl loop.kernel) :
    Kept EpollMirrors loop (.add source grown allocated) (epollAdd loop source grown allocated admitted) := by
  apply addCommon_kept _ formed mirrored
  intro asks
  have absent := epoll_unheld mirrored asks.1
  cases admitted with
  | false =>
    rw [epollCtl_refused]
    exact mirrored
  | true =>
    rw [epollCtl_admitted (by simp [absent])]
    intro name interest other
    exact epollHolds_update interest other name

/-- A modification is right when the kernel follows, or has nothing to follow. -/
theorem epollModify_kept (formed : Formed loop.impl) (mirrored : EpollMirrors loop.impl loop.kernel) :
    Kept EpollMirrors loop (.modify fd events) (epollModify loop fd events admitted) ↔
    EpollSpares loop.impl (.modify fd events) admitted := by
  by_cases inside : fd ∈ descriptors loop.impl
  · obtain ⟨front, id, back, source, search, layout, place, registered, rfl⟩ := find_some inside
    have whole := formed_setEvents formed id events
    simp only [epollModify, search, place]
    cases admitted with
    | true =>
      have present := epoll_held mirrored formed registered
      rw [epollCtl_admitted (by simp [present])]
      refine ⟨fun _ => .inl rfl, fun _ =>
        ⟨descriptors_nodup whole, fun refused => absurd inside refused, fun failed => absurd rfl failed, ?_⟩⟩
      apply mirrors_setEvents mirrored formed registered
      intro name interest other
      exact epollHolds_update interest other name
    | false =>
      rw [epollCtl_refused]
      constructor
      · intro kept
        refine .inr ?_
        intro other found also same
        rw [(registered.unique formed also same).2]
        exact (records_setEvents registered).mp (kept.failed nofun)
      · rintro (admitted | spared)
        · cases admitted
        · have same := spared id source registered rfl
          have records := (records_setEvents registered).mpr same
          refine ⟨descriptors_nodup whole, fun refused => absurd inside refused, fun _ => records, ?_⟩
          apply mirrors_setEvents mirrored formed registered
          intro name interest other
          by_cases here : name = source.fd
          · rw [if_pos here, here, mirrored.present formed registered, same]
          · rw [if_neg here]
  · simp only [epollModify, find_none.mpr inside]
    refine ⟨fun _ => .inr ?_, fun _ => kept_same formed mirrored fun _ => rfl⟩
    intro id source registered same
    exact absurd (mem_descriptors.mpr ⟨id, source, registered, same⟩) inside

/-- A removal is right when the kernel lets go. -/
theorem epollRemove_kept (formed : Formed loop.impl) (mirrored : EpollMirrors loop.impl loop.kernel) :
    Kept EpollMirrors loop (.remove fd) (epollRemove loop fd admitted) ↔
    EpollSpares loop.impl (.remove fd) admitted := by
  by_cases inside : fd ∈ descriptors loop.impl
  · obtain ⟨front, id, back, source, search, layout, place, registered, rfl⟩ := find_some inside
    have whole := formed_drop formed registered layout
    have present := epoll_held mirrored formed registered
    simp only [epollRemove, search]
    cases admitted with
    | true =>
      rw [epollCtl_admitted (by simp [present])]
      refine ⟨fun _ => .inl rfl, fun _ =>
        ⟨descriptors_nodup whole, fun refused => absurd inside refused, fun failed => absurd rfl failed, ?_⟩⟩
      apply mirrors_drop mirrored formed registered layout
      intro name interest other
      rw [EpollHolds, EpollHolds]
      by_cases same : name = source.fd
      · subst same
        simp
      · simp [same]
    | false =>
      rw [epollCtl_refused]
      refine ⟨?_, fun spared => absurd inside (spared.resolve_left nofun)⟩
      intro kept
      obtain ⟨found, also, same, -⟩ := (kept.mirrored source.fd _ id).mp present
      exact absurd rfl ((registered_drop layout).mp also).1
  · simp only [epollRemove, find_none.mpr inside]
    exact ⟨fun _ => .inr inside, fun _ => kept_same formed mirrored fun _ => rfl⟩

/-- The table follows the model without the kernel's own. -/
theorem epollCall_table (loop : Loop EpollSet) (request : Request) (admitted : Bool) : ∃ answer,
    (epollCall loop request admitted).1.impl = epollPerform loop.impl (request.operation answer) := by
  cases request with
  | add source grown allocated =>
    let asked := epollCtl loop.kernel .add source.fd source.events loop.impl.nextId admitted
    refine ⟨decide (asked.2 = .ok ()), addCommon_table _ _ ?_⟩
    by_cases ok : asked.2 = .ok () <;> simp [ok, asked]
  | modify fd events =>
    refine ⟨true, ?_⟩
    simp only [epollCall, epollModify, Request.operation, epollPerform, epollModifyCommon]
    cases kernelFind loop.impl fd <;> rfl
  | remove fd =>
    refine ⟨true, ?_⟩
    simp only [epollCall, epollRemove, Request.operation, epollPerform, kernelRemove, kernelDrop]
    cases kernelFind loop.impl fd <;> rfl

private theorem epollCall_formed (request : Request) (formed : Formed loop.impl) :
    Formed (epollCall loop request admitted).1.impl := by
  obtain ⟨answer, same⟩ := epollCall_table loop request admitted
  rw [same]
  exact (epollPerform_effect formed _).formed formed

theorem epollCall_kept (request : Request) (formed : Formed loop.impl) (mirrored : EpollMirrors loop.impl loop.kernel) :
    Kept EpollMirrors loop request (epollCall loop request admitted) ↔ EpollSpares loop.impl request admitted := by
  cases request with
  | add source grown allocated => exact ⟨fun _ => trivial, fun _ => epollAdd_kept formed mirrored⟩
  | modify fd events => exact epollModify_kept formed mirrored
  | remove fd => exact epollRemove_kept formed mirrored

end Epoll

section Kqueue
variable {loop : Loop FilterSet} {set : FilterSet} {fd : Socket} {events oldEvents : Events}
  {id : SourceId} {admitted : Filter → Bool}
  {source : Source} {filter : Filter} {rest : List Change} {grown allocated : Bool}

/-- What the queue holds for a descriptor: a pointer for each filter. -/
def KqueueHolds (set : FilterSet) (fd : Socket) (filter : Filter) (id : SourceId) : Prop := set fd filter = some id

abbrev KqueueMirrors : KernelImpl → FilterSet → Prop :=
  Mirrors KqueueHolds (fun events filter => hasFilter events filter = true)

/-- The calls that a kqueue loop survives a refusal of: additions and
modifications are not refused between their two changes, and removals not at all. -/
def KqueueSpares (impl : KernelImpl) : Request → (Filter → Bool) → Prop
  | .add source grown allocated, admitted =>
  Asks impl source grown allocated → source.events.read = true → source.events.write = true →
      admitted .read = true → admitted .write = true
  | .modify fd events, admitted =>
    ∀ id source, Registered impl id source → source.fd = fd → source.events.read ≠ events.read →
      source.events.write ≠ events.write → admitted .read = true → admitted .write = true
  | .remove fd, admitted =>
    ∀ id source, Registered impl id source → source.fd = fd → ∀ filter, hasFilter source.events filter = true →
      admitted filter = true

def entry (events : Events) (id : SourceId) (filter : Filter) : Option SourceId :=
  if hasFilter events filter then some id else none

/-- One filter set to what the events ask for. -/
def settle (set : FilterSet) (fd : Socket) (id : SourceId) (events : Events) (filter : Filter) : FilterSet :=
  Function.update set fd (Function.update (set fd) filter (entry events id filter))

private theorem settle_same (here : set fd filter = entry events id filter) : settle set fd id events filter = set := by
  rw [settle, ← here, Function.update_eq_self, Function.update_eq_self]

private theorem settle_other {name : Socket} (different : name ≠ fd) :
    settle set fd id events filter name = set name := by
  rw [settle, Function.update_of_ne different]

theorem settle_self : settle set fd id events filter fd = Function.update (set fd) filter (entry events id filter) := by
  rw [settle, Function.update_self]

/-- A filter is changed, or its change is refused and ends the list. -/
theorem kevent_change (here : set fd filter = entry oldEvents id filter) :
    kevent set fd id admitted (filterChange oldEvents events filter ++ rest) =
      if hasFilter oldEvents filter = hasFilter events filter ∨ admitted filter = true then
        kevent (settle set fd id events filter) fd id admitted rest
      else (set, .error .sys) := by
  cases before : hasFilter oldEvents filter <;> cases after : hasFilter events filter
  · have same : set fd filter = entry events id filter := by rw [here, entry, entry, before, after]
    rw [if_pos (.inl rfl), settle_same same]
    simp [filterChange, before, after]
  · cases admits : admitted filter
    · rw [if_neg (by simp)]
      simp [filterChange, before, after, kevent, admits]
    · rw [if_pos (.inr rfl)]
      simp [filterChange, before, after, kevent, admits, settle, entry]
  · have present : set fd filter = some id := by rw [here, entry, before, if_pos rfl]
    cases admits : admitted filter
    · rw [if_neg (by simp)]
      simp [filterChange, before, after, kevent, admits]
    · rw [if_pos (.inr rfl)]
      simp [filterChange, before, after, kevent, admits, settle, entry, present]
  · have same : set fd filter = entry events id filter := by rw [here, entry, entry, before, after]
    rw [if_pos (.inl rfl), settle_same same]
    simp [filterChange, before, after]

def settled (set : FilterSet) (fd : Socket) (id : SourceId) (events : Events) : FilterSet :=
  settle (settle set fd id events .read) fd id events .write

private theorem settled_holds (here : ∀ filter, set fd filter = entry oldEvents id filter)
    (name : Socket) (filter : Filter) (other : SourceId) :
    KqueueHolds (settled set fd id events) name filter other ↔
      if name = fd then other = id ∧ hasFilter events filter = true else KqueueHolds set name filter other := by
  rw [KqueueHolds, KqueueHolds]
  by_cases same : name = fd
  · subst same
    have value : settled set name id events name filter = entry events id filter := by
      rw [settled, settle_self, settle_self]
      cases filter with
      | read => rfl
      | write => rfl
      | other => exact here .other
    rw [if_pos rfl, value, entry]
    cases hasFilter events filter <;> simp [eq_comm]
  · rw [if_neg same, settled, settle_other same, settle_other same]

/-- What `update_filters` does: everything, nothing, or only the first change. -/
inductive Updated (set : FilterSet) (fd : Socket) (id : SourceId) (oldEvents events : Events)
    (admitted : Filter → Bool) :
    FilterSet × Except Err Unit → Prop
  | done : Updated set fd id oldEvents events admitted (settled set fd id events, .ok ())
  | refused : Updated set fd id oldEvents events admitted (set, .error .sys)
  | half (read : oldEvents.read ≠ events.read) (write : oldEvents.write ≠ events.write) (first : admitted .read = true)
      (second : admitted .write = false) :
      Updated set fd id oldEvents events admitted (settle set fd id events .read, .error .sys)

private theorem kqueueUpdateFilters_updated (here : ∀ filter, set fd filter = entry oldEvents id filter) :
    Updated set fd id oldEvents events admitted (kqueueUpdateFilters set fd id oldEvents events admitted) := by
  have there : settle set fd id events .read fd .write = entry oldEvents id .write := by
    rw [settle_self, Function.update_of_ne (by decide), here]
  rw [kqueueUpdateFilters, kevent_change (here .read),
    ← List.append_nil (filterChange oldEvents events .write), kevent_change there]
  by_cases read : hasFilter oldEvents .read = hasFilter events .read ∨ admitted .read = true
  · rw [if_pos read]
    by_cases write : hasFilter oldEvents .write = hasFilter events .write ∨ admitted .write = true
    · rw [if_pos write]
      exact .done
    · rw [if_neg write]
      obtain ⟨differs, second⟩ := not_or.mp write
      by_cases same : hasFilter oldEvents .read = hasFilter events .read
      · have kept : set fd .read = entry events id .read := by rw [here, entry, entry, same]
        rw [settle_same kept]
        exact .refused
      · exact .half same differs (read.resolve_left same) (Bool.eq_false_iff.mpr second)
  · rw [if_neg read]
    exact .refused

/-- Two changes of which the second is refused are half done. -/
theorem kqueueUpdateFilters_half (here : ∀ filter, set fd filter = entry oldEvents id filter)
    (write : oldEvents.write ≠ events.write) (first : admitted .read = true)
    (second : admitted .write = false) :
    kqueueUpdateFilters set fd id oldEvents events admitted = (settle set fd id events .read, .error .sys) := by
  have there : settle set fd id events .read fd .write = entry oldEvents id .write := by
    rw [settle_self, Function.update_of_ne (by decide), here]
  rw [kqueueUpdateFilters, kevent_change (here .read),
    ← List.append_nil (filterChange oldEvents events .write), kevent_change there,
    if_pos (.inr first), if_neg]
  rintro (same | admits)
  · exact write same
  · rw [second] at admits
    cases admits

theorem kqueue_unheld (mirrored : KqueueMirrors loop.impl loop.kernel)
    (absent : fd ∉ descriptors loop.impl) (filter : Filter) :
    loop.kernel fd filter = entry .none id filter := by
  have nothing : entry .none id filter = none := by cases filter <;> rfl
  rw [nothing]
  cases held : loop.kernel fd filter with
  | none => rfl
  | some other => exact absurd held (mirrored.absent absent)

theorem kqueue_held (mirrored : KqueueMirrors loop.impl loop.kernel) (formed : Formed loop.impl)
    (registered : Registered loop.impl id source) (filter : Filter) :
    loop.kernel source.fd filter = entry source.events id filter := by
  have present : ∀ other, loop.kernel source.fd filter = some other ↔
      other = id ∧ hasFilter source.events filter = true :=
    fun other => mirrored.present formed registered
  rw [entry]
  cases wanted : hasFilter source.events filter with
  | true => exact (present id).mpr ⟨rfl, wanted⟩
  | false =>
    cases held : loop.kernel source.fd filter with
    | none => rfl
    | some other =>
      have wants := ((present other).mp held).2
      rw [wanted] at wants
      cases wants

theorem kernelEvents_eq (registered : Registered loop.impl id source) : kernelEvents loop.impl id = source.events := by
  rw [kernelEvents, registered.2]
  rfl

private theorem kqueueAdd_kept (formed : Formed loop.impl) (mirrored : KqueueMirrors loop.impl loop.kernel) :
    Kept KqueueMirrors loop (.add source grown allocated) (kqueueAdd loop source grown allocated admitted) ↔
      KqueueSpares loop.impl (.add source grown allocated) admitted := by
  constructor
  · -- A source that was half added is freed while the queue still points to it.
    intro kept asks read write first
    by_contra second
    obtain ⟨capacity, shape⟩ := addCommon_asks
      (fun set id => kqueueUpdateFilters set source.fd id .none source.events admitted) asks
    rw [kqueueUpdateFilters_half (kqueue_unheld mirrored asks.1)
      (by rw [write]; decide) first (Bool.eq_false_iff.mpr second)] at shape
    have matched := kept.mirrored
    rw [kqueueAdd, shape] at matched
    have dangling : KqueueHolds
        (settle loop.kernel source.fd loop.impl.nextId source.events .read) source.fd .read loop.impl.nextId := by
      rw [KqueueHolds, settle_self, Function.update_self, entry]
      exact if_pos read
    obtain ⟨found, registered, -⟩ := (matched source.fd .read loop.impl.nextId).mp dangling
    exact Nat.lt_irrefl _ (formed.fresh _ ((formed.held _).mp registered.1))
  · intro spared
    apply addCommon_kept _ formed mirrored
    intro asks
    have here : ∀ filter, loop.kernel source.fd filter = entry .none loop.impl.nextId filter :=
      kqueue_unheld mirrored asks.1
    have updated : Updated loop.kernel source.fd loop.impl.nextId .none source.events admitted _ :=
      kqueueUpdateFilters_updated here
    generalize kqueueUpdateFilters loop.kernel source.fd loop.impl.nextId .none source.events admitted =
      answer at updated ⊢
    cases updated with
    | done => exact settled_holds here
    | refused => exact mirrored
    | half read write first second =>
      have admits := spared asks (by simpa [Events.none] using read) (by simpa [Events.none] using write) first
      rw [second] at admits
      cases admits

private theorem kqueueModify_kept (formed : Formed loop.impl) (mirrored : KqueueMirrors loop.impl loop.kernel) :
    Kept KqueueMirrors loop (.modify fd events) (kqueueModify loop fd events admitted) ↔
      KqueueSpares loop.impl (.modify fd events) admitted := by
  by_cases inside : fd ∈ descriptors loop.impl
  · obtain ⟨front, id, back, source, search, layout, place, registered, rfl⟩ := find_some inside
    have here := kqueue_held mirrored formed registered
    simp only [kqueueModify, search, place, kernelEvents_eq registered]
    constructor
    · intro kept other found also same read write first
      obtain ⟨rfl, rfl⟩ := registered.unique formed also same
      by_contra second
      rw [kqueueUpdateFilters_half here write first (Bool.eq_false_iff.mpr second)] at kept
      -- The read filter has changed and its record has not.
      have matched : KqueueMirrors loop.impl (settle loop.kernel found.fd other events .read) := kept.mirrored
      have asked : hasFilter events .read = true ↔ hasFilter found.events .read = true := by
        have holds : KqueueHolds (settle loop.kernel found.fd other events .read) found.fd .read other ↔ _ :=
          matched.present formed registered
        rw [KqueueHolds, settle_self, Function.update_self, entry] at holds
        simpa using holds
      exact read (Bool.eq_iff_iff.mpr asked.symm)
    · intro spared
      have updated : Updated loop.kernel source.fd id source.events events admitted _ :=
        kqueueUpdateFilters_updated here
      generalize kqueueUpdateFilters loop.kernel source.fd id source.events events admitted = answer at updated ⊢
      cases updated with
      | done =>
        refine ⟨descriptors_nodup (formed_setEvents formed id events), fun refused =>
          absurd inside refused, fun failed => absurd rfl failed, ?_⟩
        exact mirrors_setEvents mirrored formed registered (settled_holds here)
      | refused => exact kept_same formed mirrored fun refused => absurd inside refused
      | half read write first second =>
        have admits := spared id source registered rfl read write first
        rw [second] at admits
        cases admits
  · simp only [kqueueModify, find_none.mpr inside]
    refine ⟨fun _ => ?_, fun _ => kept_same formed mirrored fun _ => rfl⟩
    intro id source registered same
    exact absurd (mem_descriptors.mpr ⟨id, source, registered, same⟩) inside

/-- One of the two deletions: it is made, or refused and forgotten. -/
theorem kqueueDelete_eq (here : set fd filter = entry events id filter) :
    kqueueDelete set fd id events filter admitted =
    if hasFilter events filter = true ∧ admitted filter = false then set else settle set fd id .none filter := by
  have nothing : entry .none id filter = none := by cases filter <;> rfl
  rw [kqueueDelete]
  cases wanted : hasFilter events filter with
  | false =>
    have absent : set fd filter = entry .none id filter := by rw [here, entry, wanted, nothing]; rfl
    rw [settle_same absent]
    simp
  | true =>
    have present : set fd filter = some id := by rw [here, entry, wanted, if_pos rfl]
    cases admits : admitted filter <;> simp [kevent, admits, present, settle, nothing]

/-- A deletion touches nothing but its own filter. -/
theorem kqueueDelete_other {name : Socket} {second : Filter} (different : name ≠ fd ∨ second ≠ filter) :
    kqueueDelete set fd id events filter admitted name second = set name second := by
  rw [kqueueDelete]
  split
  · rw [kevent]
    split
    · rfl
    · rw [kevent]
      by_cases same : name = fd
      · subst same
        simp [different.resolve_left (not_not.mpr rfl)]
      · simp [same]
  · rfl

/-- The filter set after both deletions. -/
theorem kqueueDelete_both (here : ∀ filter, set fd filter = entry events id filter) (name : Socket) (filter : Filter) :
    kqueueDelete (kqueueDelete set fd id events .read admitted) fd id events .write admitted name filter =
      if name = fd ∧ (hasFilter events filter = false ∨ admitted filter = true) then none else set name filter := by
  have there : kqueueDelete set fd id events .read admitted fd .write = entry events id .write := by
    rw [kqueueDelete_other (.inr (by decide)), here]
  by_cases same : name = fd
  · subst same
    have gone (filter : Filter) (set : FilterSet) (held : set name filter = entry events id filter) :
        kqueueDelete set name id events filter admitted name filter =
          if hasFilter events filter = false ∨ admitted filter = true then none else entry events id filter := by
      have nothing : entry .none id filter = none := by cases filter <;> rfl
      rw [kqueueDelete_eq held]
      cases hasFilter events filter <;> cases admitted filter <;> simp [settle, nothing, held]
    cases filter with
    | read =>
      rw [kqueueDelete_other (.inr (by decide)), gone .read set (here .read), here]
      simp
    | write =>
      rw [gone .write _ there, here]
      simp
    | other =>
      rw [kqueueDelete_other (.inr (by decide)), kqueueDelete_other (.inr (by decide)), here]
      simp [entry, hasFilter]
  · rw [kqueueDelete_other (.inl same), kqueueDelete_other (.inl same)]
    simp [same]

private theorem kqueueRemove_kept (formed : Formed loop.impl)
    (mirrored : KqueueMirrors loop.impl loop.kernel) :
    Kept KqueueMirrors loop (.remove fd) (kqueueRemove loop fd admitted) ↔
    KqueueSpares loop.impl (.remove fd) admitted := by
  by_cases inside : fd ∈ descriptors loop.impl
  · obtain ⟨front, id, back, source, search, layout, place, registered, rfl⟩ := find_some inside
    have here := kqueue_held mirrored formed registered
    have both : ∀ name filter,
        kqueueDelete (kqueueDelete loop.kernel source.fd id source.events .read admitted) source.fd id source.events
        .write admitted name filter = _ := kqueueDelete_both here
    simp only [kqueueRemove, search, place, kernelEvents_eq registered]
    constructor
    · intro kept other found also same filter wanted
      obtain ⟨rfl, rfl⟩ := registered.unique formed also same
      by_contra refused
      have remains : KqueueHolds
          (kqueueDelete (kqueueDelete loop.kernel found.fd other found.events .read admitted) found.fd other
          found.events .write admitted) found.fd filter other := by
        rw [KqueueHolds, both, if_neg (by simp [wanted, refused]), here, entry, if_pos wanted]
      obtain ⟨left, still, -⟩ := (kept.mirrored found.fd filter other).mp remains
      exact absurd rfl ((registered_drop layout).mp still).1
    · intro spared
      have admits := spared id source registered rfl
      refine ⟨descriptors_nodup (formed_drop formed registered layout), fun refused =>
        absurd inside refused, fun failed => absurd rfl failed, ?_⟩
      apply mirrors_drop mirrored formed registered layout
      intro name filter other
      simp only [KqueueHolds, both]
      by_cases same : name = source.fd
      · subst same
        have gone : hasFilter source.events filter = false ∨ admitted filter = true := by
          cases wanted : hasFilter source.events filter with
          | false => exact .inl rfl
          | true => exact .inr (admits filter wanted)
        rw [if_pos ⟨rfl, gone⟩]
        simp
      · rw [if_neg (fun both => same both.1)]
        simp [same]
  · simp only [kqueueRemove, find_none.mpr inside]
    refine ⟨fun _ => ?_, fun _ => kept_same formed mirrored fun _ => rfl⟩
    intro id source registered same
    exact absurd (mem_descriptors.mpr ⟨id, source, registered, same⟩) inside

/-- Without a change the kernel is not asked. -/
theorem kqueueUpdateFilters_none (same : oldEvents.read = events.read ∧ oldEvents.write = events.write) :
    kqueueUpdateFilters set fd id oldEvents events admitted = (set, .ok ()) := by
  have none_ (filter : Filter) (equal : hasFilter oldEvents filter = hasFilter events filter) :
      filterChange oldEvents events filter = [] := by
    rw [filterChange, equal]
    cases hasFilter events filter <;> rfl
  rw [kqueueUpdateFilters, none_ .read same.1, none_ .write same.2]
  rfl

private theorem updateFilters_eq (oldEvents events : Events) : updateFilters oldEvents events
    (decide ((kqueueUpdateFilters set fd id oldEvents events admitted).2 = .ok ())) = .ok () ↔
      (kqueueUpdateFilters set fd id oldEvents events admitted).2 = .ok () := by
  rw [updateFilters]
  by_cases same : oldEvents.read = events.read ∧ oldEvents.write = events.write
  · rw [if_pos same, kqueueUpdateFilters_none same]
  · rw [if_neg same]
    by_cases ok : (kqueueUpdateFilters set fd id oldEvents events admitted).2 = .ok () <;> simp [ok]

/-- The table follows the model without the kernel's own. -/
theorem kqueueCall_table (loop : Loop FilterSet) (request : Request) (admitted : Filter → Bool) : ∃ answer,
    (kqueueCall loop request admitted).1.impl = kqueuePerform loop.impl (request.operation answer) := by
  cases request with
  | add source grown allocated =>
    exact ⟨_, addCommon_table _ _ (updateFilters_eq .none source.events)⟩
  | modify fd events =>
    cases search : kernelFind loop.impl fd with
    | none =>
      refine ⟨true, ?_⟩
      simp only [kqueueCall, kqueueModify, Request.operation, kqueuePerform, kqueueModifyCommon, search]
    | some place =>
      let id := loop.impl.sources.getD place 0
      let answer := kqueueUpdateFilters loop.kernel fd id (kernelEvents loop.impl id) events admitted
      refine ⟨decide (answer.2 = .ok ()), ?_⟩
      have same : updateFilters (kernelEvents loop.impl id) events (decide (answer.2 = .ok ())) = .ok () ↔
          answer.2 = .ok () :=
        updateFilters_eq _ _
      simp only [kqueueCall, kqueueModify, Request.operation, kqueuePerform, kqueueModifyCommon, search]
      rw [show ((loop.impl.heap (loop.impl.sources.getD place 0)).map Source.events).getD .none =
        kernelEvents loop.impl id from rfl,
        show kqueueUpdateFilters loop.kernel fd (loop.impl.sources.getD place 0) _ events admitted = answer from rfl]
      generalize updateFilters (kernelEvents loop.impl id) events (decide (answer.2 = .ok ())) = reply at same ⊢
      generalize answer = asked at same ⊢
      obtain ⟨kernel, _ | _⟩ := asked <;> cases reply
      · rfl
      · cases same.mp rfl
      · cases same.mpr rfl
      · rfl
  | remove fd =>
    refine ⟨true, ?_⟩
    simp only [kqueueCall, kqueueRemove, Request.operation, kqueuePerform, kernelRemove, kernelDrop]
    cases kernelFind loop.impl fd <;> rfl

private theorem kqueueCall_formed (request : Request) (formed : Formed loop.impl) :
    Formed (kqueueCall loop request admitted).1.impl := by
  obtain ⟨answer, same⟩ := kqueueCall_table loop request admitted
  rw [same]
  exact (kqueuePerform_effect formed _).formed formed

theorem kqueueCall_kept (request : Request) (formed : Formed loop.impl)
    (mirrored : KqueueMirrors loop.impl loop.kernel) :
    Kept KqueueMirrors loop request (kqueueCall loop request admitted) ↔ KqueueSpares loop.impl request admitted := by
  cases request with
  | add source grown allocated => exact kqueueAdd_kept formed mirrored
  | modify fd events => exact kqueueModify_kept formed mirrored
  | remove fd => exact kqueueRemove_kept formed mirrored

end Kqueue

theorem mirrors_create {κ ι : Type} {held : κ → Socket → ι → SourceId → Prop} {wants : Events → ι → Prop} {kernel : κ}
    (empty : ∀ fd interest id, ¬ held kernel fd interest id) : Mirrors held wants kernelCreate kernel := by
  intro fd interest id
  refine ⟨fun holds => absurd holds (empty fd interest id), ?_⟩
  rintro ⟨source, registered, -⟩
  cases registered.1

/-- In every run from an empty loop, and after every call of it, table and kernel
agree exactly as long as no call is refused in one of the ways that the backend
does not survive. -/
theorem registrations_in_step (run : List (Request × Bool)) (changes : List (Request × (Filter → Bool))) :
    (Holds epollCall EpollMirrors epollCreate run ↔ Meets epollCall EpollSpares epollCreate run) ∧
    (Holds kqueueCall KqueueMirrors kqueueCreate changes ↔ Meets kqueueCall KqueueSpares kqueueCreate changes) := by
  constructor
  · exact holds_iff (fun _ request _ formed => epollCall_formed request formed)
        (fun _ request _ => epollCall_kept request) run epollCreate
      formed_create (mirrors_create nofun)
  · exact holds_iff (fun _ request _ formed => kqueueCall_formed request formed)
        (fun _ request _ => kqueueCall_kept request) changes kqueueCreate
      formed_create (mirrors_create nofun)

def sample (events : Events) : Request := .add ⟨5, events, 0, 0⟩ true true

/-- Three runs that leave the two stores out of step: a refused modification and a
refused deletion with epoll, and an addition that kqueue refuses half way. -/
theorem registrations_out_of_step :
    ¬ Holds epollCall EpollMirrors epollCreate [(sample .reading, true), (.modify 5 .both, false)] ∧
    ¬ Holds epollCall EpollMirrors epollCreate [(sample .reading, true), (.remove 5, false)] ∧
    ¬ Holds kqueueCall KqueueMirrors kqueueCreate [(sample .both, fun filter => filter = .read)] := by
  refine ⟨?_, ?_, ?_⟩
  · rintro ⟨-, kept, -⟩
    have changed := kept.failed (by decide)
    exact absurd changed (by decide)
  · rintro ⟨-, kept, -⟩
    obtain ⟨source, registered, -⟩ := (kept.mirrored 5 .reading 0).mp rfl
    exact absurd registered.1 (by decide)
  · rintro ⟨kept, -⟩
    obtain ⟨source, registered, -⟩ := (kept.mirrored 5 .read 0).mp rfl
    exact absurd registered.1 (by decide)

end Sockify.Proofs.KernelInterests
