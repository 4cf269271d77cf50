import Sockify.Event.WatchSet
import Sockify.Lib.Machine
import Sockify.Proofs.KernelInterests
import Sockify.Proofs.PollDispatch

/-! The three loops are one watch set: with the same calls they give the same
answers, and the kernel is asked for the same events on behalf of the same sources. -/

namespace Sockify.Proofs.Backends
open Sockify Event SwapRemove

/-! A table in some order, beside the set of what is in it. -/

section Table
variable {table after front back : List Source} {source : Source} {set : WatchSet} {fd : Socket} {capacity : Nat}

structure Tabled (table : List Source) (capacity : Nat) (set : WatchSet) : Prop where
  same : ∀ source, source ∈ table ↔ source ∈ set.sources
  single : (table.map Source.fd).Nodup
  room : capacity = set.capacity

theorem Tabled.has (tabled : Tabled table capacity set) : set.Has fd ↔ fd ∈ table.map Source.fd := by
  simp only [WatchSet.Has, List.mem_map, tabled.same]

theorem Tabled.card (tabled : Tabled table capacity set) : set.sources.card = table.length := by
  have listed : set.sources = table.toFinset := by
    ext source
    rw [List.mem_toFinset, tabled.same]
  rw [listed, List.toFinset_card_of_nodup (List.Nodup.of_map Source.fd tabled.single)]

theorem Tabled.resize (tabled : Tabled table capacity set) (larger : Nat) : Tabled table larger (set.resize larger) :=
  ⟨tabled.same, tabled.single, rfl⟩

/-- Any order will do. -/
theorem Tabled.reorder (tabled : Tabled table capacity set) (perm : after.Perm table) : Tabled after capacity set where
  same := fun source => by rw [perm.mem_iff, tabled.same]
  single := (perm.map Source.fd).nodup_iff.mpr tabled.single
  room := tabled.room

theorem Tabled.place (tabled : Tabled table capacity set) (absent : ¬ set.Has source.fd) :
    Tabled (table ++ [source]) capacity (set.place source absent) where
  same := fun other => by
    simp only [WatchSet.place, Finset.mem_insert, List.mem_append, List.mem_singleton, tabled.same]
    exact or_comm
  single := by
    rw [List.map_append, List.nodup_append]
    refine ⟨tabled.single, List.nodup_singleton _, ?_⟩
    intro fd member other single same
    rw [List.map_singleton, List.mem_singleton] at single
    exact absent (tabled.has.mpr (single ▸ same ▸ member))
  room := tabled.room

theorem Tabled.setEvents (tabled : Tabled table capacity set) (events : Events) :
    Tabled (table.map (WatchSet.retarget fd events)) capacity (set.setEvents fd events) where
  same := fun other => by simp only [WatchSet.setEvents, Finset.mem_image, List.mem_map, tabled.same]
  single := by
    have fds : (table.map (WatchSet.retarget fd events)).map Source.fd = table.map Source.fd := by simp
    rw [fds]
    exact tabled.single
  room := tabled.room

theorem Tabled.drop (tabled : Tabled (front ++ source :: back) capacity set) :
    Tabled (front ++ back) capacity (set.drop source.fd) where
  same := fun other => by
    have apart := tabled.single
    simp only [List.map_append, List.map_cons, List.nodup_append, List.nodup_cons, List.mem_cons, List.mem_map] at apart
    simp only [WatchSet.drop, Finset.mem_filter, ← tabled.same, List.mem_append, List.mem_cons]
    constructor
    · rintro (before | behind)
      · exact ⟨.inl before, fun same => apart.2.2 _ ⟨other, before, same⟩ _ (.inl rfl) rfl⟩
      · exact ⟨.inr (.inr behind), fun same => apart.2.1.1 ⟨other, behind, same⟩⟩
    · rintro ⟨before | rfl | behind, different⟩
      · exact .inl before
      · exact absurd rfl different
      · exact .inr behind
  single := by
    refine List.Nodup.sublist ?_ tabled.single
    exact (List.Sublist.append_left (List.sublist_cons_self source back) front).map Source.fd
  room := tabled.room

/-- Only one source of a table has a descriptor. -/
theorem retarget_layout (single : ((front ++ source :: back).map Source.fd).Nodup) (events : Events) :
    (front ++ source :: back).map
      (WatchSet.retarget source.fd events) = front ++ { source with events := events } :: back := by
  simp only [List.map_append, List.map_cons, List.nodup_append, List.nodup_cons, List.mem_cons, List.mem_map] at single
  have kept : ∀ part : List Source, (∀ other ∈ part, other.fd ≠ source.fd) →
      part.map (WatchSet.retarget source.fd events) = part := by
    intro part apart
    exact (List.map_congr_left fun other member => if_neg (apart other member)).trans (List.map_id _)
  rw [List.map_append, List.map_cons, kept front, kept back, WatchSet.retarget, if_pos rfl]
  · exact fun other behind same => single.2.1.1 ⟨other, behind, same⟩
  · exact fun other before same => single.2.2 _ ⟨other, before, same⟩ _ (.inl rfl) rfl

/-- Whether there is room for one more, as both kinds of table ask it. -/
theorem Tabled.room_eq (tabled : Tabled table capacity set) (grown : Bool) : set.room grown =
    if table.length < capacity then some capacity else if grown then some (nextCapacity capacity) else none := by
  rw [WatchSet.room, tabled.card, tabled.room]

end Table

def Follows {σ : Type} (keeps : σ → WatchSet → Prop) (after : σ × Except Err Unit)
    (view : WatchSet × Except Err Unit) : Prop :=
  keeps after.1 view.1 ∧ after.2 = view.2

/-! The loop over `poll`. -/

section Poll
variable {impl : PollImpl} {set : WatchSet} {fd : Socket} {source : Source}

def PollKeeps (impl : PollImpl) (set : WatchSet) : Prop := Tabled impl.sources impl.capacity set

private theorem pollFind_absent (absent : fd ∉ impl.sources.map Source.fd) : pollFind impl fd = none := by
  rw [pollFind, List.findIdx?_eq_none_iff]
  intro source member
  exact beq_false_of_ne fun same => absent (List.mem_map.mpr ⟨source, member, same⟩)

private theorem pollFind_present (inside : fd ∈ impl.sources.map Source.fd) :
    ∃ front source back, pollFind impl fd = some front.length ∧
    impl.sources = front ++ source :: back ∧ source.fd = fd := by
  cases search : pollFind impl fd with
  | none => exact absurd inside (PollDispatch.pollFind_none search)
  | some place =>
    obtain ⟨front, source, back, layout, rfl⟩ := PollDispatch.pollFind_some search
    obtain ⟨inside, same, -⟩ := List.findIdx?_eq_some_iff_getElem.mp search
    refine ⟨front, source, back, rfl, layout, ?_⟩
    simpa [layout] using same

private theorem pollAdd_follows (keeps : PollKeeps impl set) (replies : Replies) :
    Follows PollKeeps (pollAdd impl source replies) (set.add source replies.grown true) := by
  rw [pollAdd, WatchSet.add]
  by_cases inside : source.fd ∈ impl.sources.map Source.fd
  · obtain ⟨front, found, back, search, -⟩ := pollFind_present inside
    rw [dif_pos (keeps.has.mpr inside), search]
    exact ⟨keeps, rfl⟩
  · rw [dif_neg fun has => inside (keeps.has.mp has), pollFind_absent inside]
    by_cases room : impl.sources.length < impl.capacity
    · simp only [pollGrow, keeps.room_eq, if_pos room]
      exact ⟨(keeps.place _).resize _, rfl⟩
    · simp only [pollGrow, keeps.room_eq, if_neg room]
      cases replies.grown with
      | false => exact ⟨keeps, rfl⟩
      | true => exact ⟨(keeps.place _).resize _, rfl⟩

private theorem pollModify_follows (keeps : PollKeeps impl set) (events : Events) :
    Follows PollKeeps (pollModify impl fd events) (set.modify fd events) := by
  rw [pollModify, WatchSet.modify]
  by_cases inside : fd ∈ impl.sources.map Source.fd
  · obtain ⟨front, source, back, search, layout, rfl⟩ := pollFind_present inside
    rw [if_pos (keeps.has.mpr inside), search]
    have changed : impl.sources.modify front.length (fun source => { source with events := events }) =
        impl.sources.map (WatchSet.retarget source.fd events) := by
      have single := keeps.single
      rw [layout] at single ⊢
      rw [retarget_layout single]
      simp [List.modify_eq_set_getElem?]
    refine ⟨?_, rfl⟩
    simp only [PollKeeps, changed]
    exact keeps.setEvents events
  · rw [if_neg fun has => inside (keeps.has.mp has), pollFind_absent inside]
    exact ⟨keeps, rfl⟩

private theorem pollRemove_follows (keeps : PollKeeps impl set) :
    Follows PollKeeps (pollRemove impl fd) (set.remove fd) := by
  rw [pollRemove, WatchSet.remove]
  by_cases inside : fd ∈ impl.sources.map Source.fd
  · obtain ⟨front, source, back, search, layout, rfl⟩ := pollFind_present inside
    rw [if_pos (keeps.has.mpr inside), search]
    have shorter : (swapRemove impl.sources front.length).Perm (front ++ back) := by
      rw [layout]
      exact swapRemove_perm front back source
    rw [PollKeeps, layout] at keeps
    exact ⟨keeps.drop.reorder shorter, rfl⟩
  · rw [if_neg fun has => inside (keeps.has.mp has), pollFind_absent inside]
    exact ⟨keeps, rfl⟩

private theorem poll_simulates :
    Machine.Simulates pollCall WatchSet.call (fun request => request.allocates = true) PollKeeps := by
  have follows (impl : PollImpl)
      (set : WatchSet) (request : Request) (allocates : request.allocates = true) (keeps : PollKeeps impl set) :
      Follows PollKeeps (pollCall impl request) (set.call request) := by
    cases request with
    | add source grown allocated =>
      obtain rfl : allocated = true := allocates
      exact pollAdd_follows keeps ⟨grown, true, true⟩
    | modify fd events => exact pollModify_follows keeps events
    | remove fd => exact pollRemove_follows keeps
  exact ⟨fun impl set request allocates keeps => (follows impl set request allocates keeps).1,
    fun impl set request allocates keeps => (follows impl set request allocates keeps).2⟩

end Poll

/-! The tables of pointers. -/

section Kernel
open KernelDispatch KernelInterests

variable {impl : KernelImpl} {set : WatchSet} {id : SourceId} {source : Source}
  {front back : List SourceId} {events : Events}

def table (impl : KernelImpl) : List Source := impl.sources.filterMap impl.heap

private theorem mem_table : source ∈ table impl ↔ ∃ id, Registered impl id source := List.mem_filterMap

private theorem table_fds (impl : KernelImpl) : (table impl).map Source.fd = descriptors impl := by
  rw [table, descriptors, List.map_filterMap]
  rfl

private theorem table_length (formed : Formed impl) : (table impl).length = impl.sources.length := by
  have all : ∀ id ∈ impl.sources, (impl.heap id).isSome := by
    intro id member
    have held := (formed.held id).mp member
    rwa [Ne, owner_none, ← Ne, Option.ne_none_iff_isSome] at held
  rw [table]
  exact List.filterMap_length_eq_length.mpr all

private theorem table_place (formed : Formed impl) : table (kernelPlace impl source) = table impl ++ [source] := by
  have unused : impl.nextId ∉ impl.sources := fun member => Nat.lt_irrefl _ (formed.fresh _ ((formed.held _).mp member))
  have kept : impl.sources.filterMap (Function.update impl.heap impl.nextId (some source)) =
      impl.sources.filterMap impl.heap := by
    refine List.filterMap_congr fun id member => Function.update_of_ne ?_ _ _
    rintro rfl
    exact unused member
  simp only [table, kernelPlace, List.filterMap_append, kept]
  simp

/-- The source of one pointer, between those of the others. -/
theorem table_layout (layout : impl.sources = front ++ id :: back) (registered : Registered impl id source) :
    table impl = front.filterMap impl.heap ++ source :: back.filterMap impl.heap := by
  rw [table, layout, List.filterMap_append, List.filterMap_cons, registered.2]

/-- Nothing else is at the place of a pointer. -/
theorem others_kept (formed : Formed impl) (layout : impl.sources = front ++ id :: back) (value : Option Source) :
    front.filterMap (Function.update impl.heap id value) = front.filterMap impl.heap ∧
      back.filterMap (Function.update impl.heap id value) = back.filterMap impl.heap := by
  have apart := formed.distinct
  simp only [layout, List.nodup_append, List.nodup_cons, List.mem_cons] at apart
  constructor
  · refine List.filterMap_congr fun other member => Function.update_of_ne ?_ _ _
    rintro rfl
    exact apart.2.2 _ member _ (.inl rfl) rfl
  · refine List.filterMap_congr fun other member => Function.update_of_ne ?_ _ _
    rintro rfl
    exact apart.2.1.1 member

private theorem table_setEvents (formed : Formed impl) (layout : impl.sources = front ++ id :: back)
    (registered : Registered impl id source) :
    table (kernelSetEvents impl id events) = (table impl).map (WatchSet.retarget source.fd events) := by
  have single := descriptors_nodup formed
  rw [← table_fds, table_layout layout registered] at single
  rw [table_layout layout registered, retarget_layout single, table]
  simp only [kernelSetEvents, layout,
    List.filterMap_append, List.filterMap_cons, (others_kept formed layout _).1, (others_kept formed layout _).2,
    Function.update_self, registered.2, Option.map_some]

private theorem table_drop (formed : Formed impl) (layout : impl.sources = front ++ id :: back) :
    (table (kernelDrop impl front.length)).Perm (front.filterMap impl.heap ++ back.filterMap impl.heap) := by
  have shorter : (swapRemove impl.sources front.length).Perm (front ++ back) := by
    rw [layout]
    exact swapRemove_perm front back id
  obtain ⟨before, behind⟩ := others_kept formed layout none
  have place : impl.sources.getD front.length 0 = id := sources_getD layout
  simp only [table, kernelDrop, place]
  refine (shorter.filterMap _).trans ?_
  rw [List.filterMap_append, before, behind]

/-- The table as a set; what the kernel holds comes beside it. -/
structure KernelKeeps (impl : KernelImpl) (set : WatchSet) : Prop where
  formed : Formed impl
  tabled : Tabled (table impl) impl.capacity set

theorem KernelKeeps.has {fd : Socket} (keeps : KernelKeeps impl set) : set.Has fd ↔ fd ∈ descriptors impl := by
  rw [keeps.tabled.has, table_fds]

theorem KernelKeeps.resize (keeps : KernelKeeps impl set) (capacity : Nat) :
    KernelKeeps { impl with capacity := capacity } (set.resize capacity) :=
  ⟨formed_capacity keeps.formed capacity, keeps.tabled.resize capacity⟩

theorem KernelKeeps.place (keeps : KernelKeeps impl set) (absent : ¬ set.Has source.fd) :
    KernelKeeps (kernelPlace impl source) (set.place source absent) where
  formed := by
    have missing : source.fd ∉ descriptors impl := fun inside => absent (keeps.has.mpr inside)
    have effect : Effect impl (.add source .fine) (kernelPlace impl source) :=
      .added source .fine rfl rfl rfl (kernelFind_none keeps.formed (find_none.mpr missing))
    exact effect.formed keeps.formed
  tabled := by
    rw [table_place keeps.formed]
    exact keeps.tabled.place absent

theorem KernelKeeps.setEvents (keeps : KernelKeeps impl set)
    (layout : impl.sources = front ++ id :: back) (registered : Registered impl id source)
    (events : Events) : KernelKeeps (kernelSetEvents impl id events) (set.setEvents source.fd events) where
  formed := formed_setEvents keeps.formed id events
  tabled := by
    rw [table_setEvents keeps.formed layout registered]
    exact keeps.tabled.setEvents events

theorem KernelKeeps.drop (keeps : KernelKeeps impl set) (layout : impl.sources = front ++ id :: back)
    (registered : Registered impl id source) :
    KernelKeeps (kernelDrop impl front.length) (set.drop source.fd) where
  formed := formed_drop keeps.formed registered layout
  tabled := by
    have whole := keeps.tabled
    rw [table_layout layout registered] at whole
    exact whole.drop.reorder (table_drop keeps.formed layout)

variable {κ : Type} {loop : Loop κ} {ask : κ → SourceId → κ × Except Err Unit} {grown allocated : Bool}

/-- An addition that the kernel grants when it is asked. -/
theorem addCommon_follows (keeps : KernelKeeps loop.impl set)
    (granted : source.fd ∉ descriptors loop.impl → (ask loop.kernel loop.impl.nextId).2 = .ok ()) :
    Follows (fun loop : Loop κ => KernelKeeps loop.impl)
      (addCommon ask loop source grown allocated) (set.add source grown allocated) := by
  rw [addCommon, WatchSet.add]
  by_cases inside : source.fd ∈ descriptors loop.impl
  · obtain ⟨front, id, back, found, search, -⟩ := find_some inside
    rw [dif_pos (keeps.has.mpr inside), search]
    exact ⟨keeps, rfl⟩
  · have absent : ¬ set.Has source.fd := fun has => inside (keeps.has.mp has)
    obtain ⟨kernel, shape⟩ : ∃ kernel, ask loop.kernel loop.impl.nextId = (kernel, .ok ()) :=
      ⟨_, Prod.ext rfl (granted inside)⟩
    have placed (capacity : Nat) : KernelKeeps (kernelPlace { loop.impl with capacity := capacity } source)
        ((set.place source absent).resize capacity) := (keeps.resize capacity).place absent
    simp only [dif_neg absent, find_none.mpr inside, kernelGrow, keeps.tabled.room_eq, table_length keeps.formed]
    by_cases room : loop.impl.sources.length < loop.impl.capacity
    · simp only [if_pos room, shape]
      cases allocated with
      | false => exact ⟨keeps.resize _, rfl⟩
      | true => exact ⟨placed _, rfl⟩
    · simp only [if_neg room]
      cases grown with
      | false => exact ⟨keeps, rfl⟩
      | true =>
        simp only [if_true, shape]
        cases allocated with
        | false => exact ⟨keeps.resize _, rfl⟩
        | true => exact ⟨placed _, rfl⟩

end Kernel

/-! The loops over `epoll` and `kqueue`, when the kernel refuses nothing. -/

section Loops
open KernelDispatch KernelInterests

variable {set : WatchSet} {fd : Socket} {events : Events}

structure EpollKeeps (loop : Loop EpollSet) (set : WatchSet) : Prop where
  kept : KernelKeeps loop.impl set
  mirrored : EpollMirrors loop.impl loop.kernel

structure KqueueKeeps (loop : Loop FilterSet) (set : WatchSet) : Prop where
  kept : KernelKeeps loop.impl set
  mirrored : KqueueMirrors loop.impl loop.kernel

private theorem epollCall_follows {loop : Loop EpollSet} (keeps : EpollKeeps loop set) (request : Request) :
    Follows (fun loop : Loop EpollSet => KernelKeeps loop.impl) (epollCall loop request true) (set.call request) := by
  cases request with
  | add source grown allocated =>
    apply addCommon_follows keeps.kept
    intro absent
    rw [epollCtl_admitted (by simp [epoll_unheld keeps.mirrored absent])]
  | modify fd events =>
    simp only [epollCall, epollModify, WatchSet.call, WatchSet.modify]
    by_cases inside : fd ∈ descriptors loop.impl
    · obtain ⟨front, id, back, source, search, layout, place, registered, rfl⟩ := find_some inside
      have present := epoll_held keeps.mirrored keeps.kept.formed registered
      simp only [if_pos (keeps.kept.has.mpr inside), search, place]
      refine ⟨keeps.kept.setEvents layout registered events, ?_⟩
      rw [epollCtl_admitted (by simp [present])]
    · simp only [if_neg fun has => inside (keeps.kept.has.mp has), find_none.mpr inside]
      exact ⟨keeps.kept, rfl⟩
  | remove fd =>
    simp only [epollCall, epollRemove, WatchSet.call, WatchSet.remove]
    by_cases inside : fd ∈ descriptors loop.impl
    · obtain ⟨front, id, back, source, search, layout, place, registered, rfl⟩ := find_some inside
      simp only [if_pos (keeps.kept.has.mpr inside), search]
      exact ⟨keeps.kept.drop layout registered, rfl⟩
    · simp only [if_neg fun has => inside (keeps.kept.has.mp has), find_none.mpr inside]
      exact ⟨keeps.kept, rfl⟩

private theorem epoll_simulates :
    Machine.Simulates (fun loop request => epollCall loop request true) WatchSet.call
      (fun request => request.allocates = true)
    EpollKeeps where
  keeps := by
    intro loop set request _ keeps
    refine ⟨(epollCall_follows keeps request).1, ?_⟩
    have spares : EpollSpares loop.impl request true := by
      cases request with
      | add => trivial
      | modify => exact .inl rfl
      | remove => exact .inl rfl
    exact ((epollCall_kept request keeps.kept.formed keeps.mirrored).mpr spares).mirrored
  answers := fun loop set request _ keeps => (epollCall_follows keeps request).2

/-- A queue that refuses nothing makes both changes. -/
theorem kqueueUpdateFilters_admitted {kernel : FilterSet} {id : SourceId} {oldEvents : Events}
    (here : ∀ filter, kernel fd filter = entry oldEvents id filter) :
    kqueueUpdateFilters kernel fd id oldEvents events (fun _ => true) = (settled kernel fd id events, .ok ()) := by
  have there : settle kernel fd id events .read fd .write = entry oldEvents id .write := by
    rw [settle_self, Function.update_of_ne (by decide), here]
  rw [kqueueUpdateFilters, kevent_change (here .read),
    ← List.append_nil (filterChange oldEvents events .write), kevent_change there,
    if_pos (.inr rfl), if_pos (.inr rfl)]
  rfl

private theorem kqueueCall_follows {loop : Loop FilterSet} (keeps : KqueueKeeps loop set)
    (request : Request) :
    Follows (fun loop : Loop FilterSet => KernelKeeps loop.impl)
      (kqueueCall loop request fun _ => true) (set.call request) := by
  cases request with
  | add source grown allocated =>
    apply addCommon_follows keeps.kept
    intro absent
    rw [kqueueUpdateFilters_admitted (kqueue_unheld keeps.mirrored absent)]
  | modify fd events =>
    simp only [kqueueCall, kqueueModify, WatchSet.call, WatchSet.modify]
    by_cases inside : fd ∈ descriptors loop.impl
    · obtain ⟨front, id, back, source, search, layout, place, registered, rfl⟩ := find_some inside
      have held := kqueue_held keeps.mirrored keeps.kept.formed registered
      simp only [if_pos (keeps.kept.has.mpr inside),
        search, place, kernelEvents_eq registered, kqueueUpdateFilters_admitted held]
      exact ⟨keeps.kept.setEvents layout registered events, rfl⟩
    · simp only [if_neg fun has => inside (keeps.kept.has.mp has), find_none.mpr inside]
      exact ⟨keeps.kept, rfl⟩
  | remove fd =>
    simp only [kqueueCall, kqueueRemove, WatchSet.call, WatchSet.remove]
    by_cases inside : fd ∈ descriptors loop.impl
    · obtain ⟨front, id, back, source, search, layout, place, registered, rfl⟩ := find_some inside
      simp only [if_pos (keeps.kept.has.mpr inside), search]
      exact ⟨keeps.kept.drop layout registered, rfl⟩
    · simp only [if_neg fun has => inside (keeps.kept.has.mp has), find_none.mpr inside]
      exact ⟨keeps.kept, rfl⟩

private theorem kqueue_simulates :
    Machine.Simulates (fun loop request => kqueueCall loop request fun _ => true) WatchSet.call
      (fun request => request.allocates = true) KqueueKeeps where
  keeps := by
    intro loop set request _ keeps
    refine ⟨(kqueueCall_follows keeps request).1, ?_⟩
    have spares : KqueueSpares loop.impl request fun _ => true := by
      cases request with
      | add => exact fun _ _ _ _ => rfl
      | modify => exact fun _ _ _ _ _ _ _ => rfl
      | remove => exact fun _ _ _ _ _ _ => rfl
    exact ((kqueueCall_kept request keeps.kept.formed keeps.mirrored).mpr spares).mirrored
  answers := fun loop set request _ keeps => (kqueueCall_follows keeps request).2

end Loops

/-! What is asked of the kernel. -/

section Watching
open KernelInterests

variable {set : WatchSet} {fd : Socket} {source : Source}

private theorem pollKeeps_watches {impl : PollImpl} (keeps : PollKeeps impl set) (interest : Events) :
    PollWatches impl fd interest source ↔
    source ∈ set.sources ∧ source.fd = fd ∧ toPollEvents source.events = interest := by
  rw [← keeps.same]
  constructor
  · rintro ⟨place, there, same, asked⟩
    simp only [pollWait, there] at same asked
    exact ⟨List.mem_of_getElem? there, same, asked⟩
  · rintro ⟨member, same, asked⟩
    obtain ⟨place, there⟩ := List.mem_iff_getElem?.mp member
    refine ⟨place, there, ?_⟩
    simp only [pollWait, there]
    exact ⟨same, asked⟩

theorem KernelKeeps.watched {impl : KernelImpl} (keeps : KernelKeeps impl set) :
    source ∈ set.sources ↔ ∃ id, Registered impl id source := by
  rw [← keeps.tabled.same, mem_table]

private theorem epollKeeps_watches {loop : Loop EpollSet} (keeps : EpollKeeps loop set)
    (interest : Events) :
    EpollWatches loop fd interest source ↔
    source ∈ set.sources ∧ source.fd = fd ∧ toEpollEvents source.events = interest := by
  rw [keeps.kept.watched]
  constructor
  · rintro ⟨id, held, here⟩
    obtain ⟨found, registered, same, asked⟩ := (keeps.mirrored fd interest id).mp held
    obtain rfl := Option.some.inj (here.symm.trans registered.2)
    exact ⟨⟨id, registered⟩, same, asked.symm⟩
  · rintro ⟨⟨id, registered⟩, same, asked⟩
    exact ⟨id, (keeps.mirrored fd interest id).mpr ⟨source, registered, same, asked.symm⟩, registered.2⟩

private theorem kqueueKeeps_watches {loop : Loop FilterSet} (keeps : KqueueKeeps loop set)
    (filter : Filter) :
    KqueueWatches loop fd filter source ↔
    source ∈ set.sources ∧ source.fd = fd ∧ hasFilter source.events filter = true := by
  rw [keeps.kept.watched]
  constructor
  · rintro ⟨id, held, here⟩
    obtain ⟨found, registered, same, asked⟩ := (keeps.mirrored fd filter id).mp held
    obtain rfl := Option.some.inj (here.symm.trans registered.2)
    exact ⟨⟨id, registered⟩, same, asked⟩
  · rintro ⟨⟨id, registered⟩, same, asked⟩
    exact ⟨id, (keeps.mirrored fd filter id).mpr ⟨source, registered, same, asked⟩, registered.2⟩

end Watching

private theorem tabled_empty : Tabled [] 0 .empty := ⟨by simp [WatchSet.empty], List.nodup_nil, rfl⟩

/-- Nothing an application can do through its event loop tells the three builds
apart, as long as the kernel refuses nothing: the answers are those of the set,
and the kernel watches what is in the set, and reports it to the same callbacks. -/
theorem backends_agree (memory : Nat → PollFd)
    (requests : List Request) (allocates : ∀ request ∈ requests, request.allocates = true) :
    let watched := Machine.run WatchSet.call .empty requests
    let poll := Machine.run pollCall (pollCreate memory) requests
    let epoll := Machine.run (fun loop request => epollCall loop request true) epollCreate requests
    let kqueue := Machine.run (fun loop request => kqueueCall loop request fun _ => true) kqueueCreate requests
    (poll.2 = watched.2 ∧ epoll.2 = watched.2 ∧ kqueue.2 = watched.2) ∧
      ∀ fd source,
        (∀ interest, PollWatches poll.1 fd interest source ↔
          source ∈ watched.1.sources ∧ source.fd = fd ∧ toPollEvents source.events = interest) ∧
        (∀ interest, EpollWatches epoll.1 fd interest source ↔
          source ∈ watched.1.sources ∧ source.fd = fd ∧ toEpollEvents source.events = interest) ∧
        ∀ filter, KqueueWatches kqueue.1 fd filter source ↔
          source ∈ watched.1.sources ∧ source.fd = fd ∧ hasFilter source.events filter = true := by
  have created : KernelKeeps kernelCreate .empty := ⟨KernelDispatch.formed_create, tabled_empty⟩
  have starts : PollKeeps (pollCreate memory) .empty := tabled_empty
  obtain ⟨poll, first⟩ := poll_simulates.run_eq requests allocates starts
  obtain ⟨epoll, second⟩ := epoll_simulates.run_eq requests allocates
    (show EpollKeeps epollCreate .empty from ⟨created, KernelInterests.mirrors_create nofun⟩)
  obtain ⟨kqueue, third⟩ := kqueue_simulates.run_eq requests allocates
    (show KqueueKeeps kqueueCreate .empty from ⟨created, KernelInterests.mirrors_create nofun⟩)
  exact ⟨⟨first, second, third⟩, fun fd source =>
    ⟨pollKeeps_watches poll, epollKeeps_watches epoll, kqueueKeeps_watches kqueue⟩⟩

def session : List Request :=
  [.add ⟨5, .reading, 1, 2⟩ true true,
    .add ⟨5, .both, 1, 3⟩ true true, .modify 5 .both, .add ⟨6, .reading, 1, 3⟩ true true, .remove 5]

theorem backends_agree_session :
    (Machine.run (fun loop request => kqueueCall loop request fun _ => true) kqueueCreate session).2 =
        [.ok (), .error .invalid, .ok (), .ok (), .ok ()] ∧
      EpollWatches (Machine.run (fun loop request => epollCall loop request true) epollCreate session).1 6 .reading
        ⟨6, .reading, 1, 3⟩ := by
  obtain ⟨⟨-, -, answers⟩, watches⟩ := backends_agree (fun _ => ⟨0, .none, .none⟩) session (by decide)
  refine ⟨answers.trans (by decide), (watches 6 ⟨6, .reading, 1, 3⟩).2.1 .reading |>.mpr ?_⟩
  decide

end Sockify.Proofs.Backends
