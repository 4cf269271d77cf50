import Mathlib.Data.List.Nodup
import Sockify.Event.Poll

/-! Whom the loop over `poll` calls. It pairs the reports with the sources by
their places in two arrays, and only one of the two follows what the callbacks
do to the table. -/

namespace Sockify.Proofs.PollDispatch
open Sockify Event SwapRemove

def fdAt (sources : List Source) (place : Nat) : Option Socket := (sources[place]?).map Source.fd

/-- What the callback of one call leaves of the table. -/
def Call.after (call : Call) : PollImpl := call.reaction.operations.foldl pollPerform call.impl

/-- The callback leaves every place behind its own that has a report with the
same descriptor, or has removed that descriptor and left the place empty. -/
def Tidy (call : Call) : Prop :=
  ∀ place, call.place < place → (call.impl.pfds place).revents ≠ Revents.none →
    fdAt (Call.after call).sources place = fdAt call.impl.sources place ∨
      (fdAt (Call.after call).sources place = none ∧
        ∀ fd, fdAt call.impl.sources place = some fd → .remove fd ∈ call.reaction.operations)

/-- Each report has reached its own source, and each source its own report. -/
structure Served (sources : List Source) (revents : Nat → Revents) (calls : List Call) : Prop where
  registered : ∀ call ∈ calls, call.source ∈ call.impl.sources
  own : ∀ call ∈ calls, ∃ place, fdAt sources place = some call.source.fd ∧ call.events = fromPollEvents (revents place)
  once : (calls.map fun call => call.source.fd).Nodup
  all : ∀ place fd, fdAt sources place = some fd → revents place ≠ Revents.none →
    (∀ call ∈ calls, .remove fd ∉ call.reaction.operations) → fd ∈ calls.map fun call => call.source.fd

inductive Effect (impl : PollImpl) : Operation → PollImpl → Prop
  | kept {operation after} (fds : after.sources.map Source.fd = impl.sources.map Source.fd)
  (pfds : after.pfds = impl.pfds) :
      Effect impl operation after
  | added {after} (source : Source) (replies : Replies) (sources : after.sources = impl.sources ++ [source])
      (pfds : after.pfds = impl.pfds)
      (absent : source.fd ∉ impl.sources.map Source.fd) : Effect impl (.add source replies) after
  | removed {fd front source back after} (layout : impl.sources = front ++ source :: back)
      (sources : after.sources = swapRemove impl.sources front.length) (pfds : after.pfds = impl.pfds) : Effect impl
      (.remove fd) after

variable {impl after : PollImpl} {sources : List Source} {revents : Nat → Revents} {fd : Socket} {place : Nat}

theorem pollFind_some (found : pollFind impl fd = some place) :
    ∃ front source back, impl.sources = front ++ source :: back ∧ place = front.length := by
  obtain ⟨inside, -, -⟩ := List.findIdx?_eq_some_iff_getElem.mp found
  refine ⟨impl.sources.take place, impl.sources[place], impl.sources.drop (place + 1), ?_, ?_⟩
  · rw [List.getElem_cons_drop, List.take_append_drop]
  · rw [List.length_take, Nat.min_eq_left (Nat.le_of_lt inside)]

theorem pollFind_none (missing : pollFind impl fd = none) : fd ∉ impl.sources.map Source.fd := by
  intro member
  obtain ⟨source, there, same⟩ := List.mem_map.mp member
  have other := List.findIdx?_eq_none_iff.mp missing source there
  simp [same] at other

private theorem pollPerform_effect (impl : PollImpl) (operation : Operation) :
    Effect impl operation (pollPerform impl operation) := by
  cases operation with
  | add source replies =>
    simp only [pollPerform, pollAdd]
    split
    · exact .kept rfl rfl
    next missing =>
      have absent := pollFind_none missing
      unfold pollGrow
      split
      · exact .kept rfl rfl
      next larger growth =>
        split at growth
        · cases growth
          exact .added source replies rfl rfl absent
        · split at growth
          · cases growth
            exact .added source replies rfl rfl absent
          · cases growth
  | modify fd events admitted =>
    simp only [pollPerform, pollModify]
    split
    · exact .kept rfl rfl
    next place found =>
      obtain ⟨front, source, back, layout, rfl⟩ := pollFind_some found
      refine .kept ?_ rfl
      simp [layout, List.modify_eq_set_getElem?]
  | remove fd =>
    simp only [pollPerform, pollRemove]
    split
    · exact .kept rfl rfl
    next place found =>
      obtain ⟨front, source, back, layout, rfl⟩ := pollFind_some found
      exact .removed layout rfl rfl

def Distinct (impl : PollImpl) : Prop := (impl.sources.map Source.fd).Nodup

variable {operation : Operation}

theorem Effect.distinct (effect : Effect impl operation after) (distinct : Distinct impl) : Distinct after := by
  unfold Distinct at distinct ⊢
  cases effect with
  | kept fds => rwa [fds]
  | added source replies sources pfds absent =>
    rw [sources, List.map_append, List.nodup_append]
    refine ⟨distinct, by simp, ?_⟩
    intro fd member other single
    obtain rfl : other = source.fd := by simpa using single
    rintro rfl
    exact absent member
  | @removed fd front source back _ layout sources =>
    have shorter : List.Perm after.sources (front ++ back) := by
      rw [sources, layout]
      exact swapRemove_perm front back source
    rw [(shorter.map Source.fd).nodup_iff]
    refine List.Nodup.sublist ?_ distinct
    rw [layout]
    exact (List.Sublist.append_left (List.sublist_cons_self source back) front).map Source.fd

theorem Effect.length_le (effect : Effect impl operation after) :
    after.sources.length ≤ impl.sources.length + if operation.adds then 1 else 0 := by
  cases effect with
  | kept fds =>
    have same : after.sources.length = impl.sources.length := by simpa using congrArg List.length fds
    omega
  | added source replies sources => simp [sources, Operation.adds]
  | removed layout sources =>
    rw [sources]
    exact Nat.le_add_right_of_le (swapRemove_length_le _ _)

theorem Effect.pfds (effect : Effect impl operation after) : after.pfds = impl.pfds := by
  cases effect with
  | kept _ pfds => exact pfds
  | added _ _ _ pfds => exact pfds
  | removed _ _ pfds => exact pfds

private theorem operations_distinct (operations : List Operation) (distinct : Distinct impl) :
    Distinct (operations.foldl pollPerform impl) := by
  induction operations generalizing impl with
  | nil => exact distinct
  | cons operation rest ih => exact ih ((pollPerform_effect impl operation).distinct distinct)

private theorem operations_pfds (operations : List Operation) (impl : PollImpl) :
    (operations.foldl pollPerform impl).pfds = impl.pfds := by
  induction operations generalizing impl with
  | nil => rfl
  | cons operation rest ih => exact (ih _).trans (pollPerform_effect impl operation).pfds

private theorem operations_length (operations : List Operation) (impl : PollImpl) :
    (operations.foldl pollPerform impl).sources.length ≤ impl.sources.length + operations.countP Operation.adds := by
  induction operations generalizing impl with
  | nil => exact Nat.le_refl _
  | cons operation rest ih =>
    have first := (pollPerform_effect impl operation).length_le
    have later := ih (pollPerform impl operation)
    rw [List.foldl_cons, List.countP_cons]
    omega

/-- The walk has come to a place, and `past` is what the callbacks have done.
Every report that is still to be delivered finds its own source in its place,
or finds the place empty because the source was removed. -/
def Aligned (sources : List Source) (impl : PollImpl) (place : Nat) (past : List Operation) : Prop :=
  ∀ later, place ≤ later → (impl.pfds later).revents ≠ Revents.none →
    fdAt impl.sources later = fdAt sources later ∨
      (fdAt impl.sources later = none ∧ ∀ fd, fdAt sources later = some fd → .remove fd ∈ past)

/-- What is left of a pass calls the sources of the places to come, one after the other. -/
structure Delivers (sources : List Source) (revents : Nat → Revents) (place : Nat)
    (past : List Operation) (calls : List Call) : Prop where
  registered : ∀ call ∈ calls, call.source ∈ call.impl.sources
  own : ∀ call ∈ calls, place ≤ call.place ∧ fdAt sources call.place = some call.source.fd ∧
    call.events = fromPollEvents (revents call.place)
  ordered : calls.Pairwise fun first second => first.place < second.place
  all : ∀ later fd, place ≤ later → fdAt sources later = some fd → revents later ≠ Revents.none → .remove fd ∉ past →
    (∀ call ∈ calls, .remove fd ∉ call.reaction.operations) → ∃ call ∈ calls, call.place = later

variable {past : List Operation} {reactions : List Reaction} {calls : List Call}

/-- A callback that is tidy leaves the reports behind its place aligned. -/
theorem Aligned.called (call : Call) (aligned : Aligned sources call.impl call.place past) (tidy : Tidy call) :
    Aligned sources (Call.after call) (call.place + 1) (past ++ call.reaction.operations) := by
  intro later behind reported
  rw [show (Call.after call).pfds = call.impl.pfds from operations_pfds _ _] at reported
  have before := aligned later (Nat.le_of_succ_le behind) reported
  rcases tidy later behind reported with same | ⟨empty, removed⟩
  · rw [same]
    rcases before with same | ⟨empty, gone⟩
    · exact .inl same
    · exact .inr ⟨empty, fun fd there => List.mem_append_left _ (gone fd there)⟩
  · refine .inr ⟨empty, fun fd there => ?_⟩
    rcases before with same | ⟨-, gone⟩
    · exact List.mem_append_right _ (removed fd (same.trans there))
    · exact List.mem_append_left _ (gone fd there)

theorem Aligned.passed (aligned : Aligned sources impl place past) : Aligned sources impl (place + 1) past :=
  fun later behind => aligned later (Nat.le_of_succ_le behind)

private theorem fdAt_none : fdAt sources place = none ↔ sources.length ≤ place := by simp [fdAt]

private theorem fdAt_some {source : Source} (present : sources[place]? = some source) :
    fdAt sources place = some source.fd := by
  simp [fdAt, present]

private theorem additions_cons (reactions : List Reaction) :
    additions reactions = (reactions.headD .idle).operations.countP Operation.adds + additions reactions.tail := by
  cases reactions with
  | nil => rfl
  | cons reaction rest => simp [additions]

private theorem delivers_end (aligned : Aligned sources impl place past) (ended : impl.sources.length ≤ place)
    (reports : ∀ later fd, fdAt sources later = some fd → (impl.pfds later).revents = revents later) :
    Delivers sources revents place past [] := by
  refine ⟨by simp, by simp, .nil, fun later fd behind there reported kept _ => ?_⟩
  have none : fdAt impl.sources later = none := fdAt_none.mpr (Nat.le_trans ended behind)
  rcases aligned later behind (by rwa [reports later fd there]) with same | ⟨-, gone⟩
  · rw [none, there] at same
    cases same
  · exact absurd (gone fd there) kept

/-- The walk, from any place of it on. -/
theorem pollDispatch_delivers (fuel : Nat) (aligned : Aligned sources impl place past)
    (reports : ∀ later fd, fdAt sources later = some fd → (impl.pfds later).revents = revents later)
    (enough : impl.sources.length + additions reactions ≤ place + fuel)
    (running : ∀ reaction ∈ reactions, reaction.stops = false)
    (tidy : ∀ call ∈ (pollDispatch fuel impl place reactions).1, Tidy call) :
    Delivers sources revents place past (pollDispatch fuel impl place reactions).1 := by
  induction fuel generalizing impl place past reactions with
  | zero => exact delivers_end aligned (by omega) reports
  | succ fuel ih =>
    unfold pollDispatch at tidy ⊢
    cases present : impl.sources[place]? with
    | none => exact delivers_end aligned (by simpa using present) reports
    | some source =>
      simp only [present] at tidy ⊢
      have own : fdAt impl.sources place = some source.fd := fdAt_some present
      by_cases silent : (impl.pfds place).revents = Revents.none
      · simp only [silent, if_true] at tidy ⊢
        have rest := ih aligned.passed reports (by omega) running tidy
        refine ⟨rest.registered, ?_, rest.ordered, ?_⟩
        · intro call member
          obtain ⟨behind, there, events⟩ := rest.own call member
          exact ⟨Nat.le_of_succ_le behind, there, events⟩
        · intro later fd behind there reported
          have further : place ≠ later := by
            rintro rfl
            exact reported ((reports place fd there).symm.trans silent)
          exact rest.all later fd (by omega) there reported
      · have running_ : (reactions.headD .idle).stops = false := by
          cases reactions with
          | nil => rfl
          | cons reaction rest => exact running reaction List.mem_cons_self
        simp only [silent, if_false, running_, Bool.false_eq_true] at tidy ⊢
        have first : Tidy ⟨source, place, fromPollEvents (impl.pfds place).revents, impl, reactions.headD .idle⟩ :=
          tidy _ List.mem_cons_self
        have same : fdAt sources place = some source.fd := by
          rcases aligned place (Nat.le_refl _) silent with same | ⟨empty, -⟩
          · exact same.symm.trans own
          · rw [own] at empty
            cases empty
        have longer := operations_length (reactions.headD .idle).operations impl
        have fewer := additions_cons reactions
        have rest :=
          ih (aligned.called _ first) (by rwa [Call.after, operations_pfds]) (by simp only [Call.after]; omega)
            (fun reaction member => running reaction (List.mem_of_mem_tail member))
            fun call member => tidy call (List.mem_cons_of_mem _ member)
        refine ⟨?_, ?_, ?_, ?_⟩
        · exact List.forall_mem_cons.mpr ⟨List.mem_of_getElem? present, rest.registered⟩
        · refine List.forall_mem_cons.mpr ⟨⟨Nat.le_refl _, same, by rw [reports place _ same]⟩, fun call member => ?_⟩
          obtain ⟨behind, there, events⟩ := rest.own call member
          exact ⟨Nat.le_of_succ_le behind, there, events⟩
        · exact List.pairwise_cons.mpr ⟨fun call member => (rest.own call member).1, rest.ordered⟩
        · intro later fd behind there reported kept spared
          rw [List.forall_mem_cons] at spared
          by_cases here : later = place
          · exact ⟨_, List.mem_cons_self, here.symm⟩
          · obtain ⟨call, member, found⟩ := rest.all later fd (show place + 1 ≤ later by omega) there reported
              (by simp only [List.mem_append, not_or]; exact ⟨kept, spared.1⟩) spared.2
            exact ⟨call, List.mem_cons_of_mem _ member, found⟩

private theorem fdAt_inj {other : Nat} (distinct : (sources.map Source.fd).Nodup) (first : fdAt sources place = some fd)
    (second : fdAt sources other = some fd) : place = other := by
  rw [fdAt, ← List.getElem?_map] at first second
  obtain ⟨inside, -⟩ := List.getElem?_eq_some_iff.mp first
  exact (List.getElem?_inj inside distinct).mp (first.trans second.symm)

theorem Delivers.served (delivers : Delivers sources revents 0 [] calls) (distinct : (sources.map Source.fd).Nodup) :
    Served sources revents calls where
  registered := delivers.registered
  own := by
    intro call member
    obtain ⟨-, there, events⟩ := delivers.own call member
    exact ⟨call.place, there, events⟩
  once := by
    rw [List.Nodup, List.pairwise_map]
    refine delivers.ordered.imp_of_mem fun {first second} one two before same => ?_
    have there := (delivers.own first one).2.1
    rw [same] at there
    exact Nat.ne_of_lt before (fdAt_inj distinct there (delivers.own second two).2.1)
  all := by
    intro place fd there reported spared
    obtain ⟨call, member, rfl⟩ := delivers.all place fd (Nat.zero_le _) there reported (by simp) spared
    have own := (delivers.own call member).2.1
    rw [own, Option.some.injEq] at there
    exact List.mem_map.mpr ⟨call, member, there⟩

private theorem pollWait_reports (impl : PollImpl) (revents : Nat → Revents) (later : Nat) (fd : Socket)
    (there : fdAt impl.sources later = some fd) : ((pollWait impl revents).pfds later).revents = revents later := by
  obtain ⟨source, present, -⟩ := Option.map_eq_some_iff.mp there
  simp [pollWait, present]

private theorem served_nil
    (silent : ∀ place fd, fdAt sources place = some fd → revents place = Revents.none) :
    Served sources revents [] where
  registered := by simp
  own := by simp
  once := List.nodup_nil
  all := fun place fd there reported => absurd (silent place fd there) reported

/-- A pass in which every callback is tidy. -/
theorem pollPass_served (distinct : Distinct impl)
    (running : ∀ reaction ∈ reactions, reaction.stops = false)
    (tidy : ∀ call ∈ (pollPass impl revents reactions).1, Tidy call) :
    Served impl.sources revents (pollPass impl revents reactions).1 := by
  unfold pollPass at tidy ⊢
  by_cases some_ : ∃ place < impl.sources.length, revents place ≠ Revents.none
  · simp only [some_, if_true] at tidy ⊢
    have start : Aligned impl.sources (pollWait impl revents) 0 [] := fun later _ _ => .inl rfl
    have delivers :=
      pollDispatch_delivers _ start (pollWait_reports impl revents) (by simp only [pollWait]; omega) running tidy
    exact delivers.served distinct
  · simp only [some_, if_false] at tidy ⊢
    refine served_nil fun place fd there => ?_
    by_contra reported
    have inside : place < impl.sources.length := by
      by_contra outside
      rw [fdAt_none.mpr (Nat.le_of_not_lt outside)] at there
      cases there
    exact some_ ⟨place, inside, reported⟩

/-! The condition is the exact one for a single callback. -/

def tableAfter (impl : PollImpl) (operations : List Operation) : List Source :=
  (operations.foldl pollPerform impl).sources

/-- From the callback at this place, the operations leave the rest of any pass
tidy, whatever is reported there. -/
def Harmless (impl : PollImpl) (place : Nat) (operations : List Operation) : Prop :=
  ∀ later, place < later →
    fdAt (tableAfter impl operations) later = fdAt impl.sources later ∨
      (fdAt (tableAfter impl operations) later = none ∧
        ∀ fd, fdAt impl.sources later = some fd → .remove fd ∈ operations)

private theorem pollPerform_memory (impl : PollImpl) (memory : Nat → PollFd) (operation : Operation) :
    pollPerform { impl with pfds := memory } operation = { pollPerform impl operation with pfds := memory } := by
  cases operation with
  | add source replies =>
    simp only [pollPerform, pollAdd, pollFind, pollGrow]
    split
    · rfl
    · by_cases room : impl.sources.length < impl.capacity
      · simp only [room, if_true]
      · by_cases grown : replies.grown = true <;> simp only [room, grown, if_true, if_false, Bool.false_eq_true]
  | modify fd events admitted =>
    simp only [pollPerform, pollModify, pollFind]
    split <;> rfl
  | remove fd =>
    simp only [pollPerform, pollRemove, pollFind]
    split <;> rfl

private theorem operations_memory (operations : List Operation) (impl : PollImpl)
    (memory : Nat → PollFd) :
    operations.foldl pollPerform
      { impl with pfds := memory } = { operations.foldl pollPerform impl with pfds := memory } := by
  induction operations generalizing impl with
  | nil => rfl
  | cons operation rest ih =>
    rw [List.foldl_cons, pollPerform_memory, ih]
    rfl

private theorem pollDispatch_silent (steps fuel : Nat) (reactions : List Reaction)
    (silent : ∀ other, place ≤ other → other < place + steps → (impl.pfds other).revents = Revents.none)
    (inside : place + steps ≤ impl.sources.length) :
    pollDispatch (steps + fuel) impl place reactions = pollDispatch fuel impl (place + steps) reactions := by
  induction steps generalizing place with
  | zero => rw [Nat.zero_add, Nat.add_zero]
  | succ steps ih =>
    have present : impl.sources[place]? = some impl.sources[place] := List.getElem?_eq_getElem (by omega)
    have rest : pollDispatch (steps + fuel) impl (place + 1) reactions =
        pollDispatch fuel impl (place + 1 + steps) reactions :=
      ih (fun other behind before => silent other (by omega) (by omega)) (by omega)
    rw [Nat.succ_add, pollDispatch]
    simp only [present, silent place (Nat.le_refl _) (by omega), if_true]
    rw [rest]
    congr 1
    omega

/-- Nothing more is called where nothing more is reported. -/
theorem pollDispatch_quiet (fuel : Nat) (reactions : List Reaction)
    (silent : ∀ other, place ≤ other → other < impl.sources.length → (impl.pfds other).revents = Revents.none) :
    (pollDispatch fuel impl place reactions).1 = [] := by
  induction fuel generalizing place with
  | zero => rfl
  | succ fuel ih =>
    rw [pollDispatch]
    cases present : impl.sources[place]? with
    | none => rfl
    | some source =>
      obtain ⟨inside, -⟩ := List.getElem?_eq_some_iff.mp present
      simp only [silent place (Nat.le_refl _) inside, if_true]
      exact ih fun other behind => silent other (Nat.le_of_succ_le behind)

private theorem idle_tidy (fuel : Nat) : ∀ call ∈ (pollDispatch fuel impl place []).1, call.reaction = .idle := by
  induction fuel generalizing impl place with
  | zero => simp [pollDispatch]
  | succ fuel ih =>
    rw [pollDispatch]
    split
    · simp
    · split
      · exact ih
      · simp only [List.headD_nil, Reaction.idle, Bool.false_eq_true, if_false, List.tail_nil, List.foldl_nil]
        exact List.forall_mem_cons.mpr ⟨rfl, ih⟩

/-- A pass in which the first report is that of `place`, whose callback performs
the operations; the callbacks behind it leave the loop alone. -/
theorem pollPass_first {source : Source} (operations : List Operation) (present : impl.sources[place]? = some source)
    (reported : revents place ≠ Revents.none) (first : ∀ other < place, revents other = Revents.none) :
    ∃ fuel, impl.sources.length + operations.countP Operation.adds = place + 1 + fuel ∧
      (pollPass impl revents [⟨operations, false⟩]).1 =
        ⟨source, place, fromPollEvents (revents place), pollWait impl revents, ⟨operations, false⟩⟩ ::
          (pollDispatch fuel (operations.foldl pollPerform (pollWait impl revents)) (place + 1) []).1 := by
  obtain ⟨inside, -⟩ := List.getElem?_eq_some_iff.mp present
  have some_ : ∃ place < impl.sources.length, revents place ≠ Revents.none := ⟨place, inside, reported⟩
  refine ⟨impl.sources.length + operations.countP Operation.adds - (place + 1), by omega, ?_⟩
  have length : impl.sources.length + additions [⟨operations, false⟩] =
      place + (impl.sources.length + operations.countP Operation.adds - (place + 1) + 1) := by
    simp only [additions, List.flatMap_cons, List.flatMap_nil, List.append_nil]
    omega
  have own : ((pollWait impl revents).pfds place).revents = revents place :=
    pollWait_reports impl revents place _ (fdAt_some present)
  have before : ∀ other, 0 ≤ other → other < 0 + place →
      ((pollWait impl revents).pfds other).revents = Revents.none := by
    intro other _ ahead
    have there : impl.sources[other]? = some impl.sources[other] := List.getElem?_eq_getElem (by omega)
    rw [pollWait_reports impl revents other _ (fdAt_some there)]
    exact first other (by omega)
  simp only [pollPass, some_, if_true]
  rw [length, pollDispatch_silent place _ _ before (by simp only [pollWait]; omega), Nat.zero_add, pollDispatch]
  simp only [show (pollWait impl revents).sources[place]? = some source from present,
    own, reported, if_false, List.headD_cons,
    Bool.false_eq_true, List.tail_cons]

private theorem table_pollWait (impl : PollImpl) (revents : Nat → Revents) (operations : List Operation) :
    tableAfter (pollWait impl revents) operations = tableAfter impl operations := by
  unfold tableAfter pollWait
  rw [operations_memory]

/-- Behind a harmless callback the pass is tidy. -/
theorem harmless_tidy {source : Source} {operations : List Operation} (harmless : Harmless impl place operations)
    (present : impl.sources[place]? = some source) (reported : revents place ≠ Revents.none)
    (first : ∀ other < place, revents other = Revents.none) :
    ∀ call ∈ (pollPass impl revents [⟨operations, false⟩]).1, Tidy call := by
  obtain ⟨fuel, -, calls⟩ := pollPass_first operations present reported first
  rw [calls, List.forall_mem_cons]
  constructor
  · intro later behind _
    have table : (Call.after
        ⟨source, place, fromPollEvents (revents place), pollWait impl revents, ⟨operations, false⟩⟩).sources =
        tableAfter impl operations := table_pollWait impl revents operations
    rw [table]
    exact harmless later behind
  · intro call member later _ _
    have idle := idle_tidy fuel call member
    exact .inl (by simp [Call.after, idle, Reaction.idle])

def reading : Revents := ⟨true, false, false, false, false, false⟩
def writing : Revents := ⟨false, true, false, false, false, false⟩

/-- The place of the callback has a report of its own, and the other place another one. -/
def twoReports (place other : Nat) : Nat → Revents := fun index =>
  if index = place then writing else if index = other then reading else .none

def staleMemory (place other : Nat) : Nat → PollFd := fun index => ⟨0, .none, twoReports place other index⟩

private theorem twoReports_own (place other : Nat) : twoReports place other place ≠ Revents.none := by
  simp [twoReports, writing, Revents.none]

private theorem twoReports_ahead {other index : Nat} (behind : place < other) (ahead : index < place) :
    twoReports place other index = Revents.none := by
  simp only [twoReports]
  rw [if_neg (by omega), if_neg (by omega)]

private theorem twoReports_reading {place other index : Nat}
    (same : fromPollEvents (twoReports place other index) = fromPollEvents reading) :
    index = other ∧ index ≠ place := by
  unfold twoReports at same
  split at same
  · exact absurd same (by decide)
  · split at same
    next different here => exact ⟨here, different⟩
    · exact absurd same (by decide)

private theorem harmful_fails {other : Nat} {source : Source} {operations : List Operation}
    (distinct : Distinct impl) (present : impl.sources[place]? = some source) (behind : place < other)
    (moved : fdAt (tableAfter impl operations) other ≠ fdAt impl.sources other)
    (lost : ∀ fd, fdAt (tableAfter impl operations) other = none →
      fdAt impl.sources other = some fd → .remove fd ∉ operations) :
    ¬ Served impl.sources (twoReports place other)
      (pollPass { impl with pfds := staleMemory place other } (twoReports place other) [⟨operations, false⟩]).1 := by
  intro served
  have present' : ({ impl with pfds := staleMemory place other } : PollImpl).sources[place]? = some source := present
  obtain ⟨fuel, enough, calls⟩ := pollPass_first operations present' (twoReports_own place other)
    fun index ahead => twoReports_ahead behind ahead
  rw [calls] at served
  have table : (operations.foldl pollPerform
      (pollWait { impl with pfds := staleMemory place other } (twoReports place other))).sources =
      tableAfter impl operations := by
    rw [pollWait, operations_memory, operations_memory]
    rfl
  have reports : ∀ index,
      ((operations.foldl pollPerform
        (pollWait { impl with pfds := staleMemory place other } (twoReports place other))).pfds index).revents =
        twoReports place other index := by
    intro index
    rw [operations_pfds, pollWait]
    simp only
    split <;> rfl
  have longer := operations_length operations impl
  generalize operations.foldl pollPerform
    (pollWait { impl with pfds := staleMemory place other } (twoReports place other)) = after at *
  have size : after.sources.length ≤ impl.sources.length + operations.countP Operation.adds := by
    rw [table]
    exact longer
  have readable : twoReports place other other = reading := by simp [twoReports, Nat.ne_of_gt behind]
  have between : ∀ index, place + 1 ≤ index → index ≠ other → (after.pfds index).revents = Revents.none := by
    intro index later different
    rw [reports, twoReports, if_neg (by omega), if_neg different]
  rw [← table] at moved lost
  cases there : fdAt after.sources other with
  | some fd =>
    -- The report of `other` goes to a source that it was not made for.
    obtain ⟨found, here, same⟩ := Option.map_eq_some_iff.mp there
    obtain ⟨inside, -⟩ := List.getElem?_eq_some_iff.mp here
    obtain ⟨less, rfl⟩ : ∃ less, fuel = (other - (place + 1)) + (less + 1) :=
      ⟨fuel - (other - (place + 1)) - 1, by simp only at enough; omega⟩
    rw [pollDispatch_silent _ _ _ (fun index later ahead => between index later (by omega)) (by omega),
      show place + 1 + (other - (place + 1)) = other by omega, pollDispatch] at served
    have wanted : (after.pfds other).revents ≠ Revents.none := by
      rw [reports, readable]
      decide
    simp only [here, wanted, if_false, List.headD_nil, Reaction.idle, Bool.false_eq_true] at served
    obtain ⟨index, own, events⟩ := served.own _ (List.mem_cons_of_mem _ List.mem_cons_self)
    rw [reports, readable] at events
    obtain ⟨rfl, -⟩ := twoReports_reading events.symm
    exact moved (there.trans (by rw [own, ← same]))
  | none =>
    -- The report of `other` goes to nobody, though its source is still registered.
    rw [pollDispatch_quiet] at served
    · cases kept : fdAt impl.sources other with
      | none => exact moved (there.trans kept.symm)
      | some fd =>
        have called := served.all other fd kept (by rw [readable]; decide) (by simpa using lost fd there kept)
        obtain rfl : fd = source.fd := by simpa using called
        have same := fdAt_inj distinct (fdAt_some present) kept
        omega
    · intro index later inside
      apply between index later
      rintro rfl
      have outside := fdAt_none.mp there
      omega

/-- The loop behind any sequence of registrations, with any memory behind them. -/
def registered (built : List Operation) (memory : Nat → PollFd) : PollImpl :=
  built.foldl pollPerform (pollCreate memory)

private theorem registered_distinct (built : List Operation) (memory : Nat → PollFd) :
    Distinct (registered built memory) :=
  operations_distinct built List.nodup_nil

private theorem registered_memory (built : List Operation) (memory stale : Nat → PollFd) :
    registered built stale = { registered built memory with pfds := stale } :=
  operations_memory built (pollCreate memory) stale

private theorem harmless_memory (built operations : List Operation) (memory stale : Nat → PollFd) :
    Harmless (registered built stale) place operations ↔ Harmless (registered built memory) place operations := by
  rw [registered_memory built memory stale]
  unfold Harmless tableAfter
  rw [operations_memory]

/-- One pass of the loop. When every callback is tidy, each report reaches its
own source and each source its own report. When one callback alone changes the
table, that is so for all reports if and only if what it does is harmless. -/
theorem pass_serves (built : List Operation) (memory : Nat → PollFd) :
    (∀ revents reactions, (∀ reaction ∈ reactions, reaction.stops = false) →
      (∀ call ∈ (pollPass (registered built memory) revents reactions).1, Tidy call) →
      Served (registered built memory).sources revents (pollPass (registered built memory) revents reactions).1) ∧
    ∀ place < (registered built memory).sources.length, ∀ operations,
      Harmless (registered built memory) place operations ↔
        ∀ stale revents, revents place ≠ Revents.none → (∀ other < place, revents other = Revents.none) →
          Served (registered built stale).sources revents
            (pollPass (registered built stale) revents [⟨operations, false⟩]).1 := by
  refine ⟨fun revents reactions =>
    pollPass_served (registered_distinct built memory), fun place inside operations => ⟨?_, ?_⟩⟩
  · intro harmless stale revents reported first
    obtain ⟨source, present⟩ : ∃ source, (registered built stale).sources[place]? = some source := by
      rw [registered_memory built memory stale]
      exact ⟨_, List.getElem?_eq_getElem inside⟩
    have same := (harmless_memory built operations memory stale).mpr harmless
    exact pollPass_served (registered_distinct built stale) (by simp) (harmless_tidy same present reported first)
  · intro served other behind
    by_contra harmful
    rw [not_or, not_and] at harmful
    obtain ⟨moved, lost⟩ := harmful
    have present := List.getElem?_eq_getElem inside
    apply harmful_fails (registered_distinct built memory) present behind moved
    · intro fd empty there removed
      exact lost empty fun other same => by rwa [Option.some.inj (same.symm.trans there)]
    · have whole := served (staleMemory place other) (twoReports place other) (twoReports_own place other)
        fun index ahead => twoReports_ahead behind ahead
      rw [registered_memory built memory] at whole
      exact whole

def threesome : List Operation :=
  [.add ⟨5, .reading, 1, 50⟩ .fine, .add ⟨7, .reading, 1, 70⟩ .fine, .add ⟨9, .reading, 1, 90⟩ .fine]

def cleared : Nat → PollFd := fun _ => ⟨0, .none, .none⟩

/-- The last source of the table goes, and nothing is moved. -/
theorem pass_serves_last : Served (registered threesome cleared).sources (fun _ => reading)
    (pollPass (registered threesome cleared) (fun _ => reading) [⟨[.remove 9], false⟩]).1 := by
  have harmless : Harmless (registered threesome cleared) 0 [.remove 9] := by
    intro later behind
    match later with
    | 0 => exact absurd behind (Nat.lt_irrefl 0)
    | 1 => exact .inl (by decide)
    | 2 => exact .inr ⟨by decide, by decide⟩
    | later + 3 => exact .inl rfl
  have present : (registered threesome cleared).sources[0]? = some ⟨5, .reading, 1, 50⟩ := by decide
  apply (pass_serves threesome cleared).1 (fun _ => reading) [⟨[.remove 9], false⟩] (by decide)
  exact harmless_tidy harmless present (by decide) fun other ahead => absurd ahead (Nat.not_lt_zero other)

def mixedReports : Nat → Revents := fun place => if place = 1 then writing else reading

/-- The callback of the first source releases its session, and the third source,
moved to the first place, is not called. When it removes the second source
alone, the third one is called with the report of the second. -/
theorem pass_serves_moved :
    ¬ Served (registered threesome cleared).sources (fun _ => reading)
      (pollPass (registered threesome cleared) (fun _ => reading) [⟨[.remove 5, .remove 7], false⟩]).1 ∧
    ¬ Served (registered threesome cleared).sources mixedReports
      (pollPass (registered threesome cleared) mixedReports [⟨[.remove 7], false⟩]).1 := by
  have third : fdAt (registered threesome cleared).sources 2 = some 9 := by decide
  constructor
  · intro served
    have called := served.all 2 9 third (by decide) (by decide)
    exact absurd called (by decide)
  · intro served
    obtain ⟨call, member, source, events⟩ :
        ∃ call ∈ (pollPass (registered threesome cleared) mixedReports [⟨[.remove 7], false⟩]).1,
        call.source.fd = 9 ∧ call.events ≠ fromPollEvents (mixedReports 2) := by decide
    obtain ⟨place, own, same⟩ := served.own call member
    rw [source] at own
    obtain rfl : place = 2 := fdAt_inj (registered_distinct threesome cleared) own third
    exact events same

end Sockify.Proofs.PollDispatch
