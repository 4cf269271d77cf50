import Sockify.Proofs.SessionLogic
import Sockify.Resources

/-! A handler works on its session alone: what it does is settled by the
session's own part and the server's configuration, whatever else the world
holds, and it leaves the rest of the world as it was. On its way it adds to the
session's record; only data that moves defers the idle timeout, and the session
holds the descriptors that it is handed. -/

namespace Sockify.Proofs.Locality
open Sockify Stateful Registry SessionLogic

/-- Data has moved, or the connect has completed. -/
def active : Io → Bool
  | .read _ _ _ (.ok _) => true
  | .write _ _ _ (.ok sent) => decide (sent ≠ 0)
  | .connected (.ok 0) => true
  | _ => false

/-- A relation between a session's own part before a program and behind it:
it does not mind calls, what they leave in the record, or interest. -/
class Ageing (rel : Own → Own → Prop) : Prop where
  refl : ∀ x, rel x x
  trans : ∀ x y z, rel x y → rel y z → rel x z
  called : ∀ x : Own, rel x { x with calls := x.calls + 1 }
  recorded : ∀ (x : Own) io, opens io = [] → rel x { x with log := x.log ++ [io] }
  watched : ∀ (x : Own) interest, rel x { x with interest := interest }

/-- The record has grown, and the session holds what it was handed since. -/
structure Grown (x : Own) (more : List Io) (y : Own) : Prop where
  log : y.log = x.log ++ more
  held : sessionDescriptors y.session = sessionDescriptors x.session ++ more.flatMap opens

theorem Grown.trans {x y z : Own} {more rest : List Io} (first : Grown x more y)
    (second : Grown y rest z) : Grown x (more ++ rest) z where
  log := by rw [second.log, first.log, List.append_assoc]
  held := by rw [second.held, first.held, List.flatMap_append, List.append_assoc]

theorem Grown.session (x : Own) {s : Session}
    (same : sessionDescriptors s = sessionDescriptors x.session) : Grown x [] { x with session := s } :=
  ⟨(List.append_nil _).symm, same.trans (List.append_nil _).symm⟩

theorem Grown.called (x : Own) : Grown x [] { x with calls := x.calls + 1 } :=
  ⟨(List.append_nil _).symm, (List.append_nil _).symm⟩

theorem Grown.recorded (x : Own) {io : Io} (none_ : opens io = []) : Grown x [io] { x with log := x.log ++ [io] } :=
  ⟨rfl, by simp [none_]⟩

theorem Grown.watched (x : Own) (interest : Side → Option Events) : Grown x [] { x with interest := interest } :=
  ⟨(List.append_nil _).symm, (List.append_nil _).symm⟩

def Ages (x y : Own) : Prop := ∃ more, Grown x more y

/-- The session is older, and the time of its last activity stands unless data has moved. -/
def Idles (x y : Own) : Prop :=
  ∃ more, Grown x more y ∧ (more.any active = false → y.session.lastActivityAt = x.session.lastActivityAt)

theorem Idles.ages {x y : Own} (idles : Idles x y) : Ages x y := by
  obtain ⟨more, grown, -⟩ := idles
  exact ⟨more, grown⟩

instance : Ageing Ages where
  refl := fun x => ⟨[], .session x rfl⟩
  trans := by
    rintro x y z ⟨more, grown⟩ ⟨rest, last⟩
    exact ⟨more ++ rest, grown.trans last⟩
  called := fun x => ⟨[], .called x⟩
  recorded := fun x io none_ => ⟨[io], .recorded x none_⟩
  watched := fun x interest => ⟨[], .watched x interest⟩

instance : Ageing Idles where
  refl := fun x => ⟨[], .session x rfl, fun _ => rfl⟩
  trans := by
    rintro x y z ⟨more, grown, still⟩ ⟨rest, last, quiet⟩
    refine ⟨more ++ rest, grown.trans last, fun silent => ?_⟩
    rw [List.any_append, Bool.or_eq_false_iff] at silent
    exact (quiet silent.2).trans (still silent.1)
  called := fun x => ⟨[], .called x, fun _ => rfl⟩
  recorded := fun x io none_ => ⟨[io], .recorded x none_, fun _ => rfl⟩
  watched := fun x interest => ⟨[], .watched x interest, fun _ => rfl⟩

theorem Ages.session (x : Own) {s : Session}
    (same : sessionDescriptors s = sessionDescriptors x.session) : Ages x { x with session := s } :=
  ⟨[], .session x same⟩

theorem Idles.session (x : Own) {s : Session} (still : s.lastActivityAt = x.session.lastActivityAt)
    (same : sessionDescriptors s = sessionDescriptors x.session) : Idles x { x with session := s } :=
  ⟨[], .session x same, fun _ => still⟩

/-- What a handler can see beside the own part of its session. -/
structure Surroundings where
  id : SessionId
  config : Config
  targetTlsContext : Bool

/-- A place in some world that looks like this to the session. -/
structure Surroundings.Around (setting : Surroundings) (site : Site) : Prop where
  id : site.id = setting.id
  config : site.world.config = setting.config
  context : site.world.targetTlsContext = setting.targetTlsContext

/-- How a program ends: with a value or a fault, and with the own part that it
leaves or in which it released the session. -/
structure Ending (α : Type) where
  value : Except Fault α
  released : Bool
  own : Own

def Ending.At {α : Type} (ending : Ending α) (site : Site) (result : Except Fault α × World) : Prop :=
  result.1 = ending.value ∧
    if ending.released = true then Released site ending.own result.2 else result.2 = site.place ending.own

variable {setting : Surroundings} {rel : Own → Own → Prop} {α β : Type}

/-- The program ends in the same way wherever its session is. -/
def Local (setting : Surroundings) (rel : Own → Own → Prop) (program : Proc α) : Prop :=
  ∀ x, ∃ ending : Ending α, rel x ending.own ∧ ∀ site, setting.Around site → ending.At site (program (site.place x))

/-- A local program that returns and keeps its session. -/
def Smooth (setting : Surroundings) (rel : Own → Own → Prop) (program : Proc α) : Prop :=
  ∀ x, ∃ value y, rel x y ∧ ∀ site, setting.Around site → program (site.place x) = (.ok value, site.place y)

/-- Without its session the program changes nothing, and always ends alike. -/
def Absent (id : SessionId) (program : Proc α) : Prop := ∃ ends, ∀ w, w.node? id = none → program w = (ends, w)

private theorem bind_error {program : Proc α} {reason : Fault} {w after : World}
    (runs : program w = (.error reason, after)) (next : α → Proc β) :
    (program >>= next) w = (.error reason, after) := by
  simp only [bind, runs]

namespace Smooth
variable [Ageing rel]

theorem pure (value : α) : Smooth setting rel (Pure.pure value : Proc α) :=
  fun x => ⟨value, x, Ageing.refl x, fun _ _ => rfl⟩

theorem bind {program : Proc α} {next : α → Proc β} (first : Smooth setting rel program)
    (rest : ∀ value, Smooth setting rel (next value)) :
    Smooth setting rel (program >>= next) := by
  intro x
  obtain ⟨value, y, moved, runs⟩ := first x
  obtain ⟨last, z, further, ends⟩ := rest value y
  exact ⟨last, z, Ageing.trans x y z moved further, fun site around =>
    (bind_ok (runs site around) next).trans (ends site around)⟩

omit [Ageing rel] in
theorem ite {condition : Prop} [Decidable condition] {first second : Proc α} (yes : Smooth setting rel first)
    (no : Smooth setting rel second) : Smooth setting rel (if condition then first else second) := by
  split
  · exact yes
  · exact no

theorem onlyIf {condition : Prop} [Decidable condition] {program : Proc Unit} (inner : Smooth setting rel program) :
    Smooth setting rel (Stateful.onlyIf condition program) := ite inner (pure _)

omit [Ageing rel] in
theorem weaken {other : Own → Own → Prop} {program : Proc α} (smooth : Smooth setting rel program)
    (wider : ∀ x y, rel x y → other x y) :
    Smooth setting other program := by
  intro x
  obtain ⟨value, y, moved, runs⟩ := smooth x
  exact ⟨value, y, wider x y moved, runs⟩

theorem deref : Smooth setting rel (Sockify.deref setting.id) := by
  intro x
  refine ⟨x.session, x, Ageing.refl x, fun site around => ?_⟩
  rw [← around.id]
  simp [Sockify.deref]

omit [Ageing rel] in
theorem update {f : Session → Session} (moves : ∀ x : Own, rel x { x with session := f x.session }) :
    Smooth setting rel (Sockify.update setting.id f) := by
  intro x
  refine ⟨(), { x with session := f x.session }, moves x, fun site around => ?_⟩
  rw [← around.id]
  simp [Sockify.update, site.put_place]

theorem record (io : Io) (none_ : opens io = []) : Smooth setting rel (Sockify.record setting.id io) := by
  intro x
  refine ⟨(), { x with log := x.log ++ [io] }, Ageing.recorded x io none_, fun site around => ?_⟩
  rw [← around.id]
  simp [Sockify.record, change, site.logged_place]

theorem nextCall : Smooth setting rel Sockify.nextCall :=
  fun x => ⟨x.calls, { x with calls := x.calls + 1 }, Ageing.called x, fun _ _ => rfl⟩

theorem setInterest (side : Side) (events : Option Events) :
    Smooth setting rel (Sockify.setInterest setting.id side events) := by
  intro x
  refine ⟨(), { x with interest := Function.update x.interest side events }, Ageing.watched x _, fun site around => ?_⟩
  rw [← around.id]
  simp [Sockify.setInterest, change, site.withInterest_place]

theorem config : Smooth setting rel (inspect World.config) := by
  intro x
  refine ⟨setting.config, x, Ageing.refl x, fun site around => ?_⟩
  simp [inspect, around.config]

private theorem targetContext : Smooth setting rel (inspect World.targetTlsContext) := by
  intro x
  refine ⟨setting.targetTlsContext, x, Ageing.refl x, fun site around => ?_⟩
  simp [inspect, around.context]

theorem calls : Smooth setting rel (inspect World.calls) := fun x => ⟨x.calls, x, Ageing.refl x, fun _ _ => rfl⟩

/-- An update that leaves the time of the last activity and the descriptors. -/
theorem set {f : Session → Session}
    (same : ∀ s, (f s).lastActivityAt = s.lastActivityAt ∧ sessionDescriptors (f s) = sessionDescriptors s) :
    Smooth setting Idles (Sockify.update setting.id f) :=
  update fun x => Idles.session x (same x.session).1 (same x.session).2

/-- Behind a record of moved data the time of the last activity may be set. -/
theorem recorded {io : Io} {next : Unit → Proc β} (none_ : opens io = [])
    (quiet : active io = false → Smooth setting Idles (next ()))
    (moved : active io = true → Smooth setting Ages (next ())) :
    Smooth setting Idles (Sockify.record setting.id io >>= next) := by
  cases kind : active io with
  | false => exact bind (record io none_) fun _ => quiet kind
  | true =>
    intro x
    obtain ⟨value, y, ⟨more, grown⟩, runs⟩ := moved kind { x with log := x.log ++ [io] }
    refine ⟨value, y, ⟨io :: more, (Grown.recorded x none_).trans grown, fun silent => ?_⟩, fun site around => ?_⟩
    · simp [kind] at silent
    · have written : Sockify.record setting.id io (site.place x) =
          (.ok (), site.place { x with log := x.log ++ [io] }) := by
        rw [← around.id]
        simp [Sockify.record, change, site.logged_place]
      exact (bind_ok written next).trans (runs site around)

end Smooth

namespace Absent
variable {id : SessionId}

theorem pure (value : α) : Absent id (Pure.pure value : Proc α) := ⟨.ok value, fun _ _ => rfl⟩

theorem misses {program : Proc α} (misses : Misses id program) : Absent id program := ⟨_, misses⟩

theorem sessionClose : Absent id (Sockify.sessionClose id) := misses (.deref_bind _)

theorem bind {program : Proc α} {next : α → Proc β} (first : Absent id program)
    (rest : ∀ value, Absent id (next value)) :
    Absent id (program >>= next) := by
  obtain ⟨ends, runs⟩ := first
  cases ends with
  | error reason => exact ⟨.error reason, fun w gone => bind_error (runs w gone) next⟩
  | ok value =>
    obtain ⟨last, after⟩ := rest value
    exact ⟨last, fun w gone => (bind_ok (runs w gone) next).trans (after w gone)⟩

theorem ite {condition : Prop} [Decidable condition] {first second : Proc α} (yes : Absent id first)
    (no : Absent id second) :
    Absent id (if condition then first else second) := by
  split
  · exact yes
  · exact no

theorem onlyIf {condition : Prop} [Decidable condition] {program : Proc Unit} (inner : Absent id program) :
    Absent id (Stateful.onlyIf condition program) := ite inner (pure _)

end Absent

namespace Local

private theorem smooth {program : Proc α} (smooth : Smooth setting rel program) : Local setting rel program := by
  intro x
  obtain ⟨value, y, moved, runs⟩ := smooth x
  refine ⟨⟨.ok value, false, y⟩, moved, fun site around => ?_⟩
  rw [runs site around]
  exact ⟨rfl, rfl⟩

theorem weaken {other : Own → Own → Prop} {program : Proc α} (local_ : Local setting rel program)
    (wider : ∀ x y, rel x y → other x y) :
    Local setting other program := by
  intro x
  obtain ⟨ending, moved, ends⟩ := local_ x
  exact ⟨ending, wider x _ moved, ends⟩

section rules
variable [Ageing rel]

theorem pure (value : α) : Local setting rel (Pure.pure value : Proc α) := smooth (.pure value)

theorem fault (reason : Fault) : Local setting rel (Stateful.fault reason : Proc α) :=
  fun x => ⟨⟨.error reason, false, x⟩, Ageing.refl x, fun _ _ => ⟨rfl, rfl⟩⟩

omit [Ageing rel] in
theorem ite {condition : Prop} [Decidable condition] {first second : Proc α} (yes : Local setting rel first)
    (no : Local setting rel second) : Local setting rel (if condition then first else second) := by
  split
  · exact yes
  · exact no

theorem onlyIf {condition : Prop} [Decidable condition] {program : Proc Unit} (inner : Local setting rel program) :
    Local setting rel (Stateful.onlyIf condition program) := ite inner (pure _)

/-- Sequencing behind a part that keeps the session. -/
theorem after {program : Proc α} {next : α → Proc β} (first : Smooth setting rel program)
    (rest : ∀ value, Local setting rel (next value)) :
    Local setting rel (program >>= next) := by
  intro x
  obtain ⟨value, y, moved, runs⟩ := first x
  obtain ⟨ending, further, ends⟩ := rest value y
  refine ⟨ending, Ageing.trans x y _ moved further, fun site around => ?_⟩
  rw [bind_ok (runs site around) next]
  exact ends site around

/-- Sequencing behind a part that may have released the session. -/
theorem bind {program : Proc α} {next : α → Proc β} (first : Local setting rel program)
    (rest : ∀ value, Local setting rel (next value)) (absent : ∀ value, Absent setting.id (next value)) :
    Local setting rel (program >>= next) := by
  intro x
  obtain ⟨⟨value, released, y⟩, moved, ends⟩ := first x
  cases value with
  | error reason =>
    refine ⟨⟨.error reason, released, y⟩, moved, fun site around => ?_⟩
    obtain ⟨stopped, left⟩ := ends site around
    rw [bind_error (Prod.ext stopped rfl) next]
    exact ⟨rfl, left⟩
  | ok value =>
    cases released with
    | false =>
      obtain ⟨ending, further, last⟩ := rest value y
      refine ⟨ending, Ageing.trans x y _ moved further, fun site around => ?_⟩
      obtain ⟨returned, left⟩ := ends site around
      rw [bind_ok (Prod.ext returned left) next]
      exact last site around
    | true =>
      obtain ⟨final, misses⟩ := absent value
      refine ⟨⟨final, true, y⟩, moved, fun site around => ?_⟩
      obtain ⟨returned, left⟩ := ends site around
      have released : Released site y (program (site.place x)).2 := left
      rw [bind_ok (Prod.ext returned rfl) next, misses _ (around.id ▸ released.gone)]
      exact ⟨rfl, left⟩

theorem sessionClose : Local setting rel (Sockify.sessionClose setting.id) := by
  intro x
  by_cases dead : x.session.closing = .released
  · refine ⟨⟨.ok (), false, x⟩, Ageing.refl x, fun site around => ?_⟩
    rw [← around.id]
    simp [Sockify.sessionClose, Sockify.deref, Bind.bind, dead, Pure.pure, Ending.At]
  · refine ⟨⟨.ok (), true, x⟩, Ageing.refl x, fun site around => ?_⟩
    rw [← around.id]
    obtain ⟨⟨⟩, w, runs, released⟩ := (sessionClose_releases site (b := fun _ _ => False) dead).returns
    rw [runs]
    exact ⟨rfl, released⟩

end rules

/-- Behind a call that moved data the time of the last activity may be set. -/
theorem excused {program : Proc α} {next : α → Proc β} (x : Own) {value : α} {y : Own} {io : Io}
    (moved : active io = true)
    (runs : ∀ site, setting.Around site → program (site.place x) = (.ok value, site.place y))
    (grown : Grown x [io] y) (rest : Local setting Ages (next value)) :
    ∃ ending : Ending β, Idles x ending.own ∧
    ∀ site, setting.Around site → ending.At site ((program >>= next) (site.place x)) := by
  obtain ⟨ending, ⟨more, further⟩, ends⟩ := rest y
  refine ⟨ending, ⟨io :: more, grown.trans further, fun silent => ?_⟩, fun site around => ?_⟩
  · simp [moved] at silent
  · rw [bind_ok (runs site around) next]
    exact ends site around

theorem reads {env : Env} {side : Side} {limit : Nat} {next : Except Err Bytes → Proc β}
    (failed : ∀ error, Local setting Idles (next (.error error)))
    (got : ∀ bytes, Local setting Ages (next (.ok bytes))) :
    Local setting Idles (readSide env setting.id side limit >>= next) := by
  intro x
  let reply := transportRead env x.calls (x.session.transport side) limit
  let y : Own := { x with log := x.log ++ [.read side (x.session.transport side) limit reply], calls := x.calls + 1 }
  have grown : Grown x [.read side (x.session.transport side) limit reply] y := (Grown.called x).trans (.recorded _ rfl)
  have runs : ∀ site, setting.Around site →
      readSide env setting.id side limit (site.place x) = (.ok reply, site.place y) := by
    intro site around
    rw [← around.id]
    simp [readSide, Bind.bind, Sockify.deref, Sockify.nextCall,
      Sockify.record, change, site.called_place, site.logged_place, Pure.pure, y, reply]
  cases answer : reply with
  | ok bytes => exact excused x (by simp [answer, active]) (answer ▸ runs) grown (got bytes)
  | error error =>
    obtain ⟨ending, further, ends⟩ := failed error y
    refine ⟨ending, Ageing.trans x y _ ⟨_, grown, fun _ => rfl⟩ further, fun site around => ?_⟩
    rw [bind_ok (runs site around) next, answer]
    exact ends site around

theorem writes {env : Env} {side : Side} {data : Bytes} {next : Except Err Nat → Proc β}
    (failed : ∀ error, Local setting Idles (next (.error error)))
    (nothing : Local setting Idles (next (.ok 0))) (took : ∀ sent, Local setting Ages (next (.ok sent))) :
    Local setting Idles (writeSide env setting.id side data >>= next) := by
  intro x
  let reply := transportWrite env x.calls (x.session.transport side) data
  let y : Own := { x with log := x.log ++ [.write side (x.session.transport side) data reply], calls := x.calls + 1 }
  have grown : Grown x [.write side (x.session.transport side) data reply] y := (Grown.called x).trans (.recorded _ rfl)
  have runs : ∀ site, setting.Around site →
      writeSide env setting.id side data (site.place x) = (.ok reply, site.place y) := by
    intro site around
    rw [← around.id]
    simp [writeSide, Bind.bind, Sockify.deref,
      Sockify.nextCall, Sockify.record, change, site.called_place, site.logged_place, Pure.pure, y, reply]
  have quiet : ∀ value, reply = value → Local setting Idles (next value) → ∃ ending : Ending β, Idles x ending.own ∧
      ∀ site, setting.Around site → ending.At site ((writeSide env setting.id side data >>= next) (site.place x)) := by
    intro value answer rest
    obtain ⟨ending, further, ends⟩ := rest y
    refine ⟨ending, Ageing.trans x y _ ⟨_, grown, fun _ => rfl⟩ further, fun site around => ?_⟩
    rw [bind_ok (runs site around) next, answer]
    exact ends site around
  cases answer : reply with
  | error error => exact quiet _ answer (failed error)
  | ok sent =>
    by_cases some_ : sent = 0
    · exact quiet _ answer (some_ ▸ nothing)
    · exact excused x (by simp [answer, active, some_]) (answer ▸ runs) grown (took sent)

end Local

/-! The steps of a session that never release it. -/

section steps
variable {env : Env} {side : Side}

private theorem sessionTouch_smooth : Smooth setting Ages (sessionTouch env setting.id) :=
  .bind .calls fun _ => .update fun x => Ages.session x rfl

private theorem sessionSetClientOut_smooth (data : Bytes) :
    Smooth setting Idles (sessionSetClientOut setting.id data) :=
  .bind .deref fun _ => .ite (.pure _) (.ite (.pure _)
    (.bind (.set fun _ => ⟨rfl, rfl⟩) fun _ => .bind (.record _ rfl) fun _ => .pure _))

private theorem sessionMakeWsFrame_smooth (opcode : Nat) (payload : Bytes) :
    Smooth setting Idles (sessionMakeWsFrame setting.id opcode payload) := by
  refine .bind .deref fun s => .ite (.pure _) ?_
  split
  · exact .pure _
  · exact .bind (.set fun _ => ⟨rfl, rfl⟩) fun _ => .bind (.record _ rfl) fun _ => .pure _

private theorem sessionRegisterTarget_smooth (env : Env) :
    Smooth setting Idles (sessionRegisterTarget env setting.id) := by
  refine .bind .deref fun s => .ite (.pure _) (.bind .nextCall fun n => ?_)
  split
  · exact .pure _
  · exact .bind (.setInterest _ _) fun _ => .bind (.set fun _ => ⟨rfl, rfl⟩) fun _ => .pure _

/-- The connect hands its descriptor to a session that has none for its target. -/
theorem sessionStartTarget_smooth : Smooth setting Idles (sessionStartTarget env setting.id) := by
  intro x
  by_cases begun : x.session.targetFd ≠ none
  · refine ⟨.ok (), x, Ageing.refl x, fun site around => ?_⟩
    rw [← around.id]
    simp [sessionStartTarget, Bind.bind, deref, begun, Pure.pure]
  · rw [not_not] at begun
    let asked : Own := { x with log := x.log ++ [.connect (env.connect x.calls)], calls := x.calls + 1 }
    cases answer : env.connect x.calls with
    | error error =>
      refine ⟨.error error, asked, ⟨_, ⟨rfl, ?_⟩, fun _ => rfl⟩, fun site around => ?_⟩
      · simp [answer, opens, asked]
      · rw [← around.id]
        simp [sessionStartTarget, Bind.bind,
          deref, begun, nextCall, record, change, site.called_place, site.logged_place, Pure.pure, asked, answer]
    | ok handed =>
      obtain ⟨fd, inProgress⟩ := handed
      let starts (s : Session) : Session := { s with
        targetFd := some fd, targetConnecting := inProgress, connectStartedAt := env.time (x.calls + 1)
        targetTransport := transportInitPlain (some fd) }
      let started : Own := { asked with session := starts x.session }
      obtain ⟨value, y, registers, runs⟩ := sessionRegisterTarget_smooth env started
      have opened : Idles x started := ⟨[.connect (env.connect x.calls)],
        ⟨rfl, by simp [sessionDescriptors, begun, answer, opens, started, starts]⟩, fun _ => rfl⟩
      refine ⟨value, y, Ageing.trans x started y opened registers, fun site around => ?_⟩
      rw [← runs site around, ← around.id]
      simp [sessionStartTarget, Bind.bind, deref, update, begun,
        nextCall, record, change, site.called_place, site.logged_place, site.put_place,
        answer, started, asked, starts]

private theorem targetInitTls_smooth : Smooth setting Idles (targetInitTls env setting.id) := by
  refine .bind .config fun config =>
      .bind .targetContext fun context => .bind .nextCall fun _ => .bind (.set fun _ => ⟨rfl, rfl⟩) fun _ =>
    .ite (.pure _) ?_
  refine .bind .deref fun s => .bind .nextCall fun n => ?_
  dsimp only
  split
  · exact .pure _
  · exact .bind (.set fun _ => ⟨rfl, rfl⟩) fun _ => .pure _

private theorem sessionCompleteTargetConnect_smooth :
    Smooth setting Idles (sessionCompleteTargetConnect env setting.id) := by
  refine .bind .deref fun s =>
    .ite (.pure _) (.bind .nextCall fun n => .recorded rfl (fun quiet => ?_) fun _ => .ite (.pure _) ?_)
  · have failed : netSocketError env n s.targetFd ≠ .ok 0 := by
      intro same
      simp [same, active] at quiet
    rw [if_pos failed]
    exact .pure _
  · exact .bind (.update fun x => Ages.session x rfl) fun _ => .bind .config fun config =>
      .ite (targetInitTls_smooth.weaken fun _ _ => Idles.ages)
        (.bind (.update fun x => Ages.session x rfl) fun _ => .pure _)

private theorem sessionDriveClientTls_smooth : Smooth setting Idles (sessionDriveClientTls env setting.id) := by
  refine .bind .deref fun s => .ite (.pure _) (.bind .nextCall fun n => .bind (.record _ rfl) fun _ => ?_)
  split
  · exact .bind (.set fun _ => ⟨rfl, rfl⟩) fun _ => .pure _
  · exact .pure _

private theorem sessionDriveTargetTls_smooth : Smooth setting Idles (sessionDriveTargetTls env setting.id) := by
  refine .bind .deref fun s => .ite (.pure _) (.bind .nextCall fun n => .bind (.record _ rfl) fun _ => ?_)
  split
  · exact .bind (.set fun _ => ⟨rfl, rfl⟩) fun _ => .pure _
  · exact .pure _

private theorem processDone_smooth : Smooth setting Idles (processDone setting.id) :=
  .bind .deref fun _ => .ite (.pure _) (.pure _)

private theorem loopModify_smooth (events : Events) : Smooth setting Idles (loopModify env setting.id side events) := by
  refine .bind .nextCall fun n => ?_
  split
  · exact .setInterest _ _
  · exact .pure _

private theorem transportWantsCalls_smooth : Smooth setting Idles transportWantsCalls :=
  .bind .nextCall fun _ => .bind .nextCall fun _ => .pure _

private theorem sessionUpdateEvents_smooth : Smooth setting Idles (sessionUpdateEvents env setting.id) := by
  refine .bind .deref fun _ =>
    .ite (.pure _) (.bind .calls fun _ => .bind (.onlyIf transportWantsCalls_smooth) fun _ => ?_)
  refine .bind (.onlyIf (loopModify_smooth _)) fun _ =>
    .bind .calls fun _ => .bind (.onlyIf transportWantsCalls_smooth) fun _ => ?_
  exact .onlyIf (loopModify_smooth _)

end steps

/-! The handlers, part by part. -/

section handlers
variable {env : Env}

private theorem sessionHandleWsMessage_local (msg : WsMessage) :
    Local setting Idles (sessionHandleWsMessage setting.id msg) := by
  refine .ite ?_ (.ite ?_ (.ite ?_ (.pure _)))
  · exact .after .deref fun s => .after (.set fun _ => ⟨rfl, rfl⟩) fun _ =>
      .after (.record _ rfl) fun _ => .onlyIf .sessionClose
  · exact .after (sessionMakeWsFrame_smooth _ _) fun rc => .onlyIf .sessionClose
  · exact .smooth (.bind (.set fun _ => ⟨rfl, rfl⟩) fun _ => .bind .deref fun s => .onlyIf
      (.bind (sessionMakeWsFrame_smooth _ _) fun rc => .onlyIf (.set fun _ => ⟨rfl, rfl⟩)))

private theorem processLoop_absent (fuel : Nat) (data : Bytes) :
    Absent setting.id (processLoop setting.id fuel data) := by
  cases fuel with
  | zero => exact ⟨_, fun _ _ => rfl⟩
  | succ fuel => exact .ite (.misses (.deref_bind _)) (.misses (.deref_bind _))

private theorem processLoop_local (fuel : Nat) (data : Bytes) :
    Local setting Idles (processLoop setting.id fuel data) := by
  induction fuel generalizing data with
  | zero => exact .fault _
  | succ fuel ih =>
    refine .ite (.smooth processDone_smooth) (.after .deref fun s => .ite (.smooth processDone_smooth) (.ite ?_ ?_))
    · exact .after (.record _ rfl) fun _ => .pure _
    · refine .after (.set fun _ => ⟨rfl, rfl⟩) fun _ => .after (.record _ rfl) fun _ => ?_
      split
      · exact .bind (sessionHandleWsMessage_local _) (fun _ => ih _) fun _ => processLoop_absent _ _
      · exact .ite (.smooth processDone_smooth) (ih _)
      · exact .pure _

private theorem sessionProcessWsBytes_local (data : Bytes) : Local setting Idles
    (sessionProcessWsBytes setting.id data) :=
  processLoop_local _ _

private theorem handshakeRest_local (consumed : Nat) : Local setting Idles (handshakeRest setting.id consumed) := by
  refine .after .deref fun s => .ite ?_ (.smooth (.set fun _ => ⟨rfl, rfl⟩))
  refine .bind (sessionProcessWsBytes_local _)
    (fun rc => .ite .sessionClose (.smooth (.set fun _ => ⟨rfl, rfl⟩))) fun rc => ?_
  exact .ite .sessionClose (.misses fun w gone => by simp [update, World.session?, gone])

private theorem handshakeAccepted_local (consumed : Nat) :
    Local setting Idles (handshakeAccepted env setting.id consumed) :=
  .after (.set fun _ => ⟨rfl, rfl⟩) fun _ =>
    .after sessionStartTarget_smooth fun _ => .ite .sessionClose (handshakeRest_local _)

private theorem sessionHandleHandshakeBytes_local (data : Bytes) :
    Local setting Idles (sessionHandleHandshakeBytes env setting.id data) := by
  refine .after .deref fun s =>
    .ite .sessionClose (.after (.set fun _ => ⟨rfl, rfl⟩) fun _ => .after .deref fun t => ?_)
  split
  · exact .pure _
  · exact .sessionClose
  · exact .after (sessionSetClientOut_smooth _) fun rc => .ite .sessionClose (handshakeAccepted_local _)

private theorem readClientBytes_local (bytes : Bytes) : Local setting Idles (readClientBytes env setting.id bytes) := by
  refine .after .deref fun s => .ite ?_ ?_
  · refine .bind (sessionHandleHandshakeBytes_local _) (fun _ => ?_) fun _ => .misses (.deref_bind _)
    exact .after .deref fun t => .ite (.pure _) (.pure _)
  · refine .bind (sessionProcessWsBytes_local _) (fun rc => .ite ?_ ?_) fun rc => .ite ?_ (.misses (.deref_bind _))
    · exact .bind .sessionClose (fun _ => .pure _) fun _ => .pure _
    · exact .after .deref fun t => .pure _
    · exact .bind .sessionClose fun _ => .pure _

private theorem readClientLoop_absent (budget : Nat) : Absent setting.id (readClientLoop env setting.id budget) := by
  cases budget <;> exact .misses (.deref_bind _)

private theorem readClientLoop_local (budget : Nat) : Local setting Idles (readClientLoop env setting.id budget) := by
  induction budget with
  | zero => exact .after .deref fun s => .pure _
  | succ budget ih =>
    refine .after .deref fun s => .ite (.pure _) (.ite (.pure _) (.reads (fun error => ?_) fun bytes => ?_))
    · cases error <;> first | exact .pure _ | exact .sessionClose
    · refine .after sessionTouch_smooth fun _ =>
        .bind ((readClientBytes_local bytes).weaken fun _ _ => Idles.ages) (fun more => ?_) fun more => ?_
      · exact .onlyIf (ih.weaken fun _ _ => Idles.ages)
      · exact .onlyIf (readClientLoop_absent budget)

private theorem sessionReadClient_local : Local setting Idles (sessionReadClient env setting.id) :=
  .after .config fun _ => readClientLoop_local _

private theorem writeClientLoop_local (budget : Nat) : Local setting Idles (writeClientLoop env setting.id budget) := by
  induction budget with
  | zero => exact .after .deref fun s => .pure _
  | succ budget ih =>
    refine .after .deref fun s => .ite (.writes (fun error => ?_) ?_ fun sent => ?_) (.pure _)
    · cases error <;> first | exact .pure _ | exact .bind .sessionClose (fun _ => .pure _) fun _ => .pure _
    · exact .after (.set fun _ => ⟨rfl, rfl⟩) fun _ => .after (.pure _) fun _ => ih
    · exact .after (.update fun x => Ages.session x rfl) fun _ => .after (.onlyIf sessionTouch_smooth) fun _ =>
        ih.weaken fun _ _ => Idles.ages

private theorem refillClientOut_local : Local setting Idles (refillClientOut setting.id) := by
  refine .after .deref fun s => .ite (.pure _) (.after (.set fun _ => ⟨rfl, rfl⟩) fun _ =>
    .after .deref fun t => .ite ?_ (.ite .sessionClose (.ite ?_ (.pure _))))
  · exact .after (sessionMakeWsFrame_smooth _ _) fun rc => .onlyIf (.smooth (.set fun _ => ⟨rfl, rfl⟩))
  · exact .after (.set fun _ => ⟨rfl, rfl⟩) fun _ =>
      .after (sessionMakeWsFrame_smooth _ _) fun rc => .onlyIf .sessionClose

private theorem sessionWriteClient_local : Local setting Idles (sessionWriteClient env setting.id) :=
  .after .config fun _ => .bind (writeClientLoop_local _) (fun _ => .onlyIf refillClientOut_local) fun _ =>
    .onlyIf (.misses (.deref_bind _))

private theorem readTargetLoop_local (budget : Nat) : Local setting Idles (readTargetLoop env setting.id budget) := by
  induction budget with
  | zero => exact .after .deref fun s => .pure _
  | succ budget ih =>
    refine .after .deref fun s => .ite (.pure _) (.reads (fun error => ?_) fun bytes => ?_)
    · cases error <;> first | exact .pure _ | exact .sessionClose
    · refine .after sessionTouch_smooth fun _ =>
        .after .deref fun t => .after (.update fun x => Ages.session x rfl) fun _ => ?_
      exact .after (.record _ rfl) fun _ => .ite .sessionClose (ih.weaken fun _ _ => Idles.ages)

private theorem sessionReadTarget_local : Local setting Idles (sessionReadTarget env setting.id) :=
  .after .config fun _ => readTargetLoop_local _

private theorem writeTargetLoop_local (budget : Nat) : Local setting Idles (writeTargetLoop env setting.id budget) := by
  induction budget with
  | zero => exact .after .deref fun s => .pure _
  | succ budget ih =>
    refine .after .deref fun s => .ite (.pure _) (.writes (fun error => ?_) ?_ fun sent => ?_)
    · cases error <;> first | exact .pure _ | exact .sessionClose
    · exact .after (.pure _) fun _ => .after (.set fun _ => ⟨rfl, rfl⟩) fun _ => ih
    · exact .after (.onlyIf sessionTouch_smooth) fun _ => .after (.update fun x => Ages.session x rfl) fun _ =>
        ih.weaken fun _ _ => Idles.ages

private theorem sessionWriteTarget_local : Local setting Idles (sessionWriteTarget env setting.id) :=
  .after .config fun _ => writeTargetLoop_local _

private theorem runUnlessReleased_local {part rest : Proc Unit} (first : Local setting Idles part)
    (last : Local setting Idles rest) :
    Local setting Idles (runUnlessReleased setting.id part rest) :=
  .bind first (fun _ => .after .deref fun _ => .ite (.pure _) last) fun _ => .misses (.deref_bind _)

private theorem clientTransfer_local (events : Events) :
    Local setting Idles (clientTransfer env setting.id events) := by
  have write : Local setting Idles
      (if events.write = true then runUnlessReleased setting.id (sessionWriteClient env setting.id)
      (sessionUpdateEvents env setting.id) else sessionUpdateEvents env setting.id) :=
    .ite (runUnlessReleased_local sessionWriteClient_local (.smooth sessionUpdateEvents_smooth))
      (.smooth sessionUpdateEvents_smooth)
  exact .ite (runUnlessReleased_local sessionReadClient_local write) write

theorem sessionHandleClientEvent_local (events : Events) :
    Local setting Idles (sessionHandleClientEvent env setting.id events) := by
  refine .ite .sessionClose (.after .deref fun s => .ite ?_ (clientTransfer_local events))
  refine .after sessionDriveClientTls_smooth fun rc =>
    .ite (.smooth sessionUpdateEvents_smooth) (.after .deref fun t => ?_)
  exact .ite .sessionClose (clientTransfer_local events)

private theorem targetTransfer_local (events : Events) :
    Local setting Idles (targetTransfer env setting.id events) := by
  have write : Local setting Idles
      (if events.write = true then runUnlessReleased setting.id (sessionWriteTarget env setting.id)
      (sessionUpdateEvents env setting.id) else sessionUpdateEvents env setting.id) :=
    .ite (runUnlessReleased_local sessionWriteTarget_local (.smooth sessionUpdateEvents_smooth))
      (.smooth sessionUpdateEvents_smooth)
  exact .ite (runUnlessReleased_local sessionReadTarget_local write) write

private theorem targetSecured_local (events : Events) : Local setting Idles (targetSecured env setting.id events) := by
  refine .after .deref fun s => .ite ?_ (targetTransfer_local events)
  refine .after sessionDriveTargetTls_smooth fun rc =>
    .ite (.smooth sessionUpdateEvents_smooth) (.after .deref fun t => ?_)
  exact .ite .sessionClose (targetTransfer_local events)

theorem sessionHandleTargetEvent_local (events : Events) :
    Local setting Idles (sessionHandleTargetEvent env setting.id events) := by
  refine .ite .sessionClose (.after .deref fun s => .ite ?_ (targetSecured_local events))
  exact .after sessionCompleteTargetConnect_smooth fun rc => .ite .sessionClose (targetSecured_local events)

end handlers

end Sockify.Proofs.Locality
