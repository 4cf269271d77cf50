import Mathlib.Logic.Relation

/-! Computations that update a state and may stop on a fault. The state reached
so far survives a fault, so that what happened before it can still be stated.
`Ensures` is the weakest precondition of a computation: it is computed by the
equations below, one for each way of building a computation. -/

universe u v w

/-- A computation over states `σ` that returns a value or stops with a fault. -/
def Stateful (σ : Type u) (ε : Type v) (α : Type w) : Type (max u v w) := σ → Except ε α × σ

namespace Stateful

variable {σ : Type u} {ε : Type v} {α β : Type w}

instance : Monad (Stateful.{u, v, w} σ ε) where
  pure value := fun state => (.ok value, state)
  bind program next := fun state =>
    match program state with
    | (.ok value, after) => next value after
    | (.error fault, after) => (.error fault, after)

def fault (reason : ε) : Stateful σ ε α := fun state => (.error reason, state)

def inspect (read : σ → α) : Stateful σ ε α := fun state => (.ok (read state), state)

def change (f : σ → σ) : Stateful σ ε PUnit := fun state => (.ok ⟨⟩, f state)

/-- Run a step only when a condition holds. -/
def onlyIf (condition : Prop) [Decidable condition] (program : Stateful σ ε PUnit) : Stateful σ ε PUnit :=
  if condition then program else pure ⟨⟩

/-- Weakest precondition. `post` describes a returned value and the state it
leaves; `broken` describes a fault and the state it leaves. -/
def Ensures (broken : ε → σ → Prop) (program : Stateful σ ε α) (post : α → σ → Prop) (state : σ) : Prop :=
  match program state with
  | (.ok value, after) => post value after
  | (.error reason, after) => broken reason after

variable {broken : ε → σ → Prop}

@[simp] theorem ensures_pure (value : α) (post : α → σ → Prop) (state : σ) :
    Ensures broken (pure value : Stateful σ ε α) post state ↔ post value state := Iff.rfl

@[simp] theorem ensures_bind (program : Stateful σ ε α) (next : α → Stateful σ ε β)
    (post : β → σ → Prop) (state : σ) :
    Ensures broken (program >>= next) post state ↔
      Ensures broken program (fun value => Ensures broken (next value) post) state := by
  simp only [Ensures, bind]
  rcases program state with ⟨_ | _, _⟩ <;> rfl

@[simp] theorem ensures_inspect (read : σ → α) (post : α → σ → Prop) (state : σ) :
    Ensures broken (inspect read : Stateful σ ε α) post state ↔ post (read state) state := Iff.rfl

@[simp] theorem ensures_change (f : σ → σ) (post : PUnit → σ → Prop) (state : σ) :
    Ensures broken (change f : Stateful σ ε PUnit) post state ↔ post ⟨⟩ (f state) := Iff.rfl

theorem ensures_onlyIf (condition : Prop) [Decidable condition] (program : Stateful σ ε PUnit)
    (post : PUnit → σ → Prop) (state : σ) :
    Ensures broken (onlyIf condition program) post state ↔
      if condition then Ensures broken program post state else post ⟨⟩ state := by
  unfold onlyIf
  split <;> rfl

/-- Behind a computation that returns comes the rest. -/
theorem bind_ok {program : Stateful σ ε α} {value : α} {state after : σ} (runs : program state = (.ok value, after))
    (next : α → Stateful σ ε β) : (program >>= next) state = next value after := by
  simp only [bind, runs]

theorem ensures_of_run {program : Stateful σ ε α} {post : α → σ → Prop} {value : α} {state after : σ}
    (runs : program state = (.ok value, after)) (holds : post value after) : Ensures broken program post state := by
  unfold Ensures
  rw [runs]
  exact holds

/-- Consequence: a weaker postcondition is easier to ensure. -/
theorem Ensures.weaken {broken weaker : ε → σ → Prop} {program : Stateful σ ε α}
    {post other : α → σ → Prop} {state : σ} (holds : Ensures broken program post state)
    (returns : ∀ value after, post value after → other value after)
    (stops : ∀ reason after, broken reason after → weaker reason after) :
    Ensures weaker program other state := by
  unfold Ensures at holds ⊢
  split at holds
  · exact returns _ _ holds
  · exact stops _ _ holds

/-- What the last part of a computation ensures from everywhere. -/
theorem ensures_last {program : Stateful σ ε α} {next : α → Stateful σ ε β} {post : β → σ → Prop}
    (rest : ∀ value state, Ensures (fun _ _ => True) (next value) post state) (state : σ) :
    Ensures (fun _ _ => True) (program >>= next) post state := by
  rw [ensures_bind]
  unfold Ensures
  split
  · exact rest _ _
  · trivial

/-- A computation that must not stop returns. -/
theorem Ensures.returns {program : Stateful σ ε α} {post : α → σ → Prop} {state : σ}
    (holds : Ensures (fun _ _ => False) program post state) :
    ∃ value after, program state = (.ok value, after) ∧ post value after := by
  unfold Ensures at holds
  split at holds
  next value after same => exact ⟨value, after, same, holds⟩
  next => exact holds.elim

theorem Ensures.both {program : Stateful σ ε α} {post other : α → σ → Prop}
    {broken second : ε → σ → Prop} {state : σ}
    (first : Ensures broken program post state) (last : Ensures second program other state) :
    Ensures (fun reason after => broken reason after ∧ second reason after) program
      (fun value after => post value after ∧ other value after) state := by
  unfold Ensures at first last ⊢
  split <;> simp_all

/-- A state property that a computation keeps, whether it returns or stops. -/
def Keeps (kept : σ → Prop) (program : Stateful σ ε α) : Prop :=
  ∀ state, kept state → Ensures (fun _ => kept) program (fun _ => kept) state

namespace Keeps
variable {kept : σ → Prop}

theorem final {program : Stateful σ ε α} {state : σ} (keeps : Keeps kept program) (holds : kept state) :
    kept (program state).2 := by
  have ensured := keeps state holds
  unfold Ensures at ensured
  split at ensured
  next same => rw [same]; exact ensured
  next same => rw [same]; exact ensured

theorem pure (value : α) : Keeps kept (Pure.pure value : Stateful σ ε α) :=
  fun _ holds => holds

theorem bind {program : Stateful σ ε α} {next : α → Stateful σ ε β}
    (first : Keeps kept program) (rest : ∀ value, Keeps kept (next value)) :
    Keeps kept (program >>= next) := by
  intro state holds
  rw [ensures_bind]
  exact (first state holds).weaken (fun value after later => rest value after later) (fun _ _ later => later)

theorem fault (reason : ε) : Keeps kept (Stateful.fault reason : Stateful σ ε α) :=
  fun _ holds => holds

theorem inspect (read : σ → α) : Keeps kept (Stateful.inspect read : Stateful σ ε α) :=
  fun _ holds => holds

theorem change {f : σ → σ} (preserved : ∀ state, kept state → kept (f state)) :
    Keeps kept (Stateful.change f : Stateful σ ε PUnit) :=
  fun state holds => preserved state holds

theorem ite {condition : Prop} [Decidable condition] {first second : Stateful σ ε α}
    (yes : condition → Keeps kept first) (no : ¬ condition → Keeps kept second) :
    Keeps kept (if condition then first else second) := by
  split
  · exact yes ‹_›
  · exact no ‹_›

theorem onlyIf {condition : Prop} [Decidable condition] {program : Stateful σ ε PUnit}
    (inner : condition → Keeps kept program) : Keeps kept (Stateful.onlyIf condition program) :=
  ite inner (fun _ => pure _)

/-- What the rest keeps holds behind a first step that establishes it. -/
theorem behind {first : Stateful σ ε α} {rest : α → Stateful σ ε β} {final : σ → Prop} {state : σ}
    (establishes : Ensures (fun _ => final) first (fun _ => kept) state)
    (keeps : ∀ value, Keeps kept (rest value)) (enough : ∀ after, kept after → final after) :
    Ensures (fun _ => final) (first >>= rest) (fun _ => final) state := by
  rw [ensures_bind]
  exact establishes.weaken (fun value after holds => (keeps value after holds).weaken (fun _ => enough) fun _ =>
    enough) fun _ _ stopped => stopped

end Keeps

/-- A relation between the state before a computation and the one it leaves,
whether it returns or stops; and it stops for expected reasons only. -/
def Advances (expected : ε → Prop) (rel : σ → σ → Prop) (program : Stateful σ ε α) : Prop :=
  ∀ state, Ensures (fun reason after => expected reason ∧ rel state after) program
    (fun _ after => rel state after) state

namespace Advances
variable {expected : ε → Prop} {rel : σ → σ → Prop}

theorem pure (refl : ∀ state, rel state state) (value : α) : Advances expected rel (Pure.pure value : Stateful σ ε α) :=
  fun state => refl state

theorem bind (trans : ∀ a b c, rel a b → rel b c → rel a c) {program : Stateful σ ε α} {next : α → Stateful σ ε β}
    (first : Advances expected rel program) (rest : ∀ value, Advances expected rel (next value)) :
    Advances expected rel (program >>= next) := by
  intro state
  rw [ensures_bind]
  refine (first state).weaken (fun value after step => ?_) (fun _ _ stopped => stopped)
  exact (rest value after).weaken (fun _ _ later => trans _ _ _ step later) fun _ _ ⟨reason, later⟩ =>
    ⟨reason, trans _ _ _ step later⟩

theorem inspect (refl : ∀ state, rel state state) (read : σ → α) :
    Advances expected rel (Stateful.inspect read : Stateful σ ε α) :=
  fun state => refl state

theorem change {f : σ → σ} (moves : ∀ state, rel state (f state)) :
    Advances expected rel (Stateful.change f : Stateful σ ε PUnit) :=
  fun state => moves state

theorem onlyIf (refl : ∀ state, rel state state) {condition : Prop} [Decidable condition] {program : Stateful σ ε PUnit}
    (inner : Advances expected rel program) : Advances expected rel (Stateful.onlyIf condition program) := by
  unfold Stateful.onlyIf
  split
  · exact inner
  · exact pure refl _

end Advances

end Stateful
