import Sockify.Lib.Stateful

/-! Computations whose cost is bounded. A meter reads off the state what has been
paid so far, and what is spent: what has been paid and what is still to come. An
early part of a computation can so pay for a later one, and a computation that
stops pays no more. -/

universe u v w

namespace Stateful

structure Meter (σ : Type u) where
  paid : σ → Nat
  spent : σ → Nat
  covered : ∀ state, paid state ≤ spent state

variable {σ : Type u} {ε : Type v} {α β : Type w}

/-- From a state that satisfies `before`, the computation leaves one that
satisfies `after`. If it returns, what is spent rises by no more than the price
of the value; if it stops, it has paid no more than `cap` above it. -/
def Charges (before after : σ → Prop) (meter : Meter σ) (price : α → Nat) (cap : Nat)
    (program : Stateful σ ε α) : Prop :=
  ∀ state, before state →
    Ensures (fun _ left => after left ∧ meter.paid left ≤ meter.spent state + cap) program
      (fun value left => after left ∧ meter.spent left ≤ meter.spent state + price value) state

/-- The price is the same for every value, and for stopping. -/
abbrev Spends (before after : σ → Prop) (meter : Meter σ) (bound : Nat) (program : Stateful σ ε α) : Prop :=
  Charges before after meter (fun _ => bound) bound program

namespace Charges
variable {kept before middle after : σ → Prop} {meter : Meter σ} {price other : α → Nat} {cap bound more : Nat}

theorem pure (value : α) : Charges kept kept meter price cap (Pure.pure value : Stateful σ ε α) :=
  fun _ holds => ⟨holds, Nat.le_add_right _ _⟩

theorem weaken {program : Stateful σ ε α} {limit : Nat}
    (charges : Charges before after meter price cap program)
    (cheaper : ∀ value, price value ≤ other value) (less : cap ≤ limit) :
    Charges before after meter other limit program :=
  fun state holds => (charges state holds).weaken
    (fun value _ both => ⟨both.1, Nat.le_trans both.2 (Nat.add_le_add_left (cheaper value) _)⟩)
    fun _ _ both => ⟨both.1, Nat.le_trans both.2 (Nat.add_le_add_left less _)⟩

/-- A computation that starts from less, or leaves more than is asked for. -/
theorem within {narrow wide : σ → Prop} {program : Stateful σ ε α}
    (charges : Charges before after meter price cap program)
    (starts : ∀ state, narrow state → before state) (leaves : ∀ state, after state → wide state) :
    Charges narrow wide meter price cap program :=
  fun state holds => (charges state (starts state holds)).weaken (fun _ left both => ⟨leaves left both.1, both.2⟩)
    fun _ left both => ⟨leaves left both.1, both.2⟩

/-- What the first part charged for its value leaves enough for what follows it.
The first part may stop, so what it leaves has to be enough. -/
theorem settle {program : Stateful σ ε α} {next : α → Stateful σ ε β} {total : β → Nat} {limit : Nat}
    (first : Charges before middle meter price cap program) {rest : α → β → Nat} {last : α → Nat}
    (follows : ∀ value, Charges middle after meter (rest value) (last value) (next value))
    (enough : ∀ state, middle state → after state)
    (returns : ∀ value result, price value + rest value result ≤ total result)
    (stops : ∀ value, price value + last value ≤ limit) (less : cap ≤ limit) :
    Charges before after meter total limit (program >>= next) := by
  intro state holds
  rw [ensures_bind]
  refine (first state holds).weaken (fun value left both => ?_) fun _ left both => ?_
  · obtain ⟨still, rise⟩ := both
    refine (follows value left still).weaken (fun result _ ends => ⟨ends.1, ?_⟩) fun _ _ ends => ⟨ends.1, ?_⟩
    · have within := returns value result
      have further := ends.2
      omega
    · have within := stops value
      have further := ends.2
      omega
  · exact ⟨enough left both.1, Nat.le_trans both.2 (Nat.add_le_add_left less _)⟩

/-- Costs add up. -/
theorem behind {program : Stateful σ ε α} {next : α → Stateful σ ε β} {price : β → Nat}
    (first : Spends before middle meter bound program)
    (rest : ∀ value, Charges middle after meter price cap (next value))
    (enough : ∀ state, middle state → after state) :
    Charges before after meter (fun result => bound + price result) (bound + cap) (program >>= next) :=
  first.settle rest enough (fun _ _ => Nat.le_refl _) (fun _ => Nat.le_refl _) (Nat.le_add_right _ _)

/-- A first part that costs nothing. -/
theorem free {program : Stateful σ ε α} {next : α → Stateful σ ε β} {price : β → Nat}
    (first : Spends kept kept meter 0 program)
    (rest : ∀ value, Charges kept kept meter price cap (next value)) :
    Charges kept kept meter price cap (program >>= next) :=
  first.settle rest (fun _ holds => holds) (fun _ _ => Nat.le_of_eq (Nat.zero_add _))
    (fun _ => Nat.le_of_eq (Nat.zero_add _)) (Nat.zero_le _)

/-- A computation that ends with a value that is as dear as it is. -/
theorem ends {program : Stateful σ ε α} {price : β → Nat} (first : Spends kept kept meter bound program)
    (value : β) (dear : bound ≤ price value) (less : bound ≤ cap) :
    Charges kept kept meter price cap (program >>= fun _ => Pure.pure value) := by
  intro state holds
  rw [ensures_bind]
  exact (first state holds).weaken (fun _ _ both => ⟨both.1, Nat.le_trans both.2 (Nat.add_le_add_left dear _)⟩)
    fun _ _ both => ⟨both.1, Nat.le_trans both.2 (Nat.add_le_add_left less _)⟩

theorem ite {condition : Prop} [Decidable condition] {yes no : Stateful σ ε α}
    (holds : condition → Charges before after meter price cap yes)
    (fails : ¬ condition → Charges before after meter price cap no) :
    Charges before after meter price cap (if condition then yes else no) := by
  split
  · exact holds ‹_›
  · exact fails ‹_›

/-- What is read off the state is known behind it. -/
theorem knowing {read : σ → β} {next : β → Stateful σ ε α}
    (rest : ∀ value, Charges (fun state => before state ∧ read state = value) after meter price cap (next value)) :
    Charges before after meter price cap (Stateful.inspect read >>= next) :=
  fun state holds => rest (read state) state ⟨holds, rfl⟩

end Charges

namespace Spends
variable {kept before middle after : σ → Prop} {meter : Meter σ} {bound more : Nat}

theorem pure (value : α) : Spends kept kept meter bound (Pure.pure value : Stateful σ ε α) := Charges.pure value

theorem fault (reason : ε) : Spends kept kept meter bound (Stateful.fault reason : Stateful σ ε α) :=
  fun state holds => ⟨holds, Nat.le_trans (meter.covered state) (Nat.le_add_right _ _)⟩

theorem inspect (read : σ → α) : Spends kept kept meter bound (Stateful.inspect read : Stateful σ ε α) :=
  fun _ holds => ⟨holds, Nat.le_add_right _ _⟩

theorem change {f : σ → σ}
    (moves : ∀ state, before state → after (f state) ∧ meter.spent (f state) ≤ meter.spent state + bound) :
    Spends before after meter bound (Stateful.change f : Stateful σ ε PUnit) := moves

theorem weaken {program : Stateful σ ε α} (spends : Spends before after meter bound program) (less : bound ≤ more) :
    Spends before after meter more program := Charges.weaken spends (fun _ => less) less

theorem sequence {program : Stateful σ ε α} {next : α → Stateful σ ε β}
    (first : Spends before middle meter bound program)
    (rest : ∀ value, Spends middle after meter more (next value)) (enough : ∀ state, middle state → after state) :
    Spends before after meter (bound + more) (program >>= next) := Charges.behind first rest enough

/-- A first part, which does not stop, pays for the rest. -/
theorem prepaid {program : Stateful σ ε α} {next : α → Stateful σ ε β}
    (first : ∀ state, before state →
      ∃ value left, program state = (.ok value, left) ∧ middle left ∧ meter.spent left + more ≤ meter.spent state)
    (rest : ∀ value, Spends middle after meter more (next value)) :
    Spends before after meter 0 (program >>= next) := by
  intro state holds
  obtain ⟨value, left, runs, still, fall⟩ := first state holds
  rw [ensures_bind]
  refine ensures_of_run runs
    ((rest value left still).weaken (fun _ _ both => ⟨both.1, ?_⟩) fun _ _ both => ⟨both.1, ?_⟩)
  · exact Nat.le_trans both.2 fall
  · exact Nat.le_trans both.2 fall

theorem bind {program : Stateful σ ε α} {next : α → Stateful σ ε β}
    (first : Spends kept kept meter bound program)
    (rest : ∀ value, Spends kept kept meter more (next value)) :
    Spends kept kept meter (bound + more) (program >>= next) :=
  first.sequence rest fun _ holds => holds

theorem free {program : Stateful σ ε α} {next : α → Stateful σ ε β} (first : Spends kept kept meter 0 program)
    (rest : ∀ value, Spends kept kept meter bound (next value)) : Spends kept kept meter bound (program >>= next) :=
  Charges.free first rest

/-- A rest that costs nothing. -/
theorem last {program : Stateful σ ε α} {next : α → Stateful σ ε β} (first : Spends kept kept meter bound program)
    (rest : ∀ value, Spends kept kept meter 0 (next value)) : Spends kept kept meter bound (program >>= next) :=
  first.bind rest

theorem ite {condition : Prop} [Decidable condition] {yes no : Stateful σ ε α}
    (holds : condition → Spends before after meter bound yes)
    (fails : ¬ condition → Spends before after meter bound no) :
    Spends before after meter bound (if condition then yes else no) :=
  Charges.ite holds fails

theorem onlyIf {condition : Prop} [Decidable condition] {program : Stateful σ ε PUnit}
    (inner : condition → Spends kept kept meter bound program) :
    Spends kept kept meter bound (Stateful.onlyIf condition program) :=
  ite inner fun _ => pure _

end Spends

end Stateful
