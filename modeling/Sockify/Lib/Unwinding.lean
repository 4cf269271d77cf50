import Mathlib.Data.List.Basic

/-! Noninterference by unwinding. Inputs that do not concern an observer leave
its view of the state alone, and those that concern it take equal views to
equal views; then what it sees of a run depends on the inputs that concern it. -/

namespace Unwinding

variable {σ ι : Type*}

/-- Every input of a sequence is enabled where it comes. -/
def Admits (step : σ → ι → σ) (enabled : σ → ι → Prop) : σ → List ι → Prop
  | _, [] => True
  | state, input :: rest => enabled state input ∧ Admits step enabled (step state input) rest

/-- The unwinding conditions: `alike` compares two states from the observer's
side, and `concerns` tells the inputs that it is to see. -/
structure Unwinds (step : σ → ι → σ) (enabled : σ → ι → Prop) (valid : σ → Prop) (concerns : ι → Bool)
    (alike : σ → σ → Prop) : Prop where
  keeps : ∀ state input, valid state → enabled state input → valid (step state input)
  symm : ∀ first second, alike first second → alike second first
  trans : ∀ first second third, alike first second → alike second third → alike first third
  respects : ∀ state input, valid state → enabled state input → concerns input = false → alike state (step state input)
  carries : ∀ first second input, alike first second → concerns input = true →
    enabled first input → enabled second input
  consistent : ∀ first second input, valid first → valid second → alike first second → concerns input = true →
    enabled first input → alike (step first input) (step second input)

variable {step : σ → ι → σ} {enabled : σ → ι → Prop} {valid : σ → Prop} {concerns : ι → Bool} {alike : σ → σ → Prop}

/-- The inputs that concern the observer make a run of their own, and it ends
in the same view. -/
theorem Unwinds.purged (unwinds : Unwinds step enabled valid concerns alike) {first second : σ}
    {inputs : List ι} (holds : valid first) (other : valid second) (same : alike first second)
    (admitted : Admits step enabled first inputs) :
    Admits step enabled second (inputs.filter concerns) ∧
      alike (inputs.foldl step first) ((inputs.filter concerns).foldl step second) := by
  induction inputs generalizing first second with
  | nil => exact ⟨trivial, same⟩
  | cons input rest ih =>
    have moved := unwinds.keeps first input holds admitted.1
    cases seen : concerns input with
    | false =>
      have still := unwinds.trans _ _ _ (unwinds.symm _ _ (unwinds.respects first input holds admitted.1 seen)) same
      rw [List.filter_cons_of_neg (by simp [seen])]
      exact ih moved other still admitted.2
    | true =>
      have able := unwinds.carries first second input same seen admitted.1
      have together := unwinds.consistent first second input holds other same seen admitted.1
      obtain ⟨rest_, ends⟩ := ih moved (unwinds.keeps second input other able) together admitted.2
      rw [List.filter_cons_of_pos seen]
      exact ⟨⟨able, rest_⟩, ends⟩

/-- Runs that agree on the inputs that concern the observer end alike. -/
theorem Unwinds.runs_alike (unwinds : Unwinds step enabled valid concerns alike) {first second : σ}
    {inputs others : List ι} (holds : valid first) (other : valid second) (same : alike first second)
    (admitted : Admits step enabled first inputs) (accepted : Admits step enabled second others)
    (agree : inputs.filter concerns = others.filter concerns) :
    alike (inputs.foldl step first) (others.foldl step second) := by
  have left := (unwinds.purged holds other same admitted).2
  have itself := unwinds.trans _ _ _ (unwinds.symm _ _ same) same
  have right := (unwinds.purged other other itself accepted).2
  rw [agree] at left
  exact unwinds.trans _ _ _ left (unwinds.symm _ _ right)

end Unwinding
