import Mathlib.Logic.Basic

/-! Machines that answer every input of a sequence, and when one of them may
stand for another: a view of its states that is kept by every step carries
whole runs along, answers included. -/

namespace Machine

variable {σ τ ι ο : Type*}

/-- A run over a sequence of inputs: the state it ends in, and its answers. -/
def run (step : σ → ι → σ × ο) : σ → List ι → σ × List ο
  | state, [] => (state, [])
  | state, input :: rest =>
    let answered := step state input
    let finished := run step answered.1 rest
    (finished.1, answered.2 :: finished.2)

/-- One step of `concrete` from a valid state is one step of `ideal` on its view. -/
structure Refines (concrete : σ → ι → σ × ο) (ideal : τ → ι → τ × ο) (valid : σ → Prop) (view : σ → τ) : Prop where
  keeps : ∀ state input, valid state → valid (concrete state input).1
  follows : ∀ state input, valid state → view (concrete state input).1 = (ideal (view state) input).1
  answers : ∀ state input, valid state → (concrete state input).2 = (ideal (view state) input).2

variable {concrete : σ → ι → σ × ο} {ideal : τ → ι → τ × ο} {valid : σ → Prop} {view : σ → τ}

theorem Refines.run_valid (refines : Refines concrete ideal valid view) (inputs : List ι) (state : σ)
    (starts : valid state) : valid (run concrete state inputs).1 := by
  induction inputs generalizing state with
  | nil => exact starts
  | cons input rest ih => exact ih _ (refines.keeps state input starts)

theorem Refines.run_eq (refines : Refines concrete ideal valid view) (inputs : List ι) (state : σ)
    (starts : valid state) :
    view (run concrete state inputs).1 = (run ideal (view state) inputs).1 ∧
    (run concrete state inputs).2 = (run ideal (view state) inputs).2 := by
  induction inputs generalizing state with
  | nil => exact ⟨rfl, rfl⟩
  | cons input rest ih =>
    obtain ⟨last, answers⟩ := ih _ (refines.keeps state input starts)
    rw [refines.follows state input starts] at last answers
    simp only [run]
    exact ⟨last, by rw [refines.answers state input starts, answers]⟩

/-- One step of `concrete` is one step of `ideal` for the inputs that are
`served`. Related states need not be a function of one another, so the states of
the ideal machine may carry what they are known to satisfy. -/
structure Simulates (concrete : σ → ι → σ × ο) (ideal : τ → ι → τ × ο) (served : ι → Prop)
    (related : σ → τ → Prop) : Prop where
  keeps : ∀ state view input, served input → related state view → related (concrete state input).1 (ideal view input).1
  answers : ∀ state view input, served input → related state view → (concrete state input).2 = (ideal view input).2

theorem Simulates.run_eq {served : ι → Prop} {related : σ → τ → Prop}
    (simulates : Simulates concrete ideal served related) (inputs : List ι)
    (fit : ∀ input ∈ inputs, served input) {state : σ} {view : τ} (starts : related state view) :
    related (run concrete state inputs).1 (run ideal view inputs).1 ∧
    (run concrete state inputs).2 = (run ideal view inputs).2 := by
  induction inputs generalizing state view with
  | nil => exact ⟨starts, rfl⟩
  | cons input rest ih =>
    obtain ⟨first, later⟩ := List.forall_mem_cons.mp fit
    obtain ⟨last, answers⟩ := ih later (simulates.keeps state view input first starts)
    simp only [run]
    exact ⟨last, by rw [simulates.answers state view input first starts, answers]⟩

end Machine
