import Mathlib.Data.Nat.Init

/-! Checks of a capacity against a size that is computed modulo the range of its
type. Such a check may pass although the size, counted without bound, does not fit. -/

namespace Sockify.Lib.Wrapping

variable {modulus need capacity : Nat}

/-- The check `capacity < need` lets the caller go on. -/
def Passes (modulus need capacity : Nat) : Prop := ¬ capacity < need % modulus

theorem passes_exact (inside : need < modulus) : Passes modulus need capacity ↔ need ≤ capacity := by
  rw [Passes, Nat.mod_eq_of_lt inside, Nat.not_lt]

/-- Where the computed size has wrapped, passing the check means nothing. -/
theorem not_fits (wraps : modulus ≤ need) (inside : capacity < modulus) : ¬ need ≤ capacity := by
  omega

/-- A check can be relied on exactly where the size has not wrapped, or where
the check fails all the same. -/
theorem reliable_iff (inside : capacity < modulus) :
    (Passes modulus need capacity → need ≤ capacity) ↔ need < modulus ∨ capacity < need % modulus := by
  constructor
  · intro reliable
    by_cases exact_ : need < modulus
    · exact .inl exact_
    · by_cases fails : capacity < need % modulus
      · exact .inr fails
      · exact absurd (reliable fails) (not_fits (Nat.le_of_not_lt exact_) inside)
  · intro cases_ passes
    rcases cases_ with exact_ | fails
    · exact (passes_exact exact_).mp passes
    · exact absurd fails passes

end Sockify.Lib.Wrapping
