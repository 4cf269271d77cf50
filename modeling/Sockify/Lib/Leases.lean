import Mathlib.Data.Set.Insert
import Mathlib.Order.BooleanAlgebra.Set

/-! Resources that are taken and given back in a certain order: a resource is
taken when all that it needs is held, and given back when nothing that is held
needs it. -/

universe u

namespace Leases

inductive Lease (ρ : Type u)
  | take (resource : ρ)
  | give (resource : ρ)
  deriving DecidableEq

/-- A trace that is in order, from what is held before it to what is held behind it. -/
inductive Orderly {ρ : Type u} (needs : ρ → ρ → Prop) : Set ρ → List (Lease ρ) → Set ρ → Prop
  | done {held} : Orderly needs held [] held
  | take {held trace last resource} (fresh : resource ∉ held) (ready : ∀ other, needs resource other → other ∈ held)
      (rest : Orderly needs (insert resource held) trace last) : Orderly needs held (.take resource :: trace) last
  | give {held trace last resource} (holds : resource ∈ held) (unused : ∀ other ∈ held, ¬ needs other resource)
      (rest : Orderly needs (held \ {resource}) trace last) : Orderly needs held (.give resource :: trace) last

namespace Orderly
variable {ρ : Type u} {needs : ρ → ρ → Prop} {held middle last : Set ρ}
  {first second trace : List (Lease ρ)} {resource : ρ}

theorem append (before : Orderly needs held first middle) (after : Orderly needs middle second last) :
    Orderly needs held (first ++ second) last := by
  induction before with
  | done => exact after
  | take fresh ready _ ih => exact .take fresh ready (ih after)
  | give holds unused _ ih => exact .give holds unused (ih after)

/-- One more resource is taken. -/
theorem taken (before : Orderly needs held trace middle)
    (fresh : resource ∉ middle) (ready : ∀ other, needs resource other → other ∈ middle) :
    Orderly needs held (trace ++ [.take resource]) (insert resource middle) := before.append (.take fresh ready .done)

/-- One more resource is given back. -/
theorem given (before : Orderly needs held trace middle)
    (holds : resource ∈ middle) (unused : ∀ other ∈ middle, ¬ needs other resource) :
    Orderly needs held (trace ++ [.give resource]) (middle \ {resource}) := before.append (.give holds unused .done)

end Orderly

end Leases
