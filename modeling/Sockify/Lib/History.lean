import Mathlib.Data.List.Basic

/-! Histories in which every entry is justified by what came before it. -/

namespace History

variable {α : Type*} {good : List α → α → Prop} {history more : List α} {entry : α}

/-- Every entry is good behind its past. -/
def Justified (good : List α → α → Prop) (history : List α) : Prop :=
  ∀ past entry later, history = past ++ entry :: later → good past entry

theorem justified_nil : Justified good [] := by
  intro past entry later layout
  simp at layout

theorem Justified.append (justified : Justified good history)
    (rest : ∀ past entry later, more = past ++ entry :: later → good (history ++ past) entry) :
    Justified good (history ++ more) := by
  intro past entry later layout
  rcases List.append_eq_append_iff.mp layout with ⟨front, rfl, inside⟩ | ⟨back, same, inside⟩
  · exact rest front entry later inside
  · cases back with
    | nil =>
      have first := rest [] entry later inside.symm
      rw [same] at first
      simpa using first
    | cons first back =>
      obtain ⟨rfl, -⟩ : entry = first ∧ later = back ++ more := by simpa using inside
      exact justified past entry back same

theorem Justified.concat (justified : Justified good history) (entry : α) (last : good history entry) :
    Justified good (history ++ [entry]) := by
  apply justified.append
  intro past other later layout
  cases past with
  | nil =>
    obtain ⟨rfl, -⟩ : entry = other ∧ [] = later := by simpa using layout
    rwa [List.append_nil]
  | cons first past => simp at layout

theorem Justified.last (justified : Justified good (history ++ [entry])) :
    Justified good history ∧ good history entry := by
  refine ⟨fun past other later layout => ?_, justified history entry [] rfl⟩
  exact justified past other (later ++ [entry]) (by simp [layout])

/-- Entries that are good behind any past. -/
theorem Justified.quiet (justified : Justified good history) (quiet : ∀ entry ∈ more, ∀ past, good past entry) :
    Justified good (history ++ more) := by
  apply justified.append
  intro past entry later layout
  exact quiet entry (by simp [layout]) _

end History
