import Mathlib.Data.List.Basic
import Mathlib.Data.List.Perm.Basic

/-! Removal from an unordered array: the last item takes the place of the one
that goes. Every place but two keeps its item. -/

namespace SwapRemove

variable {α : Type*}

def swapRemove (items : List α) (place : Nat) : List α :=
  (match items.getLast? with
    | some last => if place + 1 < items.length then items.set place last else items
    | none => items).dropLast

theorem swapRemove_end (front : List α) (item : α) : swapRemove (front ++ [item]) front.length = front := by
  simp [swapRemove]

theorem swapRemove_middle (front back : List α) (item last : α) :
    swapRemove (front ++ item :: (back ++ [last])) front.length = front ++ last :: back := by
  have final : (front ++ item :: (back ++ [last])).getLast? = some last := by
    rw [← List.cons_append, ← List.append_assoc, List.getLast?_append]
    rfl
  have short : front.length + 1 < (front ++ item :: (back ++ [last])).length := by simp
  simp only [swapRemove, final]
  rw [if_pos short, List.set_append_right _ _ (Nat.le_refl _), Nat.sub_self, List.set_cons_zero, ← List.cons_append,
    ← List.append_assoc, List.dropLast_concat]

/-- The item at `place` is gone, and no other. -/
theorem swapRemove_perm (front back : List α) (item : α) :
    List.Perm (swapRemove (front ++ item :: back) front.length) (front ++ back) := by
  rcases List.eq_nil_or_concat back with rfl | ⟨back, last, rfl⟩
  · rw [swapRemove_end, List.append_nil]
  · rw [List.concat_eq_append, swapRemove_middle]
    apply List.Perm.append_left
    exact (List.perm_append_singleton last back).symm

theorem swapRemove_length_le (items : List α) (place : Nat) : (swapRemove items place).length ≤ items.length := by
  unfold swapRemove
  rw [List.length_dropLast]
  split
  · split
    · rw [List.length_set]
      exact Nat.sub_le _ _
    · exact Nat.sub_le _ _
  · exact Nat.sub_le _ _

end SwapRemove
