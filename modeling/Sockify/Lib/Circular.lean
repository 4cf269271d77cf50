import Mathlib.Data.List.Rotate
import Mathlib.Data.Nat.ModEq

/-! Queues kept in a fixed row of cells. The queue is a window of consecutive
cells that starts anywhere and wraps round the end of the row. -/

namespace Circular

variable {α : Type*}

/-- The `count` cells from position `start` on, wrapping round the end. -/
def window (cells : List α) (start count : Nat) : List α := (cells.rotate start).take count

theorem window_length (cells : List α) (start count : Nat) (fits : count ≤ cells.length) :
    (window cells start count).length = count := by
  simp [window, fits]

@[simp] theorem window_zero (cells : List α) (start : Nat) : window cells start 0 = [] := by
  simp [window]

theorem window_take (cells : List α) (start count wanted : Nat) :
    (window cells start count).take wanted = window cells start (min wanted count) := by
  simp [window, List.take_take]

theorem window_mod (cells : List α) (start count : Nat) :
    window cells (start % cells.length) count = window cells start count := by
  simp [window]

private theorem rotate_set (cells : List α) (start offset : Nat) (value : α) (inside : offset < cells.length) :
    (cells.set ((start + offset) % cells.length) value).rotate start = (cells.rotate start).set offset value := by
  apply List.ext_getElem (by simp)
  intro index first last
  have bound : index < cells.length := by simpa using last
  rw [List.getElem_rotate, List.getElem_set, List.getElem_set, List.getElem_rotate]
  simp only [List.length_set]
  by_cases same : offset = index
  · subst same
    simp [Nat.add_comm]
  · have different : (start + offset) % cells.length ≠ (index + start) % cells.length := by
      intro equal
      rw [Nat.add_comm index start] at equal
      have congruent : Nat.ModEq cells.length offset index := Nat.ModEq.add_left_cancel' start equal
      exact same (congruent.eq_of_lt_of_lt inside bound)
    simp [different, same]

/-- Writing the cell behind the window and widening the window appends. -/
theorem window_push (cells : List α) (start count : Nat) (value : α) (room : count < cells.length) :
    window (cells.set ((start + count) % cells.length) value) start (count + 1) =
      window cells start count ++ [value] := by
  have inside : count < (cells.rotate start).length := by simpa using room
  unfold window
  rw [rotate_set cells start count value room, List.take_succ_eq_append_getElem (by simpa using room),
    List.take_set_of_le (Nat.le_refl count)]
  simp

/-- Moving the start of the window forward drops from its front. -/
theorem window_drop (cells : List α) (start count dropped : Nat) (fits : count ≤ cells.length)
    (available : dropped ≤ count) :
    window cells (start + dropped) (count - dropped) = (window cells start count).drop dropped := by
  have within : dropped ≤ (cells.rotate start).length := by simp; omega
  unfold window
  rw [← List.rotate_rotate, List.rotate_eq_drop_append_take within, List.drop_take,
    List.take_append_of_le_length (by simp; omega)]

/-- A nonempty window starts with the cell at its start position. -/
theorem window_succ (cells : List α) (start count : Nat) (inside : start < cells.length)
    (fits : count + 1 ≤ cells.length) :
    window cells start (count + 1) = cells[start] :: window cells ((start + 1) % cells.length) count := by
  have nonempty : 0 < (cells.rotate start).length := by simp; omega
  have first : (cells.rotate start)[0] = cells[start] := by
    simp [List.getElem_rotate, Nat.mod_eq_of_lt inside]
  have split : window cells start (count + 1) =
      (window cells start (count + 1)).take 1 ++ (window cells start (count + 1)).drop 1 :=
    (List.take_append_drop 1 _).symm
  rw [split, ← window_drop cells start (count + 1) 1 fits (by omega), window_mod, window_take]
  have head : window cells start 1 = [cells[start]] := by
    unfold window
    rw [List.take_one, List.head?_eq_getElem?, List.getElem?_eq_getElem nonempty, first]
    rfl
  simp [head]

end Circular
