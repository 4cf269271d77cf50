import Mathlib.Data.List.Induction

/-! Items gathered one by one into blocks of a fixed size, each whole block being
processed at once: the same as cutting the whole sequence into blocks first. -/

namespace Sockify.Lib.Blocks

variable {State Item : Type*} (process : State → List Item → State) (size : Nat)

/-- One item joins the open block. -/
def absorb (current : State × List Item) (item : Item) : State × List Item :=
  if (current.2 ++ [item]).length = size then (process current.1 (current.2 ++ [item]), [])
  else (current.1, current.2 ++ [item])

/-- The whole blocks of a sequence. -/
def blocks (items : List Item) : List (List Item) :=
  (List.range (items.length / size)).map (fun index => (items.drop (size * index)).take size)

/-- What is behind the last whole block. -/
def open_ (items : List Item) : List Item := items.drop (size * (items.length / size))

variable {process size} {items : List Item} {state : State}

theorem open_length (items : List Item) : (open_ size items).length = items.length % size := by
  rw [open_, List.length_drop]
  have division := Nat.div_add_mod items.length size
  omega

/-- A whole block is not changed by what follows it. -/
theorem block_append (items more : List Item) {index : Nat} (inside : index < items.length / size) :
    ((items ++ more).drop (size * index)).take size = (items.drop (size * index)).take size := by
  have bound : size * (index + 1) ≤ items.length :=
    Nat.le_trans (Nat.mul_le_mul_left size inside) (Nat.mul_div_le items.length size)
  rw [Nat.mul_succ] at bound
  rw [List.drop_append_of_le_length (by omega), List.take_append_of_le_length (by rw [List.length_drop]; omega)]

theorem div_succ_of_full (positive : 0 < size) (full : items.length % size + 1 = size) :
    (items.length + 1) / size = items.length / size + 1 ∧ size * (items.length / size + 1) = items.length + 1 := by
  have division := Nat.div_add_mod items.length size
  have product : size * (items.length / size + 1) = items.length + 1 := by
    rw [Nat.mul_succ]
    omega
  exact ⟨by rw [← product, Nat.mul_div_cancel_left _ positive], product⟩

theorem div_succ_of_room (room : items.length % size + 1 < size) : (items.length + 1) / size = items.length / size := by
  have division := Nat.div_add_mod items.length size
  apply Nat.div_eq_of_lt_le
  · rw [Nat.mul_comm]
    omega
  · rw [Nat.succ_mul, Nat.mul_comm]
    omega

/-- An item that fills the open block closes it. -/
theorem blocks_full (positive : 0 < size) (item : Item) (full : items.length % size + 1 = size) :
    blocks size (items ++ [item]) = blocks size items ++ [open_ size items ++ [item]] ∧
    open_ size (items ++ [item]) = [] := by
  obtain ⟨quotient, product⟩ := div_succ_of_full positive full
  have length : (items ++ [item]).length = items.length + 1 := by simp
  have behind := Nat.mul_div_le items.length size
  constructor
  · rw [blocks, length, quotient, List.range_succ, List.map_append, List.map_singleton]
    congr 1
    · rw [blocks]
      apply List.map_congr_left
      intro index inside
      exact block_append items [item] (List.mem_range.mp inside)
    · rw [List.drop_append_of_le_length behind, open_]
      congr 1
      apply List.take_of_length_le
      rw [List.length_append, List.length_drop, List.length_singleton]
      rw [Nat.mul_succ] at product
      omega
  · rw [open_, length, quotient, product]
    exact List.drop_eq_nil_of_le (Nat.le_of_eq length)

theorem blocks_room (item : Item) (room : items.length % size + 1 < size) :
    blocks size (items ++ [item]) = blocks size items ∧ open_ size (items ++ [item]) = open_ size items ++ [item] := by
  have quotient : (items ++ [item]).length / size = items.length / size := by
    rw [List.length_append]
    exact div_succ_of_room room
  constructor
  · rw [blocks, quotient]
    apply List.map_congr_left
    intro index inside
    exact block_append items [item] (List.mem_range.mp inside)
  · rw [open_, quotient, open_, List.drop_append_of_le_length (Nat.mul_div_le items.length size)]

/-- Gathering item by item processes the whole blocks and keeps the rest. -/
theorem foldl_absorb (positive : 0 < size) (items : List Item) :
    items.foldl (absorb process size) (state, []) = ((blocks size items).foldl process state, open_ size items) := by
  induction items using List.reverseRecOn with
  | nil => simp [blocks, open_]
  | append_singleton items item ih =>
    rw [List.foldl_append, ih, List.foldl_cons, List.foldl_nil, absorb]
    have length : (open_ size items ++ [item]).length = items.length % size + 1 := by
      rw [List.length_append, open_length, List.length_singleton]
    have below := Nat.mod_lt items.length positive
    simp only [length]
    by_cases full : items.length % size + 1 = size
    · obtain ⟨closed, empty⟩ := blocks_full positive item full
      rw [if_pos full, closed, empty, List.foldl_append, List.foldl_cons, List.foldl_nil]
    · have room : items.length % size + 1 < size := by omega
      obtain ⟨same, longer⟩ := blocks_room item room
      rw [if_neg full, same, longer]

theorem block_length {block : List Item} (member : block ∈ blocks size items) : block.length = size := by
  obtain ⟨index, inside, rfl⟩ := List.mem_map.mp member
  have bound : size * (index + 1) ≤ items.length :=
    Nat.le_trans (Nat.mul_le_mul_left size (List.mem_range.mp inside)) (Nat.mul_div_le items.length size)
  rw [Nat.mul_succ] at bound
  rw [List.length_take, List.length_drop]
  omega

end Sockify.Lib.Blocks
