import Mathlib.Data.Nat.Basic
import Mathlib.Logic.Function.Basic

namespace AIM.Ring

/-! # Cyclic positions

Neighbouring positions in a buffer of a given capacity whose last position is
followed by position zero. -/

def next (capacity index : Nat) : Nat := (index + 1) % capacity

def previous (capacity index : Nat) : Nat := (index + capacity - 1) % capacity

theorem next_lt {capacity : Nat} (positive : 0 < capacity) (index : Nat) :
    next capacity index < capacity :=
  Nat.mod_lt _ positive

theorem previous_zero {capacity : Nat} (positive : 0 < capacity) :
    previous capacity 0 = capacity - 1 := by
  rw [previous, Nat.zero_add]
  exact Nat.mod_eq_of_lt (by omega)

theorem previous_of_pos {capacity index : Nat} (inside : index < capacity)
    (positive : 0 < index) : previous capacity index = index - 1 := by
  have split : index + capacity - 1 = index - 1 + capacity := by omega
  rw [previous, split, Nat.add_mod_right]
  exact Nat.mod_eq_of_lt (by omega)

theorem previous_next {capacity index : Nat} (inside : index < capacity) :
    previous capacity (next capacity index) = index := by
  by_cases last : index + 1 = capacity
  · rw [next, last, Nat.mod_self, previous_zero (by omega)]
    omega
  · have before : index + 1 < capacity := by omega
    rw [next, Nat.mod_eq_of_lt before, previous_of_pos before (by omega)]
    omega

/-! ## Several positions back -/

/-- The position `steps` before `index`, for at most a whole turn. -/
def back (capacity index steps : Nat) : Nat := (index + capacity - steps) % capacity

theorem next_eq {capacity index : Nat} (inside : index < capacity) :
    next capacity index = if index + 1 = capacity then 0 else index + 1 := by
  rw [next]
  split
  · next last => rw [last, Nat.mod_self]
  · exact Nat.mod_eq_of_lt (by omega)

theorem back_eq {capacity index steps : Nat} (inside : index < capacity)
    (turn : steps ≤ capacity) :
    back capacity index steps =
      if steps ≤ index then index - steps else index + capacity - steps := by
  rw [back]
  split
  · next early =>
      have split : index + capacity - steps = index - steps + capacity := by omega
      rw [split, Nat.add_mod_right]
      exact Nat.mod_eq_of_lt (by omega)
  · exact Nat.mod_eq_of_lt (by omega)

theorem back_zero {capacity index : Nat} (inside : index < capacity) :
    back capacity index 0 = index := by
  rw [back_eq inside (Nat.zero_le _), if_pos (Nat.zero_le _), Nat.sub_zero]

theorem back_capacity {capacity index : Nat} (inside : index < capacity) :
    back capacity index capacity = index := by
  rw [back_eq inside (Nat.le_refl _), if_neg (by omega), Nat.add_sub_cancel]

theorem back_ne {capacity index steps : Nat} (inside : index < capacity)
    (positive : 0 < steps) (notWhole : steps < capacity) :
    back capacity index steps ≠ index := by
  rw [back_eq inside (by omega)]
  split <;> omega

theorem back_next_one {capacity index : Nat} (inside : index < capacity) :
    back capacity (next capacity index) 1 = index := by
  rw [back_eq (next_lt (by omega) index) (by omega), next_eq inside]
  split <;> split <;> omega

theorem back_next {capacity index steps : Nat} (inside : index < capacity)
    (turn : steps + 1 ≤ capacity) :
    back capacity (next capacity index) (steps + 1) = back capacity index steps := by
  rw [back_eq (next_lt (by omega) index) turn, back_eq inside (by omega), next_eq inside]
  split <;> split <;> split <;> omega

theorem next_back {capacity index steps : Nat} (inside : index < capacity)
    (turn : steps + 1 ≤ capacity) :
    next capacity (back capacity index (steps + 1)) = back capacity index steps := by
  rw [back_eq inside turn, back_eq inside (by omega), next_eq (by split <;> omega)]
  by_cases early : steps + 1 ≤ index
  · rw [if_pos early, if_neg (by omega), if_pos (by omega)]
    omega
  · rw [if_neg early]
    split <;> split <;> omega

theorem previous_back {capacity index steps : Nat} (inside : index < capacity)
    (turn : steps + 1 ≤ capacity) :
    previous capacity (back capacity index steps) = back capacity index (steps + 1) := by
  have lt : back capacity index (steps + 1) < capacity := Nat.mod_lt _ (by omega)
  rw [← next_back inside turn, previous_next lt]

/-! ## Contents -/

/-- The values of the `count` positions before `index`, the nearest one first. -/
def contents (capacity : Nat) (slots : Nat → α) (index count : Nat) : List α :=
  (List.range count).map fun steps => slots (back capacity index (steps + 1))

@[simp] theorem length_contents (capacity : Nat) (slots : Nat → α) (index count : Nat) :
    (contents capacity slots index count).length = count := by
  rw [contents, List.length_map, List.length_range]

theorem take_contents (capacity : Nat) (slots : Nat → α) (index count fewer : Nat) :
    (contents capacity slots index count).take fewer =
      contents capacity slots index (min fewer count) := by
  rw [contents, contents, ← List.map_take, List.take_range]

theorem getElem?_contents (capacity : Nat) (slots : Nat → α) (index : Nat)
    {count steps : Nat} (within : steps < count) :
    (contents capacity slots index count)[steps]? =
      some (slots (back capacity index (steps + 1))) := by
  rw [contents, List.getElem?_map, List.getElem?_range within, Option.map_some]

theorem contents_write {capacity index count : Nat} (inside : index < capacity)
    (room : count + 1 ≤ capacity) (slots : Nat → α) (value : α) :
    contents capacity (Function.update slots index value) (next capacity index) (count + 1) =
      value :: contents capacity slots index count := by
  rw [contents, List.range_succ_eq_map, List.map_cons, List.map_map, back_next_one inside,
    Function.update_self, contents]
  congr 1
  apply List.map_congr_left
  intro steps member
  have within := List.mem_range.mp member
  rw [Function.comp_apply, back_next inside (by omega),
    Function.update_of_ne (back_ne inside (by omega) (by omega))]

end AIM.Ring
