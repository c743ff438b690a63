import Mathlib.Tactic.Common

/-!
# Removing from a list by swapping with the end

`swapRemove xs i` overwrites the element at position `i` with the last one and drops the
end, which is how an unordered table removes an element without moving the others.  Only the
last element changes its position.
-/

namespace Chaonet
namespace Foundation

variable {α : Type*} {xs : List α} {i j : Nat} {x : α}

/-- Swap the elements at `i` and at the end, and drop the end. -/
def swapRemove (xs : List α) (i : Nat) : List α :=
  match xs.getLast? with
  | some last => (xs.set i last).dropLast
  | none => []

theorem swapRemove_eq (hlast : xs.getLast? = some x) (i : Nat) :
    swapRemove xs i = (xs.set i x).dropLast := by
  simp [swapRemove, hlast]

/-- Swapping the two elements before the end is dropped makes no difference. -/
theorem dropLast_swap (hlast : xs.getLast? = some x) (i : Nat) (y : α) :
    ((xs.set i x).set (xs.length - 1) y).dropLast = swapRemove xs i := by
  rw [swapRemove_eq hlast]
  ext j z
  rw [List.getElem?_dropLast, List.getElem?_dropLast, List.length_set, List.length_set]
  split_ifs with hj
  · rw [List.getElem?_set_ne (by omega)]
  · rfl

/-- Removing the last element. -/
theorem swapRemove_end (h : i + 1 = xs.length) : swapRemove xs i = xs.dropLast := by
  obtain ⟨x, hlast⟩ : ∃ x, xs.getLast? = some x := by
    apply Option.isSome_iff_exists.mp
    simp [List.ne_nil_of_length_pos (show 0 < xs.length by omega)]
  rw [swapRemove_eq hlast]
  ext j y
  rw [List.getElem?_dropLast, List.getElem?_dropLast, List.length_set]
  split_ifs with hj
  · rw [List.getElem?_set_ne (by omega)]
  · rfl

/-- What is left at each position. -/
theorem getElem?_swapRemove (hi : i < xs.length) (j : Nat) :
    (swapRemove xs i)[j]? =
      if j + 1 < xs.length then if j = i then xs[xs.length - 1]? else xs[j]? else none := by
  obtain ⟨x, hlast⟩ : ∃ x, xs.getLast? = some x := by
    apply Option.isSome_iff_exists.mp
    simp [List.ne_nil_of_length_pos (show 0 < xs.length by omega)]
  rw [swapRemove_eq hlast, List.getElem?_dropLast, List.length_set]
  by_cases hj : j + 1 < xs.length
  · rw [if_pos (by omega), if_pos hj]
    by_cases hji : j = i
    · subst hji
      rw [List.getElem?_set_self hi, if_pos rfl, ← hlast, List.getLast?_eq_getElem?]
    · rw [List.getElem?_set_ne (Ne.symm hji), if_neg hji]
  · rw [if_neg (by omega), if_neg hj]

end Foundation
end Chaonet
