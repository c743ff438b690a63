import Mathlib.Algebra.Group.Nat.Defs
import Mathlib.Tactic.Common

/-!
# Numerals

A number is written as a word of digits, the most significant one first.  `Numeral` is an alphabet
of digits; `read` accepts words that `write` does not make, such as those that begin with a zero.
-/

namespace Chaonet
namespace Foundation

/-- The digits of a base, and the numbers that letters stand for. -/
structure Numeral (α : Type*) where
  base : Nat
  one_lt : 1 < base
  digit : Nat → α
  value : α → Option Nat
  value_digit : ∀ d < base, value (digit d) = some d

namespace Numeral

variable {α : Type*} (N : Numeral α)

/-- The digits of a number. -/
def write (n : Nat) : List α :=
  if _h : n < N.base then [N.digit n] else write (n / N.base) ++ [N.digit (n % N.base)]
termination_by n
decreasing_by
  have hbase := N.one_lt
  exact Nat.div_lt_self (by omega) hbase

/-- One more digit behind a number. -/
def push (n : Nat) (c : α) : Option Nat := (N.value c).map (n * N.base + ·)

/-- The number that a word of digits stands for; the empty word stands for none. -/
def read (w : List α) : Option Nat := if w.isEmpty then none else w.foldlM N.push 0

theorem write_of_lt {n : Nat} (h : n < N.base) : N.write n = [N.digit n] := by
  rw [write, dif_pos h]

theorem write_of_le {n : Nat} (h : N.base ≤ n) :
    N.write n = N.write (n / N.base) ++ [N.digit (n % N.base)] := by
  rw [write, dif_neg (Nat.not_lt_of_le h)]

theorem base_pos : 0 < N.base := Nat.lt_of_succ_lt N.one_lt

theorem foldlM_write (n : Nat) : (N.write n).foldlM N.push 0 = some n := by
  induction n using write.induct N with
  | case1 n hlt =>
      rw [write_of_lt N hlt]
      simp [push, N.value_digit n hlt]
  | case2 n hle ih =>
      have hmod := N.value_digit (n % N.base) (Nat.mod_lt _ N.base_pos)
      rw [write_of_le N (Nat.le_of_not_lt hle), List.foldlM_append, ih]
      simp [push, hmod, Nat.div_add_mod']

theorem write_ne_nil (n : Nat) : N.write n ≠ [] := by
  rw [write]
  split_ifs
  · exact List.cons_ne_nil _ _
  · exact List.append_ne_nil_of_right_ne_nil _ (List.cons_ne_nil _ _)

/-- What is written is read as it was. -/
theorem read_write (n : Nat) : N.read (N.write n) = some n := by
  rw [read, if_neg, foldlM_write]
  rw [List.isEmpty_iff]
  exact N.write_ne_nil n

/-- A number below a power of the base has no more digits than the exponent. -/
theorem length_write_le {n k : Nat} (h : n < N.base ^ (k + 1)) : (N.write n).length ≤ k + 1 := by
  induction k generalizing n with
  | zero =>
      have hlt : n < N.base := by simpa using h
      rw [write_of_lt N hlt]
      exact Nat.le_refl 1
  | succ k ih =>
      by_cases hlt : n < N.base
      · rw [write_of_lt N hlt]
        exact Nat.le_add_left 1 (k + 1)
      · have hdiv : n / N.base < N.base ^ (k + 1) := by
          rw [Nat.div_lt_iff_lt_mul N.base_pos, ← Nat.pow_succ]
          exact h
        rw [write_of_le N (Nat.le_of_not_lt hlt), List.length_append, List.length_singleton]
        exact Nat.succ_le_succ (ih hdiv)

theorem exists_digit_of_mem_write {n : Nat} {c : α} (h : c ∈ N.write n) :
    ∃ d < N.base, c = N.digit d := by
  induction n using write.induct N with
  | case1 n hlt =>
      rw [write_of_lt N hlt, List.mem_singleton] at h
      exact ⟨n, hlt, h⟩
  | case2 n hle ih =>
      rw [write_of_le N (Nat.le_of_not_lt hle), List.mem_append, List.mem_singleton] at h
      rcases h with h | h
      · exact ih h
      · exact ⟨n % N.base, Nat.mod_lt _ N.base_pos, h⟩

end Numeral
end Foundation
end Chaonet
