import Mathlib.Data.List.TakeDrop
import Mathlib.Tactic.Common

/-!
# Segments of a byte store

A contiguous store is a list; `segment v i j` is what lies between positions `i`
and `j`.  `overwrite` embeds `std::copy` into the middle of the store and `resize`
embeds `std::vector::resize`.  The lemmas say what each of them does to a segment.
-/

namespace Chaonet
namespace Foundation

variable {α : Type*}

/-- The elements at positions `i, ..., j - 1`. -/
def segment (v : List α) (i j : Nat) : List α := (v.drop i).take (j - i)

/-- The store with the elements from position `i` on replaced by `d`. -/
def overwrite (v : List α) (i : Nat) (d : List α) : List α :=
  v.take i ++ d ++ v.drop (i + d.length)

/-- The store cut or filled up with `fill` to length `n`. -/
def resize (fill : α) (v : List α) (n : Nat) : List α :=
  v.take n ++ List.replicate (n - v.length) fill

theorem length_segment {v : List α} {i j : Nat} (hj : j ≤ v.length) :
    (segment v i j).length = j - i := by
  simp only [segment, List.length_take, List.length_drop]
  omega

theorem length_overwrite {v : List α} {i : Nat} {d : List α} (h : i + d.length ≤ v.length) :
    (overwrite v i d).length = v.length := by
  simp only [overwrite, List.length_append, List.length_take, List.length_drop]
  omega

theorem length_resize {fill : α} {v : List α} {n : Nat} :
    (resize fill v n).length = n := by
  simp only [resize, List.length_append, List.length_take, List.length_replicate]
  omega

@[simp] theorem segment_self (v : List α) (i : Nat) : segment v i i = [] := by
  simp [segment]

/-- Moving the lower end up drops elements from the front. -/
theorem segment_advance (v : List α) (i j n : Nat) :
    segment v (i + n) j = (segment v i j).drop n := by
  simp only [segment, List.drop_take, List.drop_drop]
  congr 1
  omega

/-- A segment of a segment. -/
theorem segment_segment {v : List α} {i j m n : Nat} (hn : m + n ≤ j) :
    segment (segment v m j) i n = segment v (m + i) (m + n) := by
  have hlength : m + n - (m + i) = n - i := by omega
  simp only [segment, List.drop_take, List.drop_drop, List.take_take, hlength]
  congr 1
  omega

/-- Elements written at the upper end of a segment extend it. -/
theorem segment_overwrite_end {v : List α} {i j : Nat} {d : List α} (hij : i ≤ j)
    (hj : j ≤ v.length) : segment (overwrite v j d) i (j + d.length) = segment v i j ++ d := by
  have htake : (v.take j).length = j := List.length_take_of_le hj
  have hdrop : (overwrite v j d).drop i = segment v i j ++ (d ++ v.drop (j + d.length)) := by
    rw [overwrite, List.append_assoc, List.drop_append_of_le_length (by omega), List.drop_take,
      segment]
  have hlen := length_segment (i := i) hj
  rw [segment, hdrop, ← List.append_assoc, List.take_append_of_le_length, List.take_of_length_le]
  · simp only [List.length_append]
    omega
  · simp only [List.length_append]
    omega

/-- Elements written just below a segment extend it at the front. -/
theorem segment_overwrite_front {v : List α} {i j : Nat} {d : List α} (hij : i + d.length ≤ j)
    (hj : j ≤ v.length) :
    segment (overwrite v i d) i j = d ++ segment v (i + d.length) j := by
  have htake : (v.take i).length = i := List.length_take_of_le (by omega)
  have hdrop : (overwrite v i d).drop i = d ++ v.drop (i + d.length) := by
    rw [overwrite, List.append_assoc, List.drop_append_of_le_length (by omega),
      List.drop_of_length_le (by omega), List.nil_append]
  rw [segment, hdrop, List.take_append, List.take_of_length_le (by omega), segment]
  congr 2
  omega

/-- A segment copied to position `i` is found there. -/
theorem segment_overwrite_self {v : List α} {i : Nat} {d : List α} (hi : i ≤ v.length) :
    segment (overwrite v i d) i (i + d.length) = d := by
  simpa using segment_overwrite_end (Nat.le_refl i) hi

/-- Growing the store leaves its segments alone. -/
theorem segment_resize {fill : α} {v : List α} {i j n : Nat} (hj : j ≤ v.length)
    (hn : v.length ≤ n) : segment (resize fill v n) i j = segment v i j := by
  by_cases hij : i ≤ j
  · rw [segment, resize, List.take_of_length_le hn, List.drop_append_of_le_length (by omega),
      List.take_append_of_le_length, segment]
    rw [List.length_drop]
    omega
  · simp [segment, Nat.sub_eq_zero_of_le (Nat.le_of_not_le hij)]

/-- What is written in the middle of a new store has the fill before and behind it. -/
theorem overwrite_replicate {fill : α} {i m n : Nat} {d : List α} (hm : d.length = m) :
    overwrite (List.replicate (i + m + n) fill) i d =
      List.replicate i fill ++ d ++ List.replicate n fill := by
  have hfront : min i (i + m + n) = i := by omega
  have hback : i + m + n - (i + m) = n := by omega
  rw [overwrite, List.take_replicate, List.drop_replicate, hm, hfront, hback]

/-- Shifting a list by some places of the fill leaves it as it is only if it is all fill. -/
theorem eq_fill_of_shift {fill : α} {k : Nat} (hk : 0 < k) {d : List α}
    (h : (List.replicate k fill ++ d).take d.length = d) : ∀ x ∈ d, x = fill := by
  have hplace (i : Nat) (hi : i < d.length) : d[i] = fill := by
    induction i using Nat.strongRecOn with
    | ind i ih =>
        have hread : ((List.replicate k fill ++ d).take d.length)[i]? = d[i]? := by rw [h]
        rw [List.getElem?_take_of_lt hi, List.getElem?_eq_getElem hi] at hread
        by_cases hfront : i < k
        · rw [List.getElem?_append_left (by simpa using hfront), List.getElem?_replicate,
            if_pos hfront] at hread
          exact (Option.some.inj hread).symm
        · -- The place is filled by the one `k` places before it.
          rw [List.getElem?_append_right (by simpa using hfront), List.length_replicate,
            List.getElem?_eq_getElem (by omega)] at hread
          rw [← Option.some.inj hread]
          exact ih (i - k) (by omega) (by omega)
  intro x hx
  obtain ⟨i, hi, rfl⟩ := List.getElem_of_mem hx
  exact hplace i hi

end Foundation
end Chaonet
