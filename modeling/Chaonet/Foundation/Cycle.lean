import Mathlib.Data.List.TakeDrop
import Mathlib.Tactic.Common

/-!
# Words that go round in a circle

A word `r` that is a prefix of `m ++ r` is a prefix of `m ++ m ++ m ++ ...`.
-/

namespace Chaonet
namespace Foundation

variable {α : Type*}

/-- Every letter is the one that stands at its place in `m`. -/
theorem getElem?_of_prefix_append {m r : List α} (hm : m ≠ []) (h : r <+: m ++ r) (i : Nat)
    (hi : i < r.length) : r[i]? = m[i % m.length]? := by
  have hpos : 0 < m.length := List.length_pos_iff.mpr hm
  have hshift (j : Nat) (hj : j < r.length) : r[j]? = (m ++ r)[j]? := by
    obtain ⟨rest, hrest⟩ := h
    rw [← hrest, List.getElem?_append_left hj]
  induction i using Nat.strongRecOn with
  | ind i ih =>
      rw [hshift i hi]
      by_cases hlt : i < m.length
      · rw [List.getElem?_append_left hlt, Nat.mod_eq_of_lt hlt]
      · have hle : m.length ≤ i := Nat.le_of_not_lt hlt
        rw [List.getElem?_append_right hle, ih (i - m.length) (by omega) (by omega),
          ← Nat.mod_eq_sub_mod hle]

end Foundation
end Chaonet
