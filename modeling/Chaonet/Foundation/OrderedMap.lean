import Mathlib.Data.List.Pairwise
import Mathlib.Order.Lattice
import Mathlib.Tactic.Common

/-!
# Ordered maps

`OrderedMap κ ν` embeds `std::map`: the entries in increasing order of their keys, without
duplicates.  The order is a field of the structure.  Entries that are inserted in their order are the
entries of the map (`insertAll_entries`), so that a map can be written down and read back.
-/

namespace Chaonet
namespace Foundation

/-- The entries of a `std::map`, in increasing order of their keys. -/
structure OrderedMap (κ ν : Type*) [LinearOrder κ] where
  entries : List (κ × ν)
  sorted : entries.Pairwise fun e f => e.1 < f.1

namespace OrderedMap

variable {κ ν : Type*} [LinearOrder κ]

/-- A map is its entries. -/
@[ext] theorem ext {m m' : OrderedMap κ ν} (h : m.entries = m'.entries) : m = m' := by
  cases m
  cases m'
  cases h
  rfl

def empty : OrderedMap κ ν := ⟨[], .nil⟩

/-- The entries with a new value at `k`. -/
def insertEntry (k : κ) (v : ν) : List (κ × ν) → List (κ × ν)
  | [] => [(k, v)]
  | e :: l =>
      if k < e.1 then (k, v) :: e :: l
      else if e.1 < k then e :: insertEntry k v l
      else (k, v) :: l

theorem mem_insertEntry {k : κ} {v : ν} {e : κ × ν} {l : List (κ × ν)}
    (h : e ∈ insertEntry k v l) : e = (k, v) ∨ e ∈ l := by
  induction l with
  | nil => exact .inl (List.mem_singleton.mp h)
  | cons f l ih =>
      rw [insertEntry] at h
      split_ifs at h
      · exact List.mem_cons.mp h
      · rcases List.mem_cons.mp h with rfl | h
        · exact .inr List.mem_cons_self
        · exact (ih h).imp_right (List.mem_cons_of_mem _)
      · exact (List.mem_cons.mp h).imp_right (List.mem_cons_of_mem _)

theorem pairwise_insertEntry (k : κ) (v : ν) {l : List (κ × ν)}
    (h : l.Pairwise fun e f => e.1 < f.1) :
    (insertEntry k v l).Pairwise fun e f => e.1 < f.1 := by
  induction l with
  | nil => exact List.pairwise_singleton _ _
  | cons e l ih =>
      obtain ⟨hhead, htail⟩ := List.pairwise_cons.mp h
      rw [insertEntry]
      split_ifs with hlt hgt
      · refine List.pairwise_cons.mpr ⟨fun f hf => ?_, h⟩
        rcases List.mem_cons.mp hf with rfl | hf
        · exact hlt
        · exact lt_trans hlt (hhead f hf)
      · refine List.pairwise_cons.mpr ⟨fun f hf => ?_, ih htail⟩
        rcases mem_insertEntry hf with rfl | hf
        · exact hgt
        · exact hhead f hf
      · have heq : k = e.1 := le_antisymm (not_lt.mp hgt) (not_lt.mp hlt)
        exact List.pairwise_cons.mpr ⟨fun f hf => heq ▸ hhead f hf, htail⟩

/-- `m[k] = v`. -/
def insert (m : OrderedMap κ ν) (k : κ) (v : ν) : OrderedMap κ ν :=
  ⟨insertEntry k v m.entries, pairwise_insertEntry k v m.sorted⟩

/-- A key behind all others comes last. -/
theorem insertEntry_last {k : κ} (v : ν) {l : List (κ × ν)} (h : ∀ e ∈ l, e.1 < k) :
    insertEntry k v l = l ++ [(k, v)] := by
  induction l with
  | nil => rfl
  | cons e l ih =>
      have hhead := h e List.mem_cons_self
      rw [insertEntry, if_neg (lt_asymm hhead), if_pos hhead,
        ih fun f hf => h f (List.mem_cons_of_mem _ hf), List.cons_append]

/-- Insert entries one after the other. -/
def insertAll (m : OrderedMap κ ν) (l : List (κ × ν)) : OrderedMap κ ν :=
  l.foldl (fun m e => m.insert e.1 e.2) m

theorem entries_insertAll (m : OrderedMap κ ν) {l : List (κ × ν)}
    (h : (m.entries ++ l).Pairwise fun e f => e.1 < f.1) :
    (m.insertAll l).entries = m.entries ++ l := by
  induction l generalizing m with
  | nil => exact (List.append_nil _).symm
  | cons e l ih =>
      have hlast : (m.insert e.1 e.2).entries = m.entries ++ [e] :=
        insertEntry_last e.2 fun f hf =>
          (List.pairwise_append.mp h).2.2 f hf e List.mem_cons_self
      have hsplit : m.entries ++ e :: l = m.entries ++ [e] ++ l := by simp
      rw [insertAll, List.foldl_cons, ← insertAll, ih, hlast, ← hsplit]
      rw [hlast, ← hsplit]
      exact h

/-- **A map is what its entries make of an empty one.** -/
theorem insertAll_entries (m : OrderedMap κ ν) : empty.insertAll m.entries = m :=
  ext (entries_insertAll empty m.sorted)

end OrderedMap
end Foundation
end Chaonet
