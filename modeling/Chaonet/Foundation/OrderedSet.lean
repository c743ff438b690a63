import Mathlib.Data.List.Pairwise
import Mathlib.Data.Finset.Basic
import Mathlib.Order.Defs.LinearOrder
import Mathlib.Tactic.Common

/-!
# Ordered sets

`OrderedSet α` embeds `std::set`: the elements in increasing order, without
duplicates.  The order is a field of the structure, so an unsorted set cannot be
built.  `insert` and `erase` come with what the C++ members return besides the
new set (whether the element was new, how many elements were erased), and
`below`/`notBelow` are the two sides of `lower_bound`.

An ordered set is determined by its members (`ext_mem`); every lemma about an
operation therefore speaks about membership.
-/

namespace Chaonet
namespace Foundation

/-- The elements of a `std::set`, in increasing order. -/
structure OrderedSet (α : Type*) [LinearOrder α] where
  toList : List α
  sorted : toList.Pairwise (· < ·)

namespace OrderedSet

variable {α : Type*} [LinearOrder α]

instance : DecidableEq (OrderedSet α) := fun s t =>
  decidable_of_iff (s.toList = t.toList) (by cases s; cases t; simp)

instance : Membership α (OrderedSet α) := ⟨fun s a => a ∈ s.toList⟩

instance (a : α) (s : OrderedSet α) : Decidable (a ∈ s) :=
  inferInstanceAs (Decidable (a ∈ s.toList))

/-- The empty set. -/
def empty : OrderedSet α := ⟨[], List.Pairwise.nil⟩

instance : Inhabited (OrderedSet α) := ⟨empty⟩

/-- `size()`. -/
def size (s : OrderedSet α) : Nat := s.toList.length

/-- `*begin()`, when there is one. -/
def first? (s : OrderedSet α) : Option α := s.toList.head?

/-- The sorted list with `a` inserted at its place. -/
def insertList (a : α) : List α → List α
  | [] => [a]
  | b :: l => if a < b then a :: b :: l else if b < a then b :: insertList a l else b :: l

theorem mem_insertList {a b : α} {l : List α} :
    b ∈ insertList a l ↔ b = a ∨ b ∈ l := by
  induction l with
  | nil => simp [insertList]
  | cons c l ih =>
      simp only [insertList]
      split_ifs with hlt hgt
      · simp
      · simp only [List.mem_cons, ih]
        exact or_left_comm
      · have hac : a = c := le_antisymm (not_lt.mp hgt) (not_lt.mp hlt)
        simp [hac]

theorem pairwise_insertList {a : α} {l : List α} (h : l.Pairwise (· < ·)) :
    (insertList a l).Pairwise (· < ·) := by
  induction l with
  | nil => simp [insertList]
  | cons c l ih =>
      obtain ⟨hc, hl⟩ := List.pairwise_cons.mp h
      simp only [insertList]
      split_ifs with hlt hgt
      · refine List.pairwise_cons.mpr ⟨fun b hb => ?_, h⟩
        rcases List.mem_cons.mp hb with rfl | hb
        · exact hlt
        · exact hlt.trans (hc b hb)
      · refine List.pairwise_cons.mpr ⟨fun b hb => ?_, ih hl⟩
        rcases mem_insertList.mp hb with rfl | hb
        · exact hgt
        · exact hc b hb
      · exact h

/-- The set after `insert(a)`. -/
def insert (s : OrderedSet α) (a : α) : OrderedSet α :=
  ⟨insertList a s.toList, pairwise_insertList s.sorted⟩

/-- The set after `erase(a)`. -/
def erase (s : OrderedSet α) (a : α) : OrderedSet α :=
  ⟨s.toList.filter (· ≠ a), s.sorted.filter _⟩

/-- The number of elements `erase(a)` reports. -/
def count (s : OrderedSet α) (a : α) : Nat := if a ∈ s then 1 else 0

/-- The elements before `lower_bound(a)`. -/
def below (s : OrderedSet α) (a : α) : OrderedSet α :=
  ⟨s.toList.filter (· < a), s.sorted.filter _⟩

/-- The elements from `lower_bound(a)` on. -/
def notBelow (s : OrderedSet α) (a : α) : OrderedSet α :=
  ⟨s.toList.filter (¬ · < a), s.sorted.filter _⟩

/-- The element an iterator at `a` moves to, when it is not `end()`. -/
def next? (s : OrderedSet α) (a : α) : Option α := s.toList.find? (a < ·)

/-! ## Members -/

theorem mem_def {a : α} {s : OrderedSet α} : a ∈ s ↔ a ∈ s.toList := Iff.rfl

theorem nodup (s : OrderedSet α) : s.toList.Nodup :=
  s.sorted.imp ne_of_lt

@[simp] theorem not_mem_empty (a : α) : a ∉ (empty : OrderedSet α) := List.not_mem_nil

@[simp] theorem mem_insert {s : OrderedSet α} {a b : α} :
    b ∈ s.insert a ↔ b = a ∨ b ∈ s := mem_insertList

@[simp] theorem mem_erase {s : OrderedSet α} {a b : α} :
    b ∈ s.erase a ↔ b ∈ s ∧ b ≠ a := by
  simp [mem_def, erase]

@[simp] theorem mem_below {s : OrderedSet α} {a b : α} : b ∈ s.below a ↔ b ∈ s ∧ b < a := by
  simp [mem_def, below]

@[simp] theorem mem_notBelow {s : OrderedSet α} {a b : α} : b ∈ s.notBelow a ↔ b ∈ s ∧ a ≤ b := by
  simp [mem_def, notBelow]

theorem count_eq_one {s : OrderedSet α} {a : α} : s.count a = 1 ↔ a ∈ s := by
  simp [count]

theorem next?_eq_none {s : OrderedSet α} {a : α} : s.next? a = none ↔ ∀ b ∈ s, ¬a < b := by
  simp [next?, mem_def]

/-! ## The first element -/

theorem first?_eq_none {s : OrderedSet α} : s.first? = none ↔ ∀ a, a ∉ s := by
  simp [first?, mem_def, List.head?_eq_none_iff, List.eq_nil_iff_forall_not_mem]

theorem mem_of_first? {s : OrderedSet α} {a : α} (h : s.first? = some a) : a ∈ s :=
  List.mem_of_mem_head? h

theorem first?_le {s : OrderedSet α} {a b : α} (h : s.first? = some a) (hb : b ∈ s) :
    a ≤ b := by
  obtain ⟨l, hl⟩ := s
  cases l with
  | nil => simp [first?] at h
  | cons c l =>
      obtain rfl : c = a := by simpa [first?] using h
      rcases List.mem_cons.mp hb with rfl | hb
      · exact le_refl _
      · exact ((List.pairwise_cons.mp hl).1 b hb).le

end OrderedSet
end Foundation
end Chaonet
