import Mathlib.Tactic.Common

/-!
# Queues that are emptied in batches

A queue into which anyone may push, and which one consumer empties by swapping the
whole content out and then working through the batch, while pushes go on.  `queued` is
the order in which the elements will be consumed: the rest of the batch, then what is
pending.  Pushing appends to it, swapping leaves it alone and `proceed` takes its head.
`EachAfter` states what holds of each element and those before it.
-/

namespace Chaonet
namespace Foundation

structure BatchQueue (α : Type*) where
  pending : List α
  /-- The rest of the batch, while one is being worked through. -/
  batch : Option (List α)
deriving DecidableEq, Repr

namespace BatchQueue

variable {α : Type*}

def empty : BatchQueue α := ⟨[], none⟩

/-- Append to the pending elements. -/
def push (q : BatchQueue α) (xs : List α) : BatchQueue α :=
  { q with pending := q.pending ++ xs }

/-- Start a batch with everything that is pending. -/
def swap (q : BatchQueue α) : BatchQueue α := { pending := [], batch := some q.pending }

/-- Go on with the rest `xs` of the batch. -/
def proceed (q : BatchQueue α) (xs : List α) : BatchQueue α := { q with batch := some xs }

/-- End the batch. -/
def finish (q : BatchQueue α) : BatchQueue α := { q with batch := none }

/-- All elements in the order of their consumption. -/
def queued (q : BatchQueue α) : List α := q.batch.getD [] ++ q.pending

@[simp] theorem queued_empty : (empty : BatchQueue α).queued = [] := rfl

@[simp] theorem queued_push (q : BatchQueue α) (xs : List α) :
    (q.push xs).queued = q.queued ++ xs := by
  simp [queued, push]

@[simp] theorem batch_push (q : BatchQueue α) (xs : List α) : (q.push xs).batch = q.batch := rfl

@[simp] theorem push_nil (q : BatchQueue α) : q.push [] = q := by
  simp [push]

@[simp] theorem queued_swap {q : BatchQueue α} (h : q.batch = none) :
    q.swap.queued = q.queued := by
  simp [queued, swap, h]

theorem queued_proceed {q : BatchQueue α} {x : α} {xs : List α} (h : q.batch = some (x :: xs)) :
    q.queued = x :: (q.proceed xs).queued := by
  simp [queued, proceed, h]

@[simp] theorem queued_finish {q : BatchQueue α} (h : q.batch = some []) :
    q.finish.queued = q.queued := by
  simp [queued, finish, h]

/-! ## What comes before what -/

/-- `Q before x` holds of every element `x` of the list and the elements `before` it. -/
def EachAfter (Q : List α → α → Prop) (xs : List α) : Prop :=
  ∀ i x, xs[i]? = some x → Q (xs.take i) x

variable {Q Q' : List α → α → Prop} {x : α} {xs : List α}

theorem eachAfter_nil : EachAfter Q [] := by
  intro i x hx
  simp at hx

theorem EachAfter.mono (h : EachAfter Q xs)
    (hQ : ∀ before x, before <+: xs → Q before x → Q' before x) : EachAfter Q' xs :=
  fun i x hx => hQ _ x (List.take_prefix i xs) (h i x hx)

/-- Pushing one element. -/
theorem EachAfter.push (h : EachAfter Q xs) (hx : Q xs x) : EachAfter Q (xs ++ [x]) := by
  intro i y hy
  by_cases hlt : i < xs.length
  · rw [List.getElem?_append_left hlt] at hy
    rw [List.take_append_of_le_length (Nat.le_of_lt hlt)]
    exact h i y hy
  · have hle : i < (xs ++ [x]).length := (List.getElem?_eq_some_iff.mp hy).1
    have hi : i = xs.length := by
      rw [List.length_append, List.length_singleton] at hle
      omega
    subst hi
    rw [List.getElem?_append_right (Nat.le_refl _), Nat.sub_self] at hy
    obtain rfl := Option.some.inj hy
    rw [List.take_left]
    exact hx

/-- What holds of the head, and of what is left when the head is taken. -/
theorem EachAfter.head (h : EachAfter Q (x :: xs)) : Q [] x := h 0 x rfl

theorem EachAfter.tail (h : EachAfter Q (x :: xs)) :
    EachAfter (fun before => Q (x :: before)) xs :=
  fun i y hy => h (i + 1) y hy

end BatchQueue
end Foundation
end Chaonet
