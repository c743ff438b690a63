import Mathlib.Tactic.Common

/-!
# Computations with an observable trace

A C++ member function is embedded as a function from the object's fields to a
`Traced` result: the new fields together with the list of events it made
observable, in program order.  An event is whatever the embedding of a component
decides to observe: a system call, the start of a callback, a failed assertion.

`check` embeds `assert`.  It records the failure and keeps going, which is what
the release build does; in the debug build the process stops at the first event
that `check` recorded.  Both readings are available from one embedding: "no
assertion fails" says that the trace holds no failure, and "with assertions
compiled out" says nothing about those events.
-/

namespace Chaonet
namespace Foundation

/-- A value together with the events observed while it was computed. -/
structure Traced (ε α : Type*) where
  val : α
  trace : List ε
deriving DecidableEq, Repr

namespace Traced

variable {ε δ α β : Type*}

instance : Monad (Traced ε) where
  pure a := ⟨a, []⟩
  bind x f := ⟨(f x.val).val, x.trace ++ (f x.val).trace⟩

@[simp] theorem pure_val (a : α) : (pure a : Traced ε α).val = a := rfl

@[simp] theorem pure_trace (a : α) : (pure a : Traced ε α).trace = [] := rfl

@[simp] theorem bind_val {α β : Type _} (x : Traced ε α) (f : α → Traced ε β) :
    (x >>= f).val = (f x.val).val := rfl

@[simp] theorem bind_trace {α β : Type _} (x : Traced ε α) (f : α → Traced ε β) :
    (x >>= f).trace = x.trace ++ (f x.val).trace := rfl

instance : LawfulMonad (Traced ε) := LawfulMonad.mk' (Traced ε)
  (fun _ => by simp [Functor.map])
  (fun _ _ => rfl)
  (fun _ _ _ => by simp [bind])

/-- A computation that shows nothing is its value. -/
theorem eq_pure {x : Traced ε α} (h : x.trace = []) : x = pure x.val := by
  obtain ⟨val, trace⟩ := x
  obtain rfl : trace = [] := h
  rfl

@[simp] theorem map_val {α β : Type _} (f : α → β) (x : Traced ε α) :
    (f <$> x).val = f x.val := rfl

@[simp] theorem map_trace {α β : Type _} (f : α → β) (x : Traced ε α) :
    (f <$> x).trace = x.trace := List.append_nil _

/-- Make one event observable. -/
def emit (e : ε) : Traced ε Unit := ⟨(), [e]⟩

@[simp] theorem emit_trace (e : ε) : (emit e).trace = [e] := rfl

/-- `if (p) x;` for a computation that only shows events. -/
def when (p : Prop) [Decidable p] (x : Traced ε Unit) : Traced ε Unit :=
  ⟨(), if p then x.trace else []⟩

@[simp] theorem when_trace (p : Prop) [Decidable p] (x : Traced ε Unit) :
    (Traced.when p x).trace = if p then x.trace else [] := rfl

/-- `assert(p)`: a false `p` is recorded as the event `failure`. -/
def check (failure : ε) (p : Prop) [Decidable p] : Traced ε Unit :=
  ⟨(), if p then [] else [failure]⟩

theorem check_trace (failure : ε) (p : Prop) [Decidable p] :
    (check failure p).trace = if p then [] else [failure] := rfl

@[simp] theorem check_trace_of {failure : ε} {p : Prop} [Decidable p] (h : p) :
    (check failure p).trace = [] := if_pos h

theorem check_of {failure : ε} {p : Prop} [Decidable p] (h : p) : check failure p = pure () := by
  simp [check, h, pure]

theorem mem_check_trace {failure e : ε} {p : Prop} [Decidable p] :
    e ∈ (check failure p).trace ↔ ¬p ∧ e = failure := by
  by_cases h : p <;> simp [check_trace, h]

/-- Embed the events of a component into the events of the object that owns it. -/
def lift (f : ε → δ) (x : Traced ε α) : Traced δ α := ⟨x.val, x.trace.map f⟩

@[simp] theorem lift_val (f : ε → δ) (x : Traced ε α) : (x.lift f).val = x.val := rfl

@[simp] theorem lift_trace (f : ε → δ) (x : Traced ε α) :
    (x.lift f).trace = x.trace.map f := rfl

end Traced
end Foundation
end Chaonet
