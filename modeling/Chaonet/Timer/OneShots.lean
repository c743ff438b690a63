import Mathlib.Data.List.Basic
import Mathlib.Data.List.Perm.Basic
import Mathlib.Tactic.Common

/-!
# One-shot timers

What `runAfter` and `cancel` mean to their caller on the loop thread.  A timer is
`scheduled` until its time has come; `handleRead` then moves it into the batch of `expired`
timers, out of which it runs.  Cancelling takes a timer out of the schedule, but not out of
the batch.  Times are microseconds.
-/

namespace Chaonet

structure Shot (α : Type*) where
  sequence : Nat
  expiration : Nat
  callback : α
deriving DecidableEq, Repr

structure OneShots (α : Type*) where
  clock : Nat
  numCreated : Nat
  scheduled : List (Shot α)
  /-- The timers of the current batch that have not run. -/
  expired : List (Shot α)
deriving DecidableEq, Repr

namespace OneShots

variable {α : Type*}

def create (clock numCreated : Nat) : OneShots α := ⟨clock, numCreated, [], []⟩

/-- `runAfter(delay, callback)`, with the sequence number of the new timer. -/
def runAfter (q : OneShots α) (delay : Nat) (callback : α) : OneShots α × Nat :=
  ({ q with
      numCreated := q.numCreated + 1
      scheduled := q.scheduled ++ [⟨q.numCreated, q.clock + delay, callback⟩] },
    q.numCreated)

/-- `cancel(timerId)`; a default `TimerId` names no timer. -/
def cancel (q : OneShots α) (timerId : Option Nat) : OneShots α :=
  { q with scheduled := q.scheduled.filter fun t => some t.sequence ≠ timerId }

/-- The start of `TimerQueue::handleRead`: the timers whose time has come are the batch. -/
def handleRead (q : OneShots α) : OneShots α :=
  { q with
    scheduled := q.scheduled.filter fun t => q.clock ≤ t.expiration
    expired := q.scheduled.filter fun t => t.expiration < q.clock }

instance [DecidableEq α] (q : OneShots α) (t : Shot α) : Decidable (t ∈ q.expired) :=
  inferInstanceAs (Decidable (t ∈ (_ : List (Shot α))))

/-- The callback of a timer of the batch is called. -/
def run [DecidableEq α] (q : OneShots α) (t : Shot α) : OneShots α :=
  { q with expired := q.expired.erase t }

def tick (q : OneShots α) (micros : Nat) : OneShots α := { q with clock := q.clock + micros }

/-- The timers that have not run. -/
def waiting (q : OneShots α) : List (Shot α) := q.scheduled ++ q.expired

variable {q : OneShots α}

@[simp] theorem waiting_tick (q : OneShots α) (micros : Nat) :
    (q.tick micros).waiting = q.waiting := rfl

theorem mem_waiting {t : Shot α} : t ∈ q.waiting ↔ t ∈ q.scheduled ∨ t ∈ q.expired :=
  List.mem_append

theorem waiting_eq_nil : q.waiting = [] ↔ q.scheduled = [] ∧ q.expired = [] :=
  List.append_eq_nil_iff

theorem waiting_cancel_sublist (q : OneShots α) (timerId : Option Nat) :
    (q.cancel timerId).waiting.Sublist q.waiting :=
  List.filter_sublist.append (List.Sublist.refl _)

theorem mem_scheduled_cancel {timerId : Option Nat} {t : Shot α} :
    t ∈ (q.cancel timerId).scheduled ↔ t ∈ q.scheduled ∧ timerId ≠ some t.sequence := by
  rw [cancel, List.mem_filter, decide_eq_true_iff, ne_comm]

/-- Cancelling the only scheduled timer empties the schedule. -/
theorem scheduled_cancel {timerId : Option Nat}
    (h : ∀ t ∈ q.scheduled, timerId = some t.sequence) : (q.cancel timerId).scheduled = [] := by
  refine List.filter_eq_nil_iff.mpr fun t ht => ?_
  simp [h t ht]

/-- Nothing is lost between the schedule and the batch. -/
theorem waiting_handleRead (h : q.expired = []) : q.handleRead.waiting.Perm q.waiting := by
  have hsplit : (fun t : Shot α => decide (q.clock ≤ t.expiration)) =
      fun t => !decide (t.expiration < q.clock) := by
    funext t
    rw [← decide_not]
    exact decide_eq_decide.mpr Nat.not_lt.symm
  rw [waiting, waiting, h, List.append_nil, handleRead, hsplit]
  exact List.perm_append_comm.trans (List.filter_append_perm _ q.scheduled)

theorem waiting_run [DecidableEq α] {t : Shot α} (ht : t ∈ q.expired) :
    (t :: (q.run t).waiting).Perm q.waiting := by
  refine List.perm_middle.symm.trans ?_
  exact (List.perm_cons_erase ht).symm.append_left _

theorem waiting_run_subset [DecidableEq α] (q : OneShots α) (t : Shot α) :
    ∀ t' ∈ (q.run t).waiting, t' ∈ q.waiting := by
  intro t' ht'
  rcases mem_waiting.mp ht' with hsched | hexp
  · exact mem_waiting.mpr (Or.inl hsched)
  · exact mem_waiting.mpr (Or.inr (List.mem_of_mem_erase hexp))

theorem waiting_handleRead_subset (q : OneShots α) :
    ∀ t ∈ q.handleRead.waiting, t ∈ q.waiting := by
  intro t ht
  rcases mem_waiting.mp ht with hsched | hexp
  · exact mem_waiting.mpr (Or.inl (List.mem_of_mem_filter hsched))
  · exact mem_waiting.mpr (Or.inl (List.mem_of_mem_filter hexp))

/-! ## The order of the timers -/

/-- The batch is of the past, and nothing that is scheduled comes before it. -/
structure InOrder (q : OneShots α) : Prop where
  past : ∀ t ∈ q.expired, t.expiration < q.clock
  later : ∀ t ∈ q.expired, ∀ t' ∈ q.scheduled, t.expiration ≤ t'.expiration

namespace InOrder

theorem create (clock numCreated : Nat) : (OneShots.create clock numCreated : OneShots α).InOrder :=
  ⟨fun _ ht => absurd ht List.not_mem_nil, fun _ ht => absurd ht List.not_mem_nil⟩

theorem runAfter (h : q.InOrder) (delay : Nat) (callback : α) :
    (q.runAfter delay callback).1.InOrder := by
  refine ⟨h.past, fun t ht t' ht' => ?_⟩
  rcases List.mem_append.mp ht' with hbefore | hnew
  · exact h.later t ht t' hbefore
  · have hpast := h.past t ht
    rw [List.mem_singleton.mp hnew]
    exact Nat.le_trans (Nat.le_of_lt hpast) (Nat.le_add_right _ _)

theorem cancel (h : q.InOrder) (timerId : Option Nat) : (q.cancel timerId).InOrder :=
  ⟨h.past, fun t ht t' ht' => h.later t ht t' (List.mem_of_mem_filter ht')⟩

theorem handleRead (q : OneShots α) : q.handleRead.InOrder := by
  have hpast : ∀ t ∈ q.handleRead.expired, t.expiration < q.clock := fun t ht => by
    simpa using (List.mem_filter.mp ht).2
  refine ⟨hpast, fun t ht t' ht' => ?_⟩
  have hlater : q.clock ≤ t'.expiration := by
    simpa using (List.mem_filter.mp ht').2
  exact Nat.le_trans (Nat.le_of_lt (hpast t ht)) hlater

theorem run [DecidableEq α] (h : q.InOrder) (t : Shot α) : (q.run t).InOrder :=
  ⟨fun t' ht' => h.past t' (List.mem_of_mem_erase ht'),
    fun t' ht' => h.later t' (List.mem_of_mem_erase ht')⟩

theorem tick (h : q.InOrder) (micros : Nat) : (q.tick micros).InOrder :=
  ⟨fun t ht => Nat.lt_add_right micros (h.past t ht), h.later⟩

/-- Whatever comes before a timer of the batch is in the batch itself. -/
theorem expired_of_lt (h : q.InOrder) {t t' : Shot α} (ht : t ∈ q.waiting) (ht' : t' ∈ q.expired)
    (hlt : t.expiration < t'.expiration) : t ∈ q.expired :=
  (mem_waiting.mp ht).resolve_left fun hscheduled =>
    absurd (h.later t' ht' t hscheduled) (Nat.not_le.mpr hlt)

end InOrder
end OneShots
end Chaonet
