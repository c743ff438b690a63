import Chaonet.Foundation.BatchQueue
import Mathlib.Data.List.Nodup

/-!
# The iterations of an event loop

`EventLoop::loop` polls, handles the active channels in turn, and runs the functors that are
pending then.  `Iteration` is where the loop thread is in this: `ω` names the channels of the
loop and `φ` its functors.  What handling a channel and running a functor does is left to
whoever uses it; the operations here are enabled where they return a state.
-/

namespace Chaonet

open Foundation

/-- The three statements in the body of `loop()`. -/
inductive LoopPhase
  | polling
  | handling
  | functors
deriving DecidableEq, Repr

structure Iteration (ω φ : Type*) where
  phase : LoopPhase
  /-- What is left of `activeChannels_`. -/
  active : List ω
  /-- `pendingFunctors_`, and the functors swapped out of it. -/
  queue : BatchQueue φ
  /-- The time at which the last `poll` has returned. -/
  began : Nat
deriving DecidableEq, Repr

namespace Iteration

variable {ω φ : Type*}

/-- A loop that has not done anything. -/
def create (clock : Nat) : Iteration ω φ := ⟨.polling, [], .empty, clock⟩

/-- `queueInLoop`. -/
def push (i : Iteration ω φ) (functors : List φ) : Iteration ω φ :=
  { i with queue := i.queue.push functors }

/-- `fillActiveChannels` adds a channel. -/
def activate [DecidableEq ω] (i : Iteration ω φ) (o : ω) : Option (Iteration ω φ) :=
  if i.phase = .polling ∧ o ∉ i.active then some { i with active := i.active ++ [o] } else none

/-- `poll` returns. -/
def wake (i : Iteration ω φ) (clock : Nat) : Option (Iteration ω φ) :=
  if i.phase = .polling then some { i with phase := .handling, began := clock } else none

/-- The next channel is handled. -/
def next (i : Iteration ω φ) : Option (ω × Iteration ω φ) :=
  match i.phase, i.active with
  | .handling, o :: active => some (o, { i with active })
  | _, _ => none

/-- `doPendingFunctors` swaps the functors out. -/
def swap (i : Iteration ω φ) : Option (Iteration ω φ) :=
  if i.phase = .handling ∧ i.active = [] then
    some { i with phase := .functors, queue := i.queue.swap }
  else none

/-- The next functor of the batch is run. -/
def nextFunctor (i : Iteration ω φ) : Option (φ × Iteration ω φ) :=
  match i.phase, i.queue.batch with
  | .functors, some (f :: rest) => some (f, { i with queue := i.queue.proceed rest })
  | _, _ => none

/-- `doPendingFunctors` returns. -/
def finish (i : Iteration ω φ) : Option (Iteration ω φ) :=
  match i.phase, i.queue.batch with
  | .functors, some [] => some { i with phase := .polling, queue := i.queue.finish }
  | _, _ => none

variable {i j : Iteration ω φ}

@[simp] theorem push_nil (i : Iteration ω φ) : i.push [] = i := by simp [push]

@[simp] theorem queued_push (i : Iteration ω φ) (functors : List φ) :
    (i.push functors).queue.queued = i.queue.queued ++ functors :=
  BatchQueue.queued_push _ _

theorem activate_eq_some [DecidableEq ω] {o : ω} : i.activate o = some j ↔
    i.phase = .polling ∧ o ∉ i.active ∧ j = { i with active := i.active ++ [o] } := by
  unfold activate
  split_ifs with h
  · rw [Option.some.injEq, eq_comm]
    exact ⟨fun heq => ⟨h.1, h.2, heq⟩, fun hall => hall.2.2⟩
  · exact ⟨fun hnone => by simp at hnone, fun hall => absurd ⟨hall.1, hall.2.1⟩ h⟩

theorem wake_eq_some {clock : Nat} : i.wake clock = some j ↔
    i.phase = .polling ∧ j = { i with phase := .handling, began := clock } := by
  unfold wake
  split_ifs with h
  · rw [Option.some.injEq, eq_comm]
    exact ⟨fun heq => ⟨h, heq⟩, And.right⟩
  · exact ⟨fun hnone => by simp at hnone, fun hall => absurd hall.1 h⟩

theorem next_eq_some {o : ω} : i.next = some (o, j) ↔
    i.phase = .handling ∧ i.active = o :: j.active ∧ j = { i with active := j.active } := by
  obtain ⟨phase, active, queue, began⟩ := i
  obtain ⟨phase', active', queue', began'⟩ := j
  cases phase <;> cases active <;> simp [next]
  grind

theorem swap_eq_some : i.swap = some j ↔
    i.phase = .handling ∧ i.active = [] ∧
      j = { i with phase := .functors, queue := i.queue.swap } := by
  unfold swap
  split_ifs with h
  · rw [Option.some.injEq, eq_comm]
    exact ⟨fun heq => ⟨h.1, h.2, heq⟩, fun hall => hall.2.2⟩
  · exact ⟨fun hnone => by simp at hnone, fun hall => absurd ⟨hall.1, hall.2.1⟩ h⟩

theorem nextFunctor_eq_some {f : φ} : i.nextFunctor = some (f, j) ↔
    i.phase = .functors ∧ ∃ rest, i.queue.batch = some (f :: rest) ∧
      j = { i with queue := i.queue.proceed rest } := by
  unfold nextFunctor
  split
  · rename_i g rest hphase hbatch
    simp only [Option.some.injEq, Prod.mk.injEq, hphase, hbatch, true_and, List.cons.injEq]
    constructor
    · rintro ⟨rfl, rfl⟩
      exact ⟨rest, ⟨rfl, rfl⟩, rfl⟩
    · rintro ⟨rest', ⟨rfl, rfl⟩, rfl⟩
      exact ⟨rfl, rfl⟩
  · rename_i hno
    constructor
    · intro hnone
      simp at hnone
    · rintro ⟨hphase, rest, hbatch, -⟩
      exact absurd hbatch (hno f rest hphase)

theorem finish_eq_some : i.finish = some j ↔
    i.phase = .functors ∧ i.queue.batch = some [] ∧
      j = { i with phase := .polling, queue := i.queue.finish } := by
  unfold finish
  split
  · rename_i hphase hbatch
    rw [Option.some.injEq, eq_comm]
    exact ⟨fun heq => ⟨hphase, hbatch, heq⟩, fun hall => hall.2.2⟩
  · rename_i hno
    exact ⟨fun hnone => by simp at hnone, fun hall => absurd hall.2.1 (hno hall.1)⟩

/-! ## Runs of iterations -/

/-- A batch is under way exactly in the third statement, and channels are active in the
first two only, each once. -/
structure InTurn (i : Iteration ω φ) : Prop where
  batch : i.phase ≠ .functors → i.queue.batch = none
  active : i.phase = .functors → i.active = []
  once : i.active.Nodup

theorem InTurn.create (clock : Nat) : (create clock : Iteration ω φ).InTurn :=
  ⟨fun _ => rfl, fun _ => rfl, List.nodup_nil⟩

theorem InTurn.push (h : i.InTurn) (functors : List φ) : (i.push functors).InTurn :=
  ⟨h.batch, h.active, h.once⟩

theorem InTurn.activate [DecidableEq ω] {o : ω} (h : i.InTurn) (hstep : i.activate o = some j) :
    j.InTurn ∧ j.queue = i.queue := by
  obtain ⟨hphase, hnew, rfl⟩ := activate_eq_some.mp hstep
  refine ⟨⟨h.batch, fun hfunctors => by simp [hphase] at hfunctors, ?_⟩, rfl⟩
  rw [List.nodup_append]
  refine ⟨h.once, List.nodup_singleton o, ?_⟩
  rintro o' ho' _ ho rfl
  exact hnew (List.mem_singleton.mp ho ▸ ho')

theorem InTurn.wake {clock : Nat} (h : i.InTurn) (hstep : i.wake clock = some j) :
    j.InTurn ∧ j.queue = i.queue := by
  obtain ⟨hphase, rfl⟩ := wake_eq_some.mp hstep
  exact ⟨⟨fun _ => h.batch (by simp [hphase]), fun hfunctors => by simp at hfunctors, h.once⟩, rfl⟩

theorem InTurn.next {o : ω} (h : i.InTurn) (hstep : i.next = some (o, j)) :
    j.InTurn ∧ j.queue = i.queue := by
  obtain ⟨hphase, hactive, heq⟩ := next_eq_some.mp hstep
  rw [heq]
  have honce := h.once
  rw [hactive] at honce
  exact ⟨⟨fun _ => h.batch (by simp [hphase]), fun hfunctors => by simp [hphase] at hfunctors,
    honce.of_cons⟩, rfl⟩

/-- A channel is active once. -/
theorem InTurn.next_fresh {o : ω} (h : i.InTurn) (hstep : i.next = some (o, j)) : o ∉ j.active := by
  obtain ⟨-, hactive, -⟩ := next_eq_some.mp hstep
  have honce := h.once
  rw [hactive] at honce
  exact (List.nodup_cons.mp honce).1

theorem InTurn.swap (h : i.InTurn) (hstep : i.swap = some j) :
    j.InTurn ∧ j.queue.queued = i.queue.queued := by
  obtain ⟨hphase, hactive, rfl⟩ := swap_eq_some.mp hstep
  exact ⟨⟨fun hnot => by simp at hnot, fun _ => hactive, h.once⟩,
    BatchQueue.queued_swap (h.batch (by simp [hphase]))⟩

theorem InTurn.nextFunctor {f : φ} (h : i.InTurn) (hstep : i.nextFunctor = some (f, j)) :
    j.InTurn ∧ i.queue.queued = f :: j.queue.queued := by
  obtain ⟨hphase, rest, hbatch, rfl⟩ := nextFunctor_eq_some.mp hstep
  exact ⟨⟨fun hnot => absurd hphase hnot, h.active, h.once⟩, BatchQueue.queued_proceed hbatch⟩

theorem InTurn.finish (h : i.InTurn) (hstep : i.finish = some j) :
    j.InTurn ∧ j.queue.queued = i.queue.queued := by
  obtain ⟨hphase, hbatch, rfl⟩ := finish_eq_some.mp hstep
  exact ⟨⟨fun _ => rfl, fun hfunctors => by simp at hfunctors, h.once⟩,
    BatchQueue.queued_finish hbatch⟩

end Iteration
end Chaonet
