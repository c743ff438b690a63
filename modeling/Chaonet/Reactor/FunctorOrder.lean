import Chaonet.Reactor.EventLoop

/-!
# The order in which functors run

What has been executed and what is still queued is, in this order, what has been pushed
(`Ordered`).  A call of `doPendingFunctors` works through what was pending at its swap
(`InBatch`); what is pushed meanwhile, also by its own functors, waits for a later call.
-/

namespace Chaonet

open Foundation

namespace EventLoop

variable {α : Type} {s t : EventLoop α} {es es' : List (Event α)}

/-- The functors pushed under the mutex, in this order. -/
def pushed (es : List (Event α)) : List α :=
  es.filterMap fun
    | .pushed _ f => some f
    | _ => none

/-- The functors `doPendingFunctors` has started, in this order. -/
def executed (es : List (Event α)) : List α :=
  es.filterMap fun
    | .executed f => some f
    | _ => none

@[simp] theorem pushed_nil : pushed ([] : List (Event α)) = [] := rfl

@[simp] theorem executed_nil : executed ([] : List (Event α)) = [] := rfl

@[simp] theorem pushed_append : pushed (es ++ es') = pushed es ++ pushed es' :=
  List.filterMap_append

@[simp] theorem executed_append : executed (es ++ es') = executed es ++ executed es' :=
  List.filterMap_append

/-- Only `queueInLoop` pushes, one functor at the end of the queue. -/
theorem queueInLoop_queue (s : EventLoop α) (th : Thread) (f : α) :
    (s.queueInLoop th f).val.queue = s.queue.push [f] ∧
      pushed (s.queueInLoop th f).trace = [f] ∧ executed (s.queueInLoop th f).trace = [] ∧
      (s.queueInLoop th f).val.phase = s.phase := by
  rw [queueInLoop_val]
  by_cases hwake : th ≠ .loop ∨ s.callingPendingFunctors = true
  · rw [if_pos hwake]
    refine ⟨rfl, ?_, ?_, rfl⟩
    · simp [queueInLoop, hwake, pushed]
    · simp [queueInLoop, hwake, executed]
  · rw [if_neg hwake]
    refine ⟨rfl, ?_, ?_, rfl⟩
    · simp [queueInLoop, hwake, pushed]
    · simp [queueInLoop, hwake, executed]

theorem loopingFailed_unordered (p : Prop) [Decidable p] :
    pushed (Traced.check (Event.loopingFailed : Event α) p).trace = [] ∧
      executed (Traced.check (Event.loopingFailed : Event α) p).trace = [] := by
  by_cases h : p <;> simp [Traced.check_trace, h, pushed, executed]

/-- What a step can do to the order: push a functor, start the next one of the batch, or
neither.  In the last case only the swap and the end of a batch touch the queue. -/
inductive Progress (s : EventLoop α) : Label α → List (Event α) → EventLoop α → Prop
  | push {l : Label α} {es : List (Event α)} {t : EventLoop α} (f : α) :
      pushed es = [f] → executed es = [] → t.queue = s.queue.push [f] → t.phase = s.phase →
        Progress s l es t
  | run {l : Label α} {es : List (Event α)} {t : EventLoop α} (f : α) (rest : List α) :
      s.queue.batch = some (f :: rest) → pushed es = [] → executed es = [f] →
        t.queue = s.queue.proceed rest → t.phase = s.phase → Progress s l es t
  | swap {es : List (Event α)} {t : EventLoop α} :
      s.phase = .handling false → es = [] → t.queue = s.queue.swap → t.phase = .functors →
        Progress s .swap es t
  | finish {es : List (Event α)} {t : EventLoop α} :
      s.queue.batch = some [] → es = [] → t.queue = s.queue.finish → t.phase = .testing →
        Progress s .finish es t
  | other {l : Label α} {es : List (Event α)} {t : EventLoop α} :
      pushed es = [] → executed es = [] → t.queue = s.queue →
        (t.phase = s.phase ∨ s.phase ≠ .functors ∧ t.phase ≠ .functors) → Progress s l es t

theorem step_progress {l : Label α} (h : Step s l es t) : Progress s l es t := by
  have hcases := step_cases h
  cases l with
  | queueInLoop th f =>
      obtain ⟨-, heq⟩ := hcases
      obtain ⟨rfl, rfl⟩ := Traced.mk.inj heq
      obtain ⟨hqueue, hpushed, hexecuted, hphase⟩ := queueInLoop_queue s th f
      exact .push f hpushed hexecuted hqueue hphase
  | wakeup th =>
      obtain ⟨-, rfl, rfl⟩ := hcases
      rw [wakeup_frame]
      exact .other rfl rfl rfl (Or.inl rfl)
  | quit th =>
      obtain ⟨-, rfl, ⟨-, rfl⟩ | ⟨-, rfl⟩⟩ := hcases
      · exact .other rfl rfl rfl (Or.inl rfl)
      · exact .other rfl rfl rfl (Or.inl rfl)
  | quitWakeup th =>
      obtain ⟨-, rfl, rfl⟩ := hcases
      rw [wakeup_frame]
      exact .other rfl rfl rfl (Or.inl rfl)
  | loop =>
      obtain ⟨hphase, -, rfl, rfl⟩ := hcases
      obtain ⟨hpushed, hexecuted⟩ := loopingFailed_unordered (α := α) (s.looping = false)
      exact .other hpushed hexecuted rfl (Or.inr ⟨by simp [hphase], by simp⟩)
  | test =>
      obtain ⟨hphase, rfl, ⟨-, rfl⟩ | ⟨-, rfl⟩⟩ := hcases
      · exact .other rfl rfl rfl (Or.inr ⟨by simp [hphase], by simp⟩)
      · exact .other rfl rfl rfl (Or.inr ⟨by simp [hphase], by simp⟩)
  | poll wakeup =>
      obtain ⟨hphase, -, rfl, rfl⟩ := hcases
      exact .other rfl rfl rfl (Or.inr ⟨by simp [hphase], by simp⟩)
  | handleWakeup =>
      obtain ⟨hphase, rfl, rfl⟩ := hcases
      exact .other rfl rfl rfl (Or.inr ⟨by simp [hphase], by simp⟩)
  | swap =>
      obtain ⟨hphase, rfl, rfl⟩ := hcases
      exact .swap hphase rfl rfl rfl
  | run =>
      obtain ⟨f, rest, hbatch, -, -, rfl, rfl⟩ := hcases
      exact .run f rest hbatch rfl rfl rfl rfl
  | finish =>
      obtain ⟨-, -, hbatch, rfl, rfl⟩ := hcases
      exact .finish hbatch rfl rfl rfl

/-! ## Executed, then queued, is pushed -/

/-- Nothing is lost, doubled or reordered, and a batch exists only while functors run. -/
structure Ordered (past : List (Event α)) (s : EventLoop α) : Prop where
  order : executed past ++ s.queue.queued = pushed past
  batch : s.phase ≠ .functors → s.queue.batch = none

theorem Ordered.step {past : List (Event α)} (h : Ordered past s) {l : Label α}
    (hstep : Step s l es t) : Ordered (past ++ es) t := by
  have horder := h.order
  cases step_progress hstep with
  | push f hpushed hexecuted hqueue hphase =>
      constructor
      case order =>
        rw [executed_append, pushed_append, hexecuted, hpushed, hqueue, BatchQueue.queued_push,
          List.append_nil, ← List.append_assoc, horder]
      case batch =>
        intro hout
        rw [hqueue, BatchQueue.batch_push]
        exact h.batch (hphase ▸ hout)
  | run f rest hbatch hpushed hexecuted hqueue hphase =>
      constructor
      case order =>
        rw [BatchQueue.queued_proceed hbatch] at horder
        rw [executed_append, pushed_append, hexecuted, hpushed, hqueue, List.append_nil,
          List.append_assoc]
        exact horder
      case batch =>
        intro hout
        rw [h.batch (hphase ▸ hout)] at hbatch
        simp at hbatch
  | swap hphase hes hqueue hphase' =>
      subst hes
      have hnone : s.queue.batch = none := h.batch (by simp [hphase])
      constructor
      case order => simpa [hqueue, BatchQueue.queued_swap hnone] using horder
      case batch => exact fun hout => absurd hphase' hout
  | finish hbatch hes hqueue hphase =>
      subst hes
      constructor
      case order => simpa [hqueue, BatchQueue.queued_finish hbatch] using horder
      case batch =>
        intro _
        rw [hqueue]
        rfl
  | other hpushed hexecuted hqueue hphase =>
      constructor
      case order => simpa [hqueue, hpushed, hexecuted] using horder
      case batch =>
        intro hout
        rw [hqueue]
        rcases hphase with hphase | ⟨hphase, -⟩
        · exact h.batch (hphase ▸ hout)
        · exact h.batch hphase

theorem ordered_of_run {ls : List (Label α)} (h : Run Step create ls es s) : Ordered es s :=
  h.history (I := Ordered) [] ⟨rfl, fun _ => rfl⟩ (fun _ _ _ _ _ hpast hstep => hpast.step hstep)

/-! ## One call of `doPendingFunctors` -/

/-- `doPendingFunctors` is running the functors `batch`, of which `done` have started. -/
structure InBatch (batch done : List α) (s : EventLoop α) : Prop where
  phase : s.phase = .functors
  rest : ∃ rest, s.queue.batch = some rest ∧ done ++ rest = batch

/-- Until the batch is finished, only its own functors are started. -/
theorem InBatch.step {batch done : List α} (h : InBatch batch done s) {l : Label α}
    (hstep : Step s l es t) (hfinish : l ≠ .finish) : InBatch batch (done ++ executed es) t := by
  obtain ⟨rest, hbatch, hdone⟩ := h.rest
  cases step_progress hstep with
  | push f _ hexecuted hqueue hphase =>
      rw [hexecuted, List.append_nil]
      exact ⟨hphase.trans h.phase, rest, by rw [hqueue, BatchQueue.batch_push, hbatch], hdone⟩
  | run f rest' hbatch' _ hexecuted hqueue hphase =>
      obtain rfl : rest = f :: rest' := Option.some.inj (hbatch.symm.trans hbatch')
      refine ⟨hphase.trans h.phase, rest', by rw [hqueue]; rfl, ?_⟩
      rw [hexecuted, ← hdone]
      simp
  | swap hphase => exact absurd (h.phase.symm.trans hphase) (by simp)
  | finish => exact absurd rfl hfinish
  | other _ hexecuted hqueue hphase =>
      rw [hexecuted, List.append_nil]
      refine ⟨?_, rest, by rw [hqueue, hbatch], hdone⟩
      rcases hphase with hphase | ⟨hphase, -⟩
      · exact hphase.trans h.phase
      · exact absurd h.phase hphase

theorem InBatch.run {batch done : List α} (h : InBatch batch done s) {ls : List (Label α)}
    (hrun : Run Step s ls es t) (hfinish : .finish ∉ ls) :
    InBatch batch (done ++ executed es) t := by
  induction hrun generalizing done with
  | nil s => simpa using h
  | cons hstep _ ih =>
      rw [List.mem_cons, not_or] at hfinish
      rw [executed_append, ← List.append_assoc]
      exact ih (h.step hstep (Ne.symm hfinish.1)) hfinish.2

/-- **Functors run exactly once and in order.**  What has been executed is at every moment
a prefix of what has been pushed; and a call of `doPendingFunctors` starts only functors
pushed before its swap, and has started all of them when it ends. -/
theorem functors_in_order {ls : List (Label α)} (h : Run Step create ls es s) :
    executed es <+: pushed es ∧
      ∀ es₁ s₁ ls₂ es₂ s₂, Step s .swap es₁ s₁ → Run Step s₁ ls₂ es₂ s₂ → .finish ∉ ls₂ →
        executed es ++ executed es₂ <+: pushed es ∧
          ∀ es₃ s₃, Step s₂ .finish es₃ s₃ → executed es ++ executed es₂ = pushed es := by
  have hordered := ordered_of_run h
  refine ⟨⟨s.queue.queued, hordered.order⟩, fun es₁ s₁ ls₂ es₂ s₂ hswap hrun hfinish => ?_⟩
  obtain ⟨hphase, -, rfl⟩ := step_cases hswap
  have hnone : s.queue.batch = none := hordered.batch (by simp [hphase])
  have hpending : executed es ++ s.queue.pending = pushed es := by
    simpa [BatchQueue.queued, hnone] using hordered.order
  have hstart : InBatch s.queue.pending [] { s with
      callingPendingFunctors := true, queue := s.queue.swap, phase := .functors } :=
    ⟨rfl, s.queue.pending, rfl, rfl⟩
  obtain ⟨-, rest, hbatch, hdone⟩ := hstart.run hrun hfinish
  rw [List.nil_append] at hdone
  constructor
  · rw [← hpending, ← hdone, ← List.append_assoc]
    exact List.prefix_append _ _
  · intro es₃ s₃ hend
    -- The call ends when nothing is left of its batch.
    obtain ⟨-, -, hempty, -, -⟩ := step_cases hend
    obtain rfl : rest = [] := Option.some.inj (hbatch.symm.trans hempty)
    rw [← hpending, ← hdone, List.append_nil]

/-- A functor queues another one, which waits for the second call. -/
def requeued : List (Label Nat) :=
  [.queueInLoop (.other 1) 7, .wakeup (.other 1), .loop, .test, .poll true, .handleWakeup, .swap,
    .run, .queueInLoop .loop 8, .wakeup .loop, .finish, .test, .poll false]

theorem functors_in_order_requeued :
    ∃ es s, Run Step create requeued es s ∧ executed es = [7] ∧ pushed es = [7, 8] ∧
      executed es <+: pushed es ∧
      ∀ es₁ s₁ ls₂ es₂ s₂, Step s .swap es₁ s₁ → Run Step s₁ ls₂ es₂ s₂ → .finish ∉ ls₂ →
        executed es ++ executed es₂ <+: pushed es ∧
          ∀ es₃ s₃, Step s₂ .finish es₃ s₃ → executed es ++ executed es₂ = pushed es := by
  obtain ⟨es, s, hrun, hexecuted, hpushed⟩ : ∃ es s, Run Step create requeued es s ∧
      executed es = [7] ∧ pushed es = [7, 8] := Run.exists_of_exec _ (by decide +kernel)
  exact ⟨es, s, hrun, hexecuted, hpushed, functors_in_order hrun⟩

end EventLoop
end Chaonet
