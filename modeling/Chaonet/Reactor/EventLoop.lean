import Chaonet.Foundation.BatchQueue
import Chaonet.Foundation.Run

/-!
# Event loops and their functor queue

`EventLoop` embeds the part of the class that runs functors: `loop`, `queueInLoop`, `quit`,
`wakeup`, the read handler of the wakeup channel and `doPendingFunctors`, over any type of
functors.  Any thread may push a functor; whether the push is followed by a write to the
eventfd depends on the thread and on `callingPendingFunctors_`, and the push and the write
are two steps.  The loop thread polls, runs the handlers of the active channels, and swaps
the queue out to run it.

`Notified` is the invariant behind `no_lost_functor_wakeup`: unless handlers are being run,
functors wait in the queue only while the eventfd is readable or a thread is about to write
to it.
-/

namespace Chaonet

open Foundation

inductive Thread
  /-- The thread of the loop. -/
  | loop
  | other (n : Nat)
deriving DecidableEq, Repr

namespace EventLoop

/-- Where the loop thread is. -/
inductive Phase
  /-- Not in `loop()`. -/
  | outside
  /-- About to test `quit_`. -/
  | testing
  /-- In `poller_->poll`. -/
  | polling
  /-- In the handlers; `wakeup` tells whether the wakeup channel is still to be handled. -/
  | handling (wakeup : Bool)
  /-- In `doPendingFunctors`, after the swap. -/
  | functors
deriving DecidableEq, Repr

inductive Event (α : Type)
  | pushed (t : Thread) (f : α)
  | executed (f : α)
  /-- `assert(!looping_)` fails in `loop`. -/
  | loopingFailed
deriving DecidableEq, Repr

end EventLoop

structure EventLoop (α : Type) where
  looping : Bool
  quit : Bool
  callingPendingFunctors : Bool
  /-- `pendingFunctors_`, and the vector `doPendingFunctors` has swapped it into. -/
  queue : BatchQueue α
  /-- The counter of the eventfd `wakeupFd_`. -/
  counter : Nat
  /-- The threads that are about to write to the eventfd after a push. -/
  waking : List Thread
  /-- The threads that are about to write to the eventfd after setting `quit_`. -/
  quitting : List Thread
  phase : EventLoop.Phase
deriving DecidableEq, Repr

namespace EventLoop

variable {α : Type}

/-- The largest value an eventfd counter can take. -/
def maxCounter : Nat := 0xfffffffffffffffe

/-- `wakeup()`: a non-blocking write of 1, which fails on a full counter. -/
def wakeup (s : EventLoop α) : EventLoop α :=
  if s.counter < maxCounter then { s with counter := s.counter + 1 } else s

/-- `handleRead()`: a read takes the whole counter, and fails on 0. -/
def handleRead (s : EventLoop α) : EventLoop α := { s with counter := 0 }

inductive Label (α : Type)
  /-- `queueInLoop` pushes under the mutex. -/
  | queueInLoop (t : Thread) (f : α)
  /-- The write to the eventfd after a push. -/
  | wakeup (t : Thread)
  /-- `quit` sets `quit_`. -/
  | quit (t : Thread)
  /-- The write to the eventfd after that. -/
  | quitWakeup (t : Thread)
  /-- `loop()` is entered. -/
  | loop
  /-- The test of `while (!quit_)`. -/
  | test
  /-- `poll` returns; `wakeup` tells whether the wakeup channel is active. -/
  | poll (wakeup : Bool)
  /-- The handler of the wakeup channel runs. -/
  | handleWakeup
  /-- `doPendingFunctors` swaps the queue out. -/
  | swap
  /-- The next functor of the batch starts. -/
  | run
  | finish
deriving DecidableEq, Repr

/-- Whether thread `t` can make a call: the loop thread is not inside `poll`, nor about to
write to the eventfd, and other threads make one call at a time. -/
def CanCall (s : EventLoop α) (t : Thread) : Prop :=
  (t ∉ s.waking ∧ t ∉ s.quitting) ∧ (t = .loop → s.phase ≠ .testing ∧ s.phase ≠ .polling)

instance (s : EventLoop α) (t : Thread) : Decidable (s.CanCall t) :=
  inferInstanceAs (Decidable (_ ∧ _))

/-- The push of `queueInLoop`, and the decision to wake the loop. -/
def queueInLoop (s : EventLoop α) (t : Thread) (f : α) : Traced (Event α) (EventLoop α) := do
  Traced.emit (Event.pushed t f)
  if t ≠ .loop ∨ s.callingPendingFunctors = true then
    pure { s with queue := s.queue.push [f], waking := t :: s.waking }
  else
    pure { s with queue := s.queue.push [f] }

/-- The enabled steps. -/
def step (s : EventLoop α) : Label α → Option (Traced (Event α) (EventLoop α))
  | .queueInLoop t f => if s.CanCall t then some (s.queueInLoop t f) else none
  | .wakeup t =>
      if t ∈ s.waking then some (pure { s.wakeup with waking := s.waking.erase t }) else none
  | .quit t =>
      if s.CanCall t then
        -- `quit_` is seen by the loop before the eventfd is written.
        if t ≠ .loop then some (pure { s with quit := true, quitting := t :: s.quitting })
        else some (pure { s with quit := true })
      else none
  | .quitWakeup t =>
      if t ∈ s.quitting then some (pure { s.wakeup with quitting := s.quitting.erase t }) else none
  | .loop =>
      if s.phase = .outside ∧ Thread.loop ∉ s.waking then
        some (do
          Traced.check Event.loopingFailed (s.looping = false)
          pure { s with looping := true, quit := false, phase := .testing })
      else none
  | .test =>
      if s.phase = .testing then
        if s.quit = true then some (pure { s with looping := false, phase := .outside })
        else some (pure { s with phase := .polling })
      else none
  | .poll wakeup =>
      if s.phase = .polling ∧ (wakeup = true → s.counter ≠ 0) then
        some (pure { s with phase := .handling wakeup })
      else none
  | .handleWakeup =>
      if s.phase = .handling true then
        some (pure { s.handleRead with phase := .handling false })
      else none
  | .swap =>
      -- From here on the loop thread wakes itself up when it queues.
      if s.phase = .handling false then
        some (pure { s with
          callingPendingFunctors := true
          queue := s.queue.swap
          phase := .functors })
      else none
  | .run =>
      match s.queue.batch with
      | some (f :: rest) =>
          if s.phase = .functors ∧ Thread.loop ∉ s.waking then
            some ⟨{ s with queue := s.queue.proceed rest }, [.executed f]⟩
          else none
      | _ => none
  | .finish =>
      match s.queue.batch with
      | some [] =>
          if s.phase = .functors ∧ Thread.loop ∉ s.waking then
            some (pure { s with
              callingPendingFunctors := false
              queue := s.queue.finish
              phase := .testing })
          else none
      | _ => none

def Step : EventLoop α → Label α → List (Event α) → EventLoop α → Prop := stepOf step

/-- `EventLoop()`. -/
def create : EventLoop α :=
  { looping := false
    quit := false
    callingPendingFunctors := false
    queue := .empty
    counter := 0
    waking := []
    quitting := []
    phase := .outside }

/-- What each step does, as one proposition. -/
theorem step_cases {s t : EventLoop α} {l : Label α} {es : List (Event α)} (h : Step s l es t) :
    match l with
    | .queueInLoop th f => s.CanCall th ∧ ⟨t, es⟩ = s.queueInLoop th f
    | .wakeup th => th ∈ s.waking ∧ es = [] ∧ t = { s.wakeup with waking := s.waking.erase th }
    | .quit th => s.CanCall th ∧ es = [] ∧ ((th ≠ .loop ∧
          t = { s with quit := true, quitting := th :: s.quitting }) ∨
        (th = .loop ∧ t = { s with quit := true }))
    | .quitWakeup th => th ∈ s.quitting ∧ es = [] ∧
        t = { s.wakeup with quitting := s.quitting.erase th }
    | .loop => s.phase = .outside ∧ Thread.loop ∉ s.waking ∧
        es = (Traced.check Event.loopingFailed (s.looping = false)).trace ∧
        t = { s with looping := true, quit := false, phase := .testing }
    | .test => s.phase = .testing ∧ es = [] ∧
        ((s.quit = true ∧ t = { s with looping := false, phase := .outside }) ∨
          (s.quit = false ∧ t = { s with phase := .polling }))
    | .poll wakeup => s.phase = .polling ∧ (wakeup = true → s.counter ≠ 0) ∧ es = [] ∧
        t = { s with phase := .handling wakeup }
    | .handleWakeup => s.phase = .handling true ∧ es = [] ∧
        t = { s.handleRead with phase := .handling false }
    | .swap => s.phase = .handling false ∧ es = [] ∧
        t = { s with
          callingPendingFunctors := true
          queue := s.queue.swap
          phase := .functors }
    | .run => ∃ f rest, s.queue.batch = some (f :: rest) ∧ s.phase = .functors ∧
        Thread.loop ∉ s.waking ∧ es = [.executed f] ∧ t = { s with queue := s.queue.proceed rest }
    | .finish => s.phase = .functors ∧ Thread.loop ∉ s.waking ∧ s.queue.batch = some [] ∧ es = [] ∧
        t = { s with
          callingPendingFunctors := false
          queue := s.queue.finish
          phase := .testing } := by
  cases l with
  | queueInLoop th f =>
      simp only [Step, stepOf, step] at h
      split_ifs at h with hguard
      exact ⟨hguard, (Option.some.inj h).symm⟩
  | wakeup th =>
      simp only [Step, stepOf, step] at h
      split_ifs at h with hguard
      obtain ⟨rfl, rfl⟩ := Traced.mk.inj (Option.some.inj h)
      exact ⟨hguard, rfl, rfl⟩
  | quit th =>
      simp only [Step, stepOf, step] at h
      split_ifs at h with hguard hother
      · obtain ⟨rfl, rfl⟩ := Traced.mk.inj (Option.some.inj h)
        exact ⟨hguard, rfl, Or.inl ⟨hother, rfl⟩⟩
      · obtain ⟨rfl, rfl⟩ := Traced.mk.inj (Option.some.inj h)
        exact ⟨hguard, rfl, Or.inr ⟨not_not.mp hother, rfl⟩⟩
  | quitWakeup th =>
      simp only [Step, stepOf, step] at h
      split_ifs at h with hguard
      obtain ⟨rfl, rfl⟩ := Traced.mk.inj (Option.some.inj h)
      exact ⟨hguard, rfl, rfl⟩
  | loop =>
      simp only [Step, stepOf, step] at h
      split_ifs at h with hguard
      obtain ⟨rfl, rfl⟩ := Traced.mk.inj (Option.some.inj h)
      exact ⟨hguard.1, hguard.2, List.append_nil _, rfl⟩
  | test =>
      simp only [Step, stepOf, step] at h
      split_ifs at h with hguard hquit
      · obtain ⟨rfl, rfl⟩ := Traced.mk.inj (Option.some.inj h)
        exact ⟨hguard, rfl, Or.inl ⟨hquit, rfl⟩⟩
      · obtain ⟨rfl, rfl⟩ := Traced.mk.inj (Option.some.inj h)
        exact ⟨hguard, rfl, Or.inr ⟨by simpa using hquit, rfl⟩⟩
  | poll wakeup =>
      simp only [Step, stepOf, step] at h
      split_ifs at h with hguard
      obtain ⟨rfl, rfl⟩ := Traced.mk.inj (Option.some.inj h)
      exact ⟨hguard.1, hguard.2, rfl, rfl⟩
  | handleWakeup =>
      simp only [Step, stepOf, step] at h
      split_ifs at h with hguard
      obtain ⟨rfl, rfl⟩ := Traced.mk.inj (Option.some.inj h)
      exact ⟨hguard, rfl, rfl⟩
  | swap =>
      simp only [Step, stepOf, step] at h
      split_ifs at h with hguard
      obtain ⟨rfl, rfl⟩ := Traced.mk.inj (Option.some.inj h)
      exact ⟨hguard, rfl, rfl⟩
  | run =>
      simp only [Step, stepOf, step] at h
      split at h
      · rename_i f rest hbatch
        split_ifs at h with hguard
        obtain ⟨rfl, rfl⟩ := Traced.mk.inj (Option.some.inj h)
        exact ⟨f, rest, hbatch, hguard.1, hguard.2, rfl, rfl⟩
      · simp at h
  | finish =>
      simp only [Step, stepOf, step] at h
      split at h
      · rename_i hbatch
        split_ifs at h with hguard
        obtain ⟨rfl, rfl⟩ := Traced.mk.inj (Option.some.inj h)
        exact ⟨hguard.1, hguard.2, hbatch, rfl, rfl⟩
      · simp at h

/-! ## No lost wakeup -/

/-- The thread of the loop queues functors only inside `loop()`. -/
def OwnerInside (s : EventLoop α) : Label α → Prop
  | .queueInLoop .loop _ => s.phase ≠ .outside
  | _ => True

instance (s : EventLoop α) : ∀ l, Decidable (s.OwnerInside l)
  | .queueInLoop .loop _ => inferInstanceAs (Decidable (_ ≠ _))
  | .queueInLoop (.other _) _ | .wakeup _ | .quit _ | .quitWakeup _ | .loop | .test | .poll _
  | .handleWakeup | .swap | .run | .finish => .isTrue trivial

/-- Somebody has woken the loop or is about to. -/
def Signalled (s : EventLoop α) : Prop := s.counter ≠ 0 ∨ s.waking ≠ []

structure Notified (s : EventLoop α) : Prop where
  /-- Handlers may take the counter and queue without a wakeup; outside of them nobody does. -/
  pending : (∀ wakeup, s.phase ≠ .handling wakeup) → s.queue.pending ≠ [] → s.Signalled
  /-- The loop thread wakes itself up only while it runs functors. -/
  own : Thread.loop ∈ s.waking → s.phase = .functors
  calling : s.callingPendingFunctors = true ↔ s.phase = .functors

variable {s t : EventLoop α} {es : List (Event α)}

theorem wakeup_counter (s : EventLoop α) : s.wakeup.counter ≠ 0 := by
  unfold wakeup
  split_ifs with hroom
  · exact Nat.succ_ne_zero s.counter
  · intro hzero
    rw [hzero] at hroom
    exact hroom (by decide)

/-- A write to the eventfd touches only its counter. -/
theorem wakeup_frame (s : EventLoop α) : s.wakeup = { s with counter := s.wakeup.counter } := by
  unfold wakeup
  split_ifs <;> rfl

theorem queueInLoop_val (s : EventLoop α) (t : Thread) (f : α) :
    (s.queueInLoop t f).val =
      if t ≠ .loop ∨ s.callingPendingFunctors = true then
        { s with queue := s.queue.push [f], waking := t :: s.waking }
      else { s with queue := s.queue.push [f] } := by
  by_cases hwake : t ≠ .loop ∨ s.callingPendingFunctors = true
  · rw [if_pos hwake, queueInLoop, Traced.bind_val, if_pos hwake, Traced.pure_val]
  · rw [if_neg hwake, queueInLoop, Traced.bind_val, if_neg hwake, Traced.pure_val]

/-- Steps of the loop thread outside `doPendingFunctors`. -/
theorem Notified.move (h : Notified s) (hold : s.phase ≠ .functors) (hnew : t.phase ≠ .functors)
    (hwaking : t.waking = s.waking)
    (hcalling : t.callingPendingFunctors = s.callingPendingFunctors)
    (hpending : (∀ wakeup, t.phase ≠ .handling wakeup) → t.queue.pending ≠ [] → t.Signalled) :
    Notified t := by
  constructor
  case pending => exact hpending
  case own =>
    intro hmem
    rw [hwaking] at hmem
    exact absurd (h.own hmem) hold
  case calling =>
    rw [hcalling, h.calling]
    exact iff_of_false hold hnew

theorem Notified.step (h : Notified s) {l : Label α} (hinside : s.OwnerInside l)
    (hstep : Step s l es t) : Notified t := by
  have hcases := step_cases hstep
  cases l with
  | queueInLoop th f =>
      obtain ⟨⟨-, hcan⟩, heq⟩ := hcases
      have hval : t = (s.queueInLoop th f).val := congrArg Traced.val heq
      rw [hval, queueInLoop_val]
      split_ifs with hwake
      · constructor
        case pending => exact fun _ _ => Or.inr (List.cons_ne_nil _ _)
        case own =>
          intro hmem
          rcases List.mem_cons.mp hmem with rfl | hmem
          · exact h.calling.mp (hwake.resolve_left (fun hne => hne rfl))
          · exact h.own hmem
        case calling => exact h.calling
      · -- The loop thread queues from a handler, and does not need a wakeup there.
        obtain ⟨hloop, hcalling⟩ := not_or.mp hwake
        obtain rfl := not_not.mp hloop
        constructor
        case pending =>
          intro hhandling
          obtain ⟨htesting, hpolling⟩ := hcan rfl
          cases hphase : s.phase with
          | outside => exact absurd hphase hinside
          | testing => exact absurd hphase htesting
          | polling => exact absurd hphase hpolling
          | handling wakeup => exact absurd hphase (hhandling wakeup)
          | functors => exact absurd (h.calling.mpr hphase) hcalling
        case own => exact h.own
        case calling => exact h.calling
  | wakeup th =>
      obtain ⟨hmem, -, rfl⟩ := hcases
      have hcounter := wakeup_counter s
      rw [wakeup_frame]
      exact ⟨fun _ _ => Or.inl hcounter, fun hmem => h.own (List.mem_of_mem_erase hmem), h.calling⟩
  | quit th =>
      obtain ⟨-, -, ⟨-, rfl⟩ | ⟨-, rfl⟩⟩ := hcases
      · exact ⟨h.pending, h.own, h.calling⟩
      · exact ⟨h.pending, h.own, h.calling⟩
  | quitWakeup th =>
      obtain ⟨-, -, rfl⟩ := hcases
      have hcounter := wakeup_counter s
      rw [wakeup_frame]
      exact ⟨fun _ _ => Or.inl hcounter, h.own, h.calling⟩
  | loop =>
      obtain ⟨hphase, -, -, rfl⟩ := hcases
      have hpending := h.pending (by simp [hphase])
      exact h.move (by simp [hphase]) (by simp) rfl rfl (fun _ => hpending)
  | test =>
      obtain ⟨hphase, -, heq⟩ := hcases
      have hpending := h.pending (by simp [hphase])
      rcases heq with ⟨-, rfl⟩ | ⟨-, rfl⟩
      · exact h.move (by simp [hphase]) (by simp) rfl rfl (fun _ => hpending)
      · exact h.move (by simp [hphase]) (by simp) rfl rfl (fun _ => hpending)
  | poll wakeup =>
      obtain ⟨hphase, -, -, rfl⟩ := hcases
      -- While handlers run, nothing is asked of the queue.
      exact h.move (by simp [hphase]) (by simp) rfl rfl (fun hout => absurd rfl (hout wakeup))
  | handleWakeup =>
      obtain ⟨hphase, -, rfl⟩ := hcases
      -- The counter is taken before the queue is swapped, and handlers still run.
      exact h.move (by simp [hphase]) (by simp) rfl rfl (fun hout => absurd rfl (hout false))
  | swap =>
      obtain ⟨-, -, rfl⟩ := hcases
      -- The queue is empty now; what is pushed from here on is followed by a wakeup.
      exact ⟨fun _ hpending => absurd rfl hpending, fun _ => rfl, by simp⟩
  | run =>
      obtain ⟨f, rest, -, -, -, -, rfl⟩ := hcases
      exact ⟨h.pending, h.own, h.calling⟩
  | finish =>
      obtain ⟨hphase, hwaking, -, -, rfl⟩ := hcases
      have hpending := h.pending (by simp [hphase])
      exact ⟨fun _ => hpending, fun hmem => absurd hmem hwaking, by simp⟩

theorem Notified.create : Notified (create : EventLoop α) :=
  ⟨fun _ hpending => absurd rfl hpending, fun hmem => absurd hmem List.not_mem_nil, by
    simp [EventLoop.create]⟩

/-- **No lost functor wakeup**: if the thread of the loop queues functors only inside
`loop()`, then whenever it is in `poll` while functors are pending, the eventfd counter is
not zero or another thread is between its push and its wakeup. -/
theorem no_lost_functor_wakeup {ls : List (Label α)}
    (h : Run (restrict OwnerInside Step) create ls es s) (hpoll : s.phase = .polling)
    (hpending : s.queue.pending ≠ []) : s.counter ≠ 0 ∨ ∃ n, Thread.other n ∈ s.waking := by
  have hnotified : Notified s :=
    h.invariant Notified.create fun _ _ _ _ hs ⟨hinside, hstep⟩ => hs.step hinside hstep
  rcases hnotified.pending (by simp [hpoll]) hpending with hcounter | hwaking
  · exact Or.inl hcounter
  · obtain ⟨th, hth⟩ := List.exists_mem_of_ne_nil _ hwaking
    cases th with
    | loop => exact absurd (hnotified.own hth) (by simp [hpoll])
    | other n => exact Or.inr ⟨n, hth⟩

/-- A thread pushes while the loop thread, in a second round, is about to poll. -/
def pushedLate : List (Label Nat) :=
  [.queueInLoop (.other 1) 7, .wakeup (.other 1), .loop, .test, .poll true, .queueInLoop .loop 8,
    .handleWakeup, .swap, .run, .queueInLoop .loop 9, .wakeup .loop, .run, .finish,
    .queueInLoop (.other 2) 5, .test]

theorem no_lost_functor_wakeup_pushedLate :
    ∃ es s, Run (restrict OwnerInside Step) create pushedLate es s ∧ s.phase = .polling ∧
      s.queue.pending = [9, 5] ∧ (s.counter ≠ 0 ∨ ∃ n, Thread.other n ∈ s.waking) := by
  obtain ⟨es, s, hrun, hpoll, hpending⟩ : ∃ es s,
      Run (restrict OwnerInside Step) create pushedLate es s ∧ s.phase = .polling ∧
        s.queue.pending = [9, 5] := Run.exists_of_exec_guarded _ (by decide +kernel)
  exact ⟨es, s, hrun, hpoll, hpending,
    no_lost_functor_wakeup hrun hpoll (by simp [hpending])⟩

end EventLoop
end Chaonet
