import Chaonet.Reactor.EventLoop
import Chaonet.Timer.Cancellation

/-!
# A timer queue and its users

A `TimerSession` is the timer queue of a loop together with the functors that other threads
have queued for it.  Any thread makes timers and cancels those whose id it holds.  Where
`addTimer` and `cancel` come to `runInLoop`, the loop thread executes `addTimerInLoop` or
`cancelInLoop` at once, and another thread queues it.  The loop thread is in one place at a
time: in `handleRead`, in `doPendingFunctors`, or in some other handler.

An id is issued when the `addTimer` that made the timer returns.  Which thread holds it
then does not matter, so that ids may be handed from thread to thread.
-/

namespace Chaonet

open Foundation

namespace TimerSession

/-- The functors of a timer queue. -/
inductive Functor
  | addTimerInLoop (timer : TimerPtr)
  | cancelInLoop (id : TimerId)
deriving DecidableEq

/-- The step in which the loop thread executes a functor. -/
def Functor.label : Functor → TimerLoop.Label
  | addTimerInLoop timer => .addTimerInLoop timer
  | cancelInLoop id => .cancelInLoop id

end TimerSession

structure TimerSession where
  timers : TimerLoop
  queue : BatchQueue TimerSession.Functor
  /-- The threads inside `addTimer`, each with the timer it has made. -/
  adding : List (Thread × TimerPtr)
  /-- The ids that calls of `addTimer` have returned. -/
  issued : List TimerId

namespace TimerSession

open TimerQueue (Event)

inductive Label
  /-- Thread `t` makes a timer, in `addTimer`. -/
  | addTimer (t : Thread) (timer : TimerPtr) (when_ : Int) (interval : Interval)
  /-- Its `addTimer` calls `runInLoop` and returns. -/
  | returnId (t : Thread) (timer : TimerPtr)
  | cancel (t : Thread) (id : TimerId)
  /-- Time passes, or the kernel timer expires. -/
  | tick (micros : Nat)
  | expire
  /-- The steps of `TimerQueue::handleRead`. -/
  | handleRead
  | getExpired
  | run
  | reset
  /-- The steps of `doPendingFunctors`. -/
  | swap
  | runFunctor
  | finish
deriving DecidableEq

/-- The thread is not inside `addTimer`. -/
def Free (s : TimerSession) (t : Thread) : Prop := ∀ p ∈ s.adding, p.1 ≠ t

instance (s : TimerSession) (t : Thread) : Decidable (s.Free t) :=
  inferInstanceAs (Decidable (∀ p ∈ _, _))

/-- Let the timers take a step of their own. -/
def perform (s : TimerSession) (l : TimerLoop.Label) : Option (Traced Event TimerSession) :=
  (s.timers.step l).map fun x => ⟨{ s with timers := x.val }, x.trace⟩

/-- `loop_->runInLoop(f)`, called by thread `t`. -/
def runInLoop (s : TimerSession) (t : Thread) (f : Functor) :
    Option (Traced Event TimerSession) :=
  match t with
  | .loop => s.perform f.label
  | .other _ => some (pure { s with queue := s.queue.push [f] })

/-- The enabled steps. -/
def step (s : TimerSession) : Label → Option (Traced Event TimerSession)
  | .addTimer t timer when_ interval =>
      if s.Free t ∧ (t = .loop → s.timers.phase.Callable) then
        { s with adding := (t, timer) :: s.adding }.perform (.addTimer timer when_ interval)
      else none
  | .returnId t timer =>
      if (t, timer) ∈ s.adding then
        { s with
          adding := s.adding.erase (t, timer)
          issued := s.timers.id timer :: s.issued }.runInLoop t (.addTimerInLoop timer)
      else none
  | .cancel t id =>
      if s.Free t ∧ id ∈ s.issued then s.runInLoop t (.cancelInLoop id) else none
  | .tick micros => s.perform (.tick micros)
  | .expire => s.perform .expire
  | .handleRead =>
      if s.Free .loop ∧ s.queue.batch = none then s.perform .handleRead else none
  | .getExpired => if s.Free .loop then s.perform .getExpired else none
  | .run => if s.Free .loop then s.perform .run else none
  | .reset => if s.Free .loop then s.perform .reset else none
  | .swap =>
      if s.Free .loop ∧ s.timers.phase = .idle ∧ s.queue.batch = none then
        some (pure { s with queue := s.queue.swap })
      else none
  | .runFunctor =>
      match s.queue.batch with
      | some (f :: rest) =>
          if s.Free .loop ∧ s.timers.phase = .idle then
            { s with queue := s.queue.proceed rest }.perform f.label
          else none
      | _ => none
  | .finish =>
      if s.Free .loop ∧ s.queue.batch = some [] then
        some (pure { s with queue := s.queue.finish })
      else none

def Step : TimerSession → Label → List Event → TimerSession → Prop := stepOf step

def start (heap : TimerPtr → Timer) (clock : Nat) (numCreated : Int) : TimerSession :=
  { timers := .start heap clock numCreated
    queue := .empty
    adding := []
    issued := [] }

/-! ## The steps -/

variable {s t : TimerSession} {es past : List Event} {id : TimerId}

/-- What `perform` comes to. -/
def Performs (s : TimerSession) (l : TimerLoop.Label) (es : List Event) (t : TimerSession) :
    Prop :=
  ∃ timers, TimerLoop.Step s.timers l es timers ∧ t = { s with timers }

theorem performs_of_eq {l : TimerLoop.Label} (h : s.perform l = some ⟨t, es⟩) :
    s.Performs l es t := by
  obtain ⟨x, hx, heq⟩ := Option.map_eq_some_iff.mp h
  obtain ⟨rfl, rfl⟩ := Traced.mk.inj heq
  exact ⟨x.val, hx, rfl⟩

/-- What `runInLoop` comes to. -/
def RunsInLoop (s : TimerSession) (th : Thread) (f : Functor) (es : List Event)
    (t : TimerSession) : Prop :=
  th = .loop ∧ s.Performs f.label es t ∨
    th ≠ .loop ∧ es = [] ∧ t = { s with queue := s.queue.push [f] }

theorem runsInLoop_of_eq {th : Thread} {f : Functor} (h : s.runInLoop th f = some ⟨t, es⟩) :
    s.RunsInLoop th f es t := by
  cases th with
  | loop => exact Or.inl ⟨rfl, performs_of_eq h⟩
  | other n =>
      obtain ⟨rfl, rfl⟩ := Traced.mk.inj (Option.some.inj h)
      exact Or.inr ⟨by simp, rfl, rfl⟩

/-- What each step does, as one proposition. -/
theorem step_cases {l : Label} (h : Step s l es t) :
    match l with
    | .addTimer th timer when_ interval =>
        { s with adding := (th, timer) :: s.adding }.Performs (.addTimer timer when_ interval) es t
    | .returnId th timer => (th, timer) ∈ s.adding ∧
        { s with
          adding := s.adding.erase (th, timer)
          issued := s.timers.id timer :: s.issued }.RunsInLoop th (.addTimerInLoop timer) es t
    | .cancel th id => id ∈ s.issued ∧ s.RunsInLoop th (.cancelInLoop id) es t
    | .tick micros => s.Performs (.tick micros) es t
    | .expire => s.Performs .expire es t
    | .handleRead => s.Performs .handleRead es t
    | .getExpired => s.Performs .getExpired es t
    | .run => s.Performs .run es t
    | .reset => s.Performs .reset es t
    | .swap => s.queue.batch = none ∧ es = [] ∧ t = { s with queue := s.queue.swap }
    | .runFunctor => ∃ f rest, s.queue.batch = some (f :: rest) ∧ s.timers.phase = .idle ∧
        { s with queue := s.queue.proceed rest }.Performs f.label es t
    | .finish => s.queue.batch = some [] ∧ es = [] ∧ t = { s with queue := s.queue.finish } := by
  cases l with
  | addTimer th timer when_ interval =>
      simp only [Step, stepOf, step] at h
      split_ifs at h with hguard
      exact performs_of_eq h
  | returnId th timer =>
      simp only [Step, stepOf, step] at h
      split_ifs at h with hguard
      exact ⟨hguard, runsInLoop_of_eq h⟩
  | cancel th id =>
      simp only [Step, stepOf, step] at h
      split_ifs at h with hguard
      exact ⟨hguard.2, runsInLoop_of_eq h⟩
  | tick micros => exact performs_of_eq h
  | expire => exact performs_of_eq h
  | handleRead =>
      simp only [Step, stepOf, step] at h
      split_ifs at h with hguard
      exact performs_of_eq h
  | getExpired =>
      simp only [Step, stepOf, step] at h
      split_ifs at h with hguard
      exact performs_of_eq h
  | run =>
      simp only [Step, stepOf, step] at h
      split_ifs at h with hguard
      exact performs_of_eq h
  | reset =>
      simp only [Step, stepOf, step] at h
      split_ifs at h with hguard
      exact performs_of_eq h
  | swap =>
      simp only [Step, stepOf, step] at h
      split_ifs at h with hguard
      obtain ⟨rfl, rfl⟩ := Traced.mk.inj (Option.some.inj h)
      exact ⟨hguard.2.2, rfl, rfl⟩
  | runFunctor =>
      simp only [Step, stepOf, step] at h
      split at h
      · rename_i f rest hbatch
        split_ifs at h with hguard
        exact ⟨f, rest, hbatch, hguard.2, performs_of_eq h⟩
      · simp at h
  | finish =>
      simp only [Step, stepOf, step] at h
      split_ifs at h with hguard
      obtain ⟨rfl, rfl⟩ := Traced.mk.inj (Option.some.inj h)
      exact ⟨hguard.2, rfl, rfl⟩

/-- The timers take one step of their own, or none. -/
theorem step_timers {l : Label} (h : Step s l es t) :
    (∃ l', TimerLoop.Step s.timers l' es t.timers) ∨ t.timers = s.timers ∧ es = [] := by
  have hcases := step_cases h
  cases l with
  | addTimer th timer when_ interval =>
      obtain ⟨timers, hstep, rfl⟩ := hcases
      exact Or.inl ⟨_, hstep⟩
  | returnId th timer =>
      obtain ⟨-, ⟨-, timers, hstep, rfl⟩ | ⟨-, rfl, rfl⟩⟩ := hcases
      · exact Or.inl ⟨_, hstep⟩
      · exact Or.inr ⟨rfl, rfl⟩
  | cancel th id =>
      obtain ⟨-, ⟨-, timers, hstep, rfl⟩ | ⟨-, rfl, rfl⟩⟩ := hcases
      · exact Or.inl ⟨_, hstep⟩
      · exact Or.inr ⟨rfl, rfl⟩
  | tick _ | expire | handleRead | getExpired | run | reset =>
      obtain ⟨timers, hstep, rfl⟩ := hcases
      exact Or.inl ⟨_, hstep⟩
  | swap =>
      obtain ⟨-, rfl, rfl⟩ := hcases
      exact Or.inr ⟨rfl, rfl⟩
  | runFunctor =>
      obtain ⟨f, rest, -, -, timers, hstep, rfl⟩ := hcases
      exact Or.inl ⟨_, hstep⟩
  | finish =>
      obtain ⟨-, rfl, rfl⟩ := hcases
      exact Or.inr ⟨rfl, rfl⟩

/-- The timers of a session run like timers with a loop of their own. -/
theorem timers_run {ls : List Label} (h : Run Step s ls es t) :
    ∃ ls', Run TimerLoop.Step s.timers ls' es t.timers := by
  induction h with
  | nil s => exact ⟨[], .nil s.timers⟩
  | cons hstep _ ih =>
      obtain ⟨ls', hrun⟩ := ih
      rcases step_timers hstep with ⟨l', hfirst⟩ | ⟨htimers, rfl⟩
      · exact ⟨l' :: ls', .cons hfirst hrun⟩
      · exact ⟨ls', htimers ▸ hrun⟩

end TimerSession
end Chaonet
