import Chaonet.Foundation.Run
import Chaonet.Timer.TimerQueue

/-!
# A timer queue in its loop

`TimerLoop` is a timer queue together with what the loop thread is doing with it.  Outside
`handleRead` the loop thread executes `addTimerInLoop` and `cancelInLoop` in any order.
Inside, it takes the time, reads the descriptor and collects a batch of expired timers,
runs their callbacks one by one, and resets the queue.  A callback adds and cancels timers
by further steps, before the next callback starts.  Time passes and the descriptor expires
at any point.

Timers are made by any thread.  The address of a new timer is any that no living timer has:
a `Timer` lives as long as an index, the batch or a functor of `addTimerInLoop` holds it.
-/

namespace Chaonet

open Foundation

/-- Where the loop thread is in `handleRead`. -/
inductive Phase
  | idle
  /-- The time has been taken. -/
  | entered (now : Int)
  /-- The callbacks of the batch `expired` run; those of `remaining` have not started. -/
  | running (now : Int) (expired remaining : List Entry)
deriving DecidableEq

namespace Phase

/-- Whether the loop thread can execute a call: not before the first callback of a batch. -/
def Callable : Phase → Prop
  | idle => True
  | entered _ => False
  | running _ expired remaining => remaining.length < expired.length

instance : ∀ p : Phase, Decidable p.Callable
  | idle => .isTrue trivial
  | entered _ => .isFalse id
  | running .. => inferInstanceAs (Decidable (_ < _))

/-- The batch, while its callbacks run. -/
def expired : Phase → List Entry
  | running _ expired _ => expired
  | _ => []

/-- The part of the batch whose callbacks have not started. -/
def remaining : Phase → List Entry
  | running _ _ remaining => remaining
  | _ => []

end Phase

structure TimerLoop where
  queue : TimerQueue
  phase : Phase
  /-- `Timer::s_numCreated_`. -/
  numCreated : Int
  /-- The timers bound to an `addTimerInLoop` that has not executed. -/
  bound : List TimerPtr

namespace TimerLoop

open TimerQueue (Event)

/-- The addresses of the living timers. -/
def owners (s : TimerLoop) : List TimerPtr :=
  s.bound ++ s.queue.timers.toList.map Entry.timer ++
    s.queue.activeTimers.toList.map ActiveTimer.timer ++
    s.queue.cancelingTimers.toList.map ActiveTimer.timer ++ s.phase.expired.map Entry.timer

/-- `timerId.timer().lock()`: null unless the timer of this very sequence lives. -/
def lock (s : TimerLoop) (id : TimerId) : TimerPtr :=
  if id.timer ∈ s.owners ∧ (s.queue.heap id.timer).sequence = id.sequence then id.timer else 0

/-- The id of the timer at an address. -/
def id (s : TimerLoop) (timer : TimerPtr) : TimerId := ⟨timer, (s.queue.heap timer).sequence⟩

inductive Label
  /-- `std::make_shared<Timer>` and binding it, in `addTimer`. -/
  | addTimer (timer : TimerPtr) (when_ : Int) (interval : Interval)
  | addTimerInLoop (timer : TimerPtr)
  | cancelInLoop (id : TimerId)
  | tick (micros : Nat)
  /-- The kernel notices that the deadline has passed. -/
  | expire
  /-- `handleRead` is called and takes the time. -/
  | handleRead
  /-- `readTimerfd` and `getExpired`. -/
  | getExpired
  /-- The next callback of the batch starts. -/
  | run
  | reset
deriving DecidableEq

def addTimer (s : TimerLoop) (timer : TimerPtr) (when_ : Int) (interval : Interval) :
    Traced Event TimerLoop := do
  Traced.emit (.created ⟨timer, s.numCreated⟩)
  let object : Timer := ⟨when_, interval, s.numCreated⟩
  pure { s with
    queue := { s.queue with heap := Function.update s.queue.heap timer object }
    numCreated := s.numCreated + 1
    bound := s.bound ++ [timer] }

def addTimerInLoop (s : TimerLoop) (timer : TimerPtr) : Traced Event TimerLoop := do
  let queue ← s.queue.addTimerInLoop timer
  Traced.emit (.added (s.id timer))
  pure { s with queue, bound := s.bound.erase timer }

def cancelInLoop (s : TimerLoop) (id : TimerId) : Traced Event TimerLoop := do
  let queue ← s.queue.cancelInLoop (s.lock id) id.sequence
  Traced.emit (.cancelled id)
  pure { s with queue }

def getExpired (s : TimerLoop) (now : Int) : Traced Event TimerLoop := do
  let (queue, expired) ← s.queue.readTimerfd.getExpired now
  pure { s with
    queue := { queue with callingExpiredTimers := true, cancelingTimers := .empty }
    phase := .running now expired expired }

def run (s : TimerLoop) (now : Int) (expired : List Entry) (it : Entry) (rest : List Entry) :
    Traced Event TimerLoop := do
  Traced.emit (.started (s.id it.timer))
  pure { s with phase := .running now expired rest }

def reset (s : TimerLoop) (now : Int) (expired : List Entry) : Traced Event TimerLoop := do
  let queue ← { s.queue with callingExpiredTimers := false }.reset expired now
  pure { s with queue, phase := .idle }

/-- The enabled steps. -/
def step (s : TimerLoop) : Label → Option (Traced Event TimerLoop)
  | .addTimer timer when_ interval =>
      if timer ≠ 0 ∧ timer ∉ s.owners then some (s.addTimer timer when_ interval) else none
  | .addTimerInLoop timer =>
      if timer ∈ s.bound ∧ s.phase.Callable then some (s.addTimerInLoop timer) else none
  | .cancelInLoop id => if s.phase.Callable then some (s.cancelInLoop id) else none
  | .tick micros =>
      some (pure { s with queue := { s.queue with clock := s.queue.clock + micros } })
  | .expire =>
      match s.queue.timerfd with
      | .armed deadline _ =>
          if deadline ≤ s.queue.clock then
            some (pure { s with queue := { s.queue with timerfd := .expired } })
          else none
      | _ => none
  | .handleRead =>
      if s.phase = .idle then some (pure { s with phase := .entered s.queue.clock }) else none
  | .getExpired =>
      match s.phase with
      | .entered now => some (s.getExpired now)
      | _ => none
  | .run =>
      match s.phase with
      | .running now expired (it :: rest) => some (s.run now expired it rest)
      | _ => none
  | .reset =>
      match s.phase with
      | .running now expired [] => some (s.reset now expired)
      | _ => none

def Step : TimerLoop → Label → List Event → TimerLoop → Prop := stepOf step

/-- A new queue, at the time `clock`, where `numCreated` timers have been made before. -/
def start (heap : TimerPtr → Timer) (clock : Nat) (numCreated : Int) : TimerLoop :=
  { queue := .create heap clock
    phase := .idle
    numCreated
    bound := [] }

/-- What each step does, as one proposition. -/
theorem step_cases {s t : TimerLoop} {l : Label} {es : List Event} (h : Step s l es t) :
    match l with
    | .addTimer timer when_ interval => timer ≠ 0 ∧ timer ∉ s.owners ∧
        ⟨t, es⟩ = s.addTimer timer when_ interval
    | .addTimerInLoop timer => timer ∈ s.bound ∧ s.phase.Callable ∧
        ⟨t, es⟩ = s.addTimerInLoop timer
    | .cancelInLoop id => s.phase.Callable ∧ ⟨t, es⟩ = s.cancelInLoop id
    | .tick micros => es = [] ∧
        t = { s with queue := { s.queue with clock := s.queue.clock + micros } }
    | .expire => (∃ deadline armedAt, s.queue.timerfd = .armed deadline armedAt ∧
          deadline ≤ s.queue.clock) ∧ es = [] ∧
        t = { s with queue := { s.queue with timerfd := .expired } }
    | .handleRead => s.phase = .idle ∧ es = [] ∧ t = { s with phase := .entered s.queue.clock }
    | .getExpired => ∃ now, s.phase = .entered now ∧ ⟨t, es⟩ = s.getExpired now
    | .run => ∃ now expired it rest, s.phase = .running now expired (it :: rest) ∧
        ⟨t, es⟩ = s.run now expired it rest
    | .reset => ∃ now expired, s.phase = .running now expired [] ∧
        ⟨t, es⟩ = s.reset now expired := by
  cases l with
  | addTimer timer when_ interval =>
      simp only [Step, stepOf, step] at h
      split_ifs at h with hguard
      exact ⟨hguard.1, hguard.2, (Option.some.inj h).symm⟩
  | addTimerInLoop timer =>
      simp only [Step, stepOf, step] at h
      split_ifs at h with hguard
      exact ⟨hguard.1, hguard.2, (Option.some.inj h).symm⟩
  | cancelInLoop id =>
      simp only [Step, stepOf, step] at h
      split_ifs at h with hguard
      exact ⟨hguard, (Option.some.inj h).symm⟩
  | tick micros =>
      obtain ⟨rfl, rfl⟩ := Traced.mk.inj (Option.some.inj h)
      exact ⟨rfl, rfl⟩
  | expire =>
      simp only [Step, stepOf, step] at h
      split at h
      · rename_i deadline armedAt harmed
        split_ifs at h with hguard
        obtain ⟨rfl, rfl⟩ := Traced.mk.inj (Option.some.inj h)
        exact ⟨⟨deadline, armedAt, harmed, hguard⟩, rfl, rfl⟩
      · simp at h
  | handleRead =>
      simp only [Step, stepOf, step] at h
      split_ifs at h with hguard
      obtain ⟨rfl, rfl⟩ := Traced.mk.inj (Option.some.inj h)
      exact ⟨hguard, rfl, rfl⟩
  | getExpired =>
      simp only [Step, stepOf, step] at h
      split at h
      · rename_i now hphase
        exact ⟨now, hphase, (Option.some.inj h).symm⟩
      · simp at h
  | run =>
      simp only [Step, stepOf, step] at h
      split at h
      · rename_i now expired it rest hphase
        exact ⟨now, expired, it, rest, hphase, (Option.some.inj h).symm⟩
      · simp at h
  | reset =>
      simp only [Step, stepOf, step] at h
      split at h
      · rename_i now expired hphase
        exact ⟨now, expired, hphase, (Option.some.inj h).symm⟩
      · simp at h

end TimerLoop
end Chaonet
