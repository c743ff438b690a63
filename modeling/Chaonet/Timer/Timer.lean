import Mathlib.Tactic.Common

/-!
# Timers and the timer descriptor

A `Timestamp` is an `Int`: the whole microseconds since the epoch.  `Timer` embeds the
objects of the class, `Timerfd` the one-shot kernel timer behind a timer descriptor, and
`TimerId` what a user holds of a timer.

`howMuchTimeFromNow` never asks for less than 100 microseconds, so that what is passed to
`timerfd_settime` always arms the descriptor (`howMuchTimeFromNow_legal`).
-/

namespace Chaonet

namespace Timestamp

def kMicroSecondsPerSecond : Int := 1000 * 1000

/-- `Timestamp()`. -/
def epoch : Int := 0

/-- `valid()`. -/
def valid (t : Int) : Prop := epoch ≤ t

instance (t : Int) : Decidable (valid t) := inferInstanceAs (Decidable (_ ≤ _))

/-- `Timestamp::invalid()`. -/
def invalid : Int := epoch

end Timestamp

/-- The `double interval` of a timer: whether it is positive, and the microseconds
`static_cast<int64_t>(interval * kMicroSecondsPerSecond)` that `addTime` adds for it. -/
structure Interval where
  positive : Bool
  micros : Int
  nonneg : positive = true → 0 ≤ micros
deriving DecidableEq

/-- The interval of `runAt` and `runAfter`. -/
def Interval.zero : Interval := ⟨false, 0, by simp⟩

/-- `addTime(timestamp, interval)`. -/
def addTime (timestamp : Int) (interval : Interval) : Int :=
  timestamp + interval.micros

/-- The address of a `Timer` object; `0` is the null pointer. -/
abbrev TimerPtr := Nat

structure Timer where
  expiration : Int
  interval : Interval
  sequence : Int
deriving DecidableEq

namespace Timer

/-- `repeat()`. -/
def «repeat» (t : Timer) : Bool := t.interval.positive

def restart (t : Timer) (now : Int) : Timer :=
  if t.repeat then
    { t with expiration := addTime now t.interval }
  else
    { t with expiration := Timestamp.invalid }

@[simp] theorem restart_sequence (t : Timer) (now : Int) :
    (t.restart now).sequence = t.sequence := by
  unfold restart
  split_ifs <;> rfl

@[simp] theorem restart_repeat (t : Timer) (now : Int) :
    (t.restart now).repeat = t.repeat := by
  unfold restart
  split_ifs <;> rfl

theorem restart_restart (t : Timer) (now : Int) : (t.restart now).restart now = t.restart now := by
  by_cases h : t.repeat = true
  · rw [restart, if_pos (by rw [restart_repeat, h])]
    simp [restart, h]
  · rw [restart, if_neg (by rw [restart_repeat]; exact h)]
    simp [restart, h]

/-- A repeating timer is never set to a time before the one it is restarted at. -/
theorem le_restart_expiration {t : Timer} (now : Int) (h : t.repeat = true) :
    now ≤ (t.restart now).expiration := by
  have hnonneg := t.interval.nonneg h
  rw [restart, if_pos h]
  show now ≤ now + t.interval.micros
  omega

end Timer

/-- What a user holds of a timer: a weak pointer and the sequence number. -/
structure TimerId where
  timer : TimerPtr
  sequence : Int
deriving DecidableEq, Repr

/-- The kernel's one-shot timer. -/
inductive Timerfd
  | disarmed
  /-- Armed at `armedAt`; the deadline has not been noticed yet. -/
  | armed (deadline armedAt : Int)
  /-- Expired, and not read since. -/
  | expired
deriving DecidableEq, Repr

/-- `struct timespec`. -/
structure Timespec where
  sec : Int
  nsec : Int
deriving DecidableEq, Repr

namespace Timespec

/-- What `timerfd_settime` takes as the time of a timer to be armed. -/
def Legal (ts : Timespec) : Prop := (ts.sec ≠ 0 ∨ ts.nsec ≠ 0) ∧ 0 ≤ ts.nsec ∧ ts.nsec < 1000000000

instance (ts : Timespec) : Decidable ts.Legal := inferInstanceAs (Decidable (_ ∧ _))

/-- The duration in microseconds. -/
def micros (ts : Timespec) : Int :=
  ts.sec * Timestamp.kMicroSecondsPerSecond + ts.nsec.tdiv 1000

end Timespec

/-- `howMuchTimeFromNow(when)`, at the time `now`. -/
def howMuchTimeFromNow (when_ now : Int) : Timespec :=
  let microseconds := if when_ - now < 100 then 100 else when_ - now
  { sec := microseconds.tdiv Timestamp.kMicroSecondsPerSecond
    nsec := microseconds.tmod Timestamp.kMicroSecondsPerSecond * 1000 }

/-- The time asked for is the time left, but at least 100 microseconds. -/
theorem howMuchTimeFromNow_micros (when_ now : Int) :
    (howMuchTimeFromNow when_ now).micros = max (when_ - now) 100 := by
  simp only [howMuchTimeFromNow, Timespec.micros, Timestamp.kMicroSecondsPerSecond]
  split_ifs with hsoon
  · have hleast : Int.tdiv 100 (1000 * 1000) * (1000 * 1000) +
        (Int.tmod 100 (1000 * 1000) * 1000).tdiv 1000 = 100 := by decide
    rw [hleast]
    omega
  · rw [Int.mul_tdiv_cancel _ (by decide), Int.mul_comm, Int.mul_tdiv_add_tmod]
    omega

theorem howMuchTimeFromNow_legal (when_ now : Int) : (howMuchTimeFromNow when_ now).Legal := by
  simp only [howMuchTimeFromNow, Timespec.Legal, Timestamp.kMicroSecondsPerSecond]
  split_ifs with hsoon
  · decide
  · have hnonneg : 0 ≤ when_ - now := by omega
    rw [Int.tdiv_eq_ediv_of_nonneg hnonneg, Int.tmod_eq_emod_of_nonneg hnonneg]
    omega

/-- The descriptor after `timerfd_settime` with a new value, at the time `now`. -/
def Timerfd.settime (value : Timespec) (now : Int) : Timerfd :=
  .armed (now + value.micros) now

end Chaonet
