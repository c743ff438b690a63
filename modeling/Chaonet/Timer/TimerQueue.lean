import Chaonet.Foundation.OrderedSet
import Chaonet.Foundation.Traced
import Chaonet.Timer.Timer
import Mathlib.Data.Int.Order.Basic
import Mathlib.Data.Prod.Lex
import Mathlib.Logic.Function.Basic
import Mathlib.Order.Basic

/-!
# Timer queues

`TimerQueue` embeds the class of the same name: the two indexes `timers_` and
`activeTimers_` over the active timers, and `cancelingTimers_`, which is only used while
expired timers run.  The keys of the indexes are pairs, ordered lexicographically.

The memory that holds the `Timer` objects, the kernel timer behind `timerfd_` and the
clock are fields as well, since the member functions read or change them.  The two
assertions that compare the sizes of the indexes record a `Snapshot`.
-/

namespace Chaonet

open Foundation

/-- The elements of `timers_`: an expiration and a timer. -/
abbrev Entry := Int ×ₗ TimerPtr

/-- The elements of `activeTimers_` and `cancelingTimers_`: a timer and its sequence. -/
abbrev ActiveTimer := TimerPtr ×ₗ Int

namespace Entry

def mk (expiration : Int) (timer : TimerPtr) : Entry := toLex (expiration, timer)

def expiration (e : Entry) : Int := (ofLex e).1

def timer (e : Entry) : TimerPtr := (ofLex e).2

@[simp] theorem expiration_mk (t : Int) (p : TimerPtr) : (mk t p).expiration = t := rfl

@[simp] theorem timer_mk (t : Int) (p : TimerPtr) : (mk t p).timer = p := rfl

theorem ext_iff {e e' : Entry} : e = e' ↔ e.expiration = e'.expiration ∧ e.timer = e'.timer :=
  Prod.ext_iff

/-- `lower_bound` of a null pointer splits at the expiration alone. -/
theorem lt_sentry {e : Entry} {now : Int} : e < mk now 0 ↔ e.expiration < now := by
  show toLex (ofLex e) < toLex (now, 0) ↔ _
  rw [Prod.Lex.toLex_lt_toLex]
  simp [expiration]

theorem expiration_le {e e' : Entry} (h : e ≤ e') : e.expiration ≤ e'.expiration := by
  rcases Prod.Lex.le_iff.mp h with h | h
  · exact h.le
  · exact h.1.le

end Entry

namespace ActiveTimer

def mk (timer : TimerPtr) (sequence : Int) : ActiveTimer := toLex (timer, sequence)

def timer (a : ActiveTimer) : TimerPtr := (ofLex a).1

def sequence (a : ActiveTimer) : Int := (ofLex a).2

@[simp] theorem timer_mk (p : TimerPtr) (n : Int) : (mk p n).timer = p := rfl

@[simp] theorem sequence_mk (p : TimerPtr) (n : Int) : (mk p n).sequence = n := rfl

theorem ext_iff {a a' : ActiveTimer} : a = a' ↔ a.timer = a'.timer ∧ a.sequence = a'.sequence :=
  Prod.ext_iff

end ActiveTimer

structure TimerQueue where
  timers : OrderedSet Entry
  callingExpiredTimers : Bool
  activeTimers : OrderedSet ActiveTimer
  cancelingTimers : OrderedSet ActiveTimer
  /-- The kernel timer behind `timerfd_`. -/
  timerfd : Timerfd
  /-- The memory of the `Timer` objects. -/
  heap : TimerPtr → Timer
  /-- The current time; the system clock does not run before the epoch. -/
  clock : Nat

namespace TimerQueue

/-- The assertions of the class, in source order; `sizes` stands for all six places that
compare the sizes of the indexes. -/
inductive Assertion
  | sizes
  | cancelErased
  | cancelItErase
  | getExpiredSentry
  | getExpiredErased
  | insertTimers
  | insertActiveTimers
deriving DecidableEq, Repr

/-- The two indexes where their sizes are compared, and the `expiration()` of each timer
in `timers_`. -/
structure Snapshot where
  timers : List (Int × TimerPtr)
  activeTimers : List (TimerPtr × Int)
  expirations : List Int
deriving DecidableEq, Repr

inductive Event
  | failed (a : Assertion)
  | sizesAsserted (s : Snapshot)
  /-- `timerfd_settime`. -/
  | settime (value : Timespec)
  /-- `addTimer` has made a timer. -/
  | created (id : TimerId)
  /-- `addTimerInLoop` has executed. -/
  | added (id : TimerId)
  /-- `cancelInLoop` has executed. -/
  | cancelled (id : TimerId)
  /-- The callback of a timer starts. -/
  | started (id : TimerId)
deriving DecidableEq, Repr

def create (heap : TimerPtr → Timer) (clock : Nat) : TimerQueue :=
  { timers := .empty
    callingExpiredTimers := false
    activeTimers := .empty
    cancelingTimers := .empty
    timerfd := .disarmed
    heap
    clock }

/-- `ActiveTimer(timer, timer->sequence())`. -/
def active (q : TimerQueue) (timer : TimerPtr) : ActiveTimer :=
  ActiveTimer.mk timer (q.heap timer).sequence

def snapshot (q : TimerQueue) : Snapshot :=
  { timers := q.timers.toList.map ofLex
    activeTimers := q.activeTimers.toList.map ofLex
    expirations := q.timers.toList.map fun e => (q.heap e.timer).expiration }

/-- `assert(timers_.size() == activeTimers_.size())`. -/
def assertSizes (q : TimerQueue) : Traced Event Unit := do
  Traced.emit (.sizesAsserted q.snapshot)
  Traced.check (.failed .sizes) (q.timers.size = q.activeTimers.size)

/-- `readTimerfd`: the read is non-blocking and only logs when nothing has expired. -/
def readTimerfd (q : TimerQueue) : TimerQueue :=
  match q.timerfd with
  | .expired => { q with timerfd := .disarmed }
  | _ => q

/-- `resetTimerfd(timerfd_, expiration)`. -/
def resetTimerfd (q : TimerQueue) (expiration : Int) : Traced Event TimerQueue := do
  let newValue := howMuchTimeFromNow expiration q.clock
  Traced.emit (.settime newValue)
  pure { q with timerfd := .settime newValue q.clock }

/-- Whether no timer in `timers_` comes as early as `when_`. -/
def earliestChanged (q : TimerQueue) (when_ : Int) : Bool :=
  match q.timers.first? with
  | none => true
  | some it => when_ < it.expiration

/-- `insert(timer)`: the result tells whether the earliest time changed. -/
def insert (q : TimerQueue) (timer : TimerPtr) : Traced Event (TimerQueue × Bool) := do
  q.assertSizes
  let when_ := (q.heap timer).expiration
  let earliestChanged := q.earliestChanged when_
  Traced.check (.failed .insertTimers) (Entry.mk when_ timer ∉ q.timers)
  let q := { q with timers := q.timers.insert (Entry.mk when_ timer) }
  Traced.check (.failed .insertActiveTimers) (q.active timer ∉ q.activeTimers)
  let q := { q with activeTimers := q.activeTimers.insert (q.active timer) }
  q.assertSizes
  pure (q, earliestChanged)

def addTimerInLoop (q : TimerQueue) (timer : TimerPtr) : Traced Event TimerQueue := do
  let (q, earliestChanged) ← q.insert timer
  if earliestChanged then
    q.resetTimerfd (q.heap timer).expiration
  else
    pure q

/-- `cancelInLoop`, where `timer` is what `timerId.timer().lock()` returned. -/
def cancelInLoop (q : TimerQueue) (timer : TimerPtr) (sequence : Int) :
    Traced Event TimerQueue := do
  q.assertSizes
  let it := ActiveTimer.mk timer sequence
  let q ←
    if it ∈ q.activeTimers then do
      -- The key in `timers_` is found again through the object.
      let key := Entry.mk (q.heap timer).expiration timer
      Traced.check (.failed .cancelErased) (q.timers.count key = 1)
      let q := { q with timers := q.timers.erase key }
      Traced.check (.failed .cancelItErase) (q.activeTimers.next? it ≠ none)
      pure { q with activeTimers := q.activeTimers.erase it }
    else if q.callingExpiredTimers = true then
      -- The timer may be one of those being run; `reset` will not restart it then.
      pure { q with cancelingTimers := q.cancelingTimers.insert it }
    else
      pure q
  q.assertSizes
  pure q

/-- The loop of `getExpired` that takes the expired timers out of `activeTimers_`. -/
def eraseActive (q : TimerQueue) : List Entry → Traced Event TimerQueue
  | [] => pure q
  | entry :: expired => do
      Traced.check (.failed .getExpiredErased) (q.activeTimers.count (q.active entry.timer) = 1)
      eraseActive { q with activeTimers := q.activeTimers.erase (q.active entry.timer) } expired

def getExpired (q : TimerQueue) (now : Int) : Traced Event (TimerQueue × List Entry) := do
  q.assertSizes
  let sentry := Entry.mk now 0
  Traced.check (.failed .getExpiredSentry)
    (∀ it ∈ (q.timers.notBelow sentry).first?, now < it.expiration)
  let expired := (q.timers.below sentry).toList
  let q ← { q with timers := q.timers.notBelow sentry }.eraseActive expired
  q.assertSizes
  pure (q, expired)

/-- The loop of `reset` that restarts the repeating timers of a batch. -/
def restartExpired (q : TimerQueue) (now : Int) : List Entry → Traced Event TimerQueue
  | [] => pure q
  | it :: expired =>
      let timer := q.heap it.timer
      if timer.repeat = true ∧ q.active it.timer ∉ q.cancelingTimers then do
        let q := { q with heap := Function.update q.heap it.timer (timer.restart now) }
        let (q, _) ← q.insert it.timer
        q.restartExpired now expired
      else
        q.restartExpired now expired

/-- `nextExpire` at the end of `reset`; it stays `Timestamp()` when there are no timers. -/
def nextExpire (q : TimerQueue) : Int :=
  match q.timers.first? with
  | none => Timestamp.epoch
  | some it => (q.heap it.timer).expiration

def reset (q : TimerQueue) (expired : List Entry) (now : Int) : Traced Event TimerQueue := do
  let q ← q.restartExpired now expired
  if Timestamp.valid q.nextExpire then
    q.resetTimerfd q.nextExpire
  else
    pure q

end TimerQueue
end Chaonet
