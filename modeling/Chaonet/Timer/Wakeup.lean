import Chaonet.Timer.Indexes

/-!
# Wakeups of the timer descriptor

No wakeup is lost: outside `handleRead`, while there are timers, the descriptor has expired
or will expire in time for the earliest one (`no_lost_wakeup`).  The descriptor is armed for
a timer that becomes the earliest and at the end of `handleRead`.  A timer set to a time
before the epoch counts as not valid there, but it was the earliest when it was added, so
the descriptor is armed for it already.

Wakeups do not stop either.  `Timestamp()` is the epoch, which `valid()` accepts, so `reset`
arms the descriptor even if no timers are left (`reset_arms_empty`), and the loop is woken
again and again (`idle_wakeups`).
-/

namespace Chaonet

open Foundation

/-- The descriptor wakes the loop in time for a timer at `earliest`. -/
def Timerfd.Covers (earliest : Int) : Timerfd → Prop
  | .disarmed => False
  | .armed deadline armedAt => deadline ≤ max earliest (armedAt + 100)
  | .expired => True

instance (earliest : Int) : ∀ fd : Timerfd, Decidable (fd.Covers earliest)
  | .disarmed => .isFalse id
  | .armed .. => inferInstanceAs (Decidable (_ ≤ _))
  | .expired => .isTrue trivial

theorem Timerfd.Covers.mono {fd : Timerfd} {t t' : Int} (h : fd.Covers t) (hle : t ≤ t') :
    fd.Covers t' := by
  cases fd with
  | disarmed => exact h
  | armed deadline armedAt =>
      have hdeadline : deadline ≤ max t (armedAt + 100) := h
      show deadline ≤ max t' (armedAt + 100)
      omega
  | expired => exact h

/-- While callbacks run, the descriptor is only relied on for timers before the epoch:
`reset` will arm it for the others. -/
def Phase.Watches (t : Int) : Phase → Prop
  | .running .. => t < 0
  | _ => True

theorem Phase.Watches.mono {p : Phase} {t t' : Int} (h : p.Watches t) (hle : t' ≤ t) :
    p.Watches t' := by
  cases p with
  | idle => exact h
  | entered now => exact h
  | running now expired remaining =>
      have ht : t < 0 := h
      show t' < 0
      omega

namespace TimerQueue

/-- `resetTimerfd` serves its timer and every later one. -/
theorem resetTimerfd_covers (q : TimerQueue) {expiration t : Int} (hle : expiration ≤ t) :
    (q.resetTimerfd expiration).val.timerfd.Covers t := by
  show (q.clock : Int) + (howMuchTimeFromNow expiration q.clock).micros ≤ max t (q.clock + 100)
  rw [howMuchTimeFromNow_micros]
  omega

/-- The descriptor serves the earliest timer, as far as `watches` asks for it. -/
def Awake (q : TimerQueue) (watches : Int → Prop) : Prop :=
  ∀ e, q.timers.first? = some e → watches e.expiration → q.timerfd.Covers e.expiration

variable {q q' : TimerQueue} {watches : Int → Prop}

/-- It is enough that every timer of the new queue comes after the old earliest one. -/
theorem Awake.later (h : q.Awake watches) (hfd : q'.timerfd = q.timerfd)
    (hwatches : ∀ t t', watches t → t' ≤ t → watches t')
    (hlater : ∀ e ∈ q'.timers, ∃ e₀, q.timers.first? = some e₀ ∧ e₀.expiration ≤ e.expiration) :
    q'.Awake watches := by
  intro e he hwatch
  obtain ⟨e₀, hfirst, hle⟩ := hlater e (OrderedSet.mem_of_first? he)
  rw [hfd]
  exact (h e₀ hfirst (hwatches _ _ hwatch hle)).mono hle

theorem exists_first {e : Entry} (he : e ∈ q.timers) :
    ∃ e₀, q.timers.first? = some e₀ ∧ e₀.expiration ≤ e.expiration := by
  cases hfirst : q.timers.first? with
  | none => exact absurd he (OrderedSet.first?_eq_none.mp hfirst e)
  | some e₀ => exact ⟨e₀, rfl, Entry.expiration_le (OrderedSet.first?_le hfirst he)⟩

theorem Awake.addTimerInLoop (h : q.Awake watches)
    (hwatches : ∀ t t', watches t → t' ≤ t → watches t') (p : TimerPtr) :
    (q.addTimerInLoop p).val.Awake watches := by
  have hinsert : (q.insert p).val.1.timers =
      q.timers.insert (Entry.mk (q.heap p).expiration p) := rfl
  have hearliest : (q.insert p).val.2 = q.earliestChanged (q.heap p).expiration := rfl
  simp only [TimerQueue.addTimerInLoop, Traced.bind_val]
  split_ifs with hchanged
  · -- The new timer is the earliest one, and the descriptor is set for it.
    intro e he _
    apply resetTimerfd_covers _
    show (q.heap p).expiration ≤ e.expiration
    rcases OrderedSet.mem_insert.mp (OrderedSet.mem_of_first? he) with rfl | hold
    · exact le_refl _
    · obtain ⟨e₀, hfirst, hle⟩ := exists_first hold
      rw [hearliest, earliestChanged, hfirst] at hchanged
      have hlt : (q.heap p).expiration < e₀.expiration := of_decide_eq_true hchanged
      omega
  · refine h.later rfl hwatches fun e he => ?_
    rw [show (pure (q.insert p).val.1 : Traced Event TimerQueue).val.timers =
      (q.insert p).val.1.timers from rfl, hinsert] at he
    rcases OrderedSet.mem_insert.mp he with rfl | hold
    · cases hfirst : q.timers.first? with
      | none =>
          rw [hearliest, earliestChanged, hfirst] at hchanged
          exact absurd rfl hchanged
      | some e₀ =>
          rw [hearliest, earliestChanged, hfirst] at hchanged
          have hle : ¬(q.heap p).expiration < e₀.expiration := fun hlt =>
            hchanged (decide_eq_true hlt)
          exact ⟨e₀, rfl, by rw [Entry.expiration_mk]; omega⟩
    · exact exists_first hold

theorem Awake.cancelInLoop (h : q.Awake watches)
    (hwatches : ∀ t t', watches t → t' ≤ t → watches t') (p : TimerPtr) (n : Int) :
    (q.cancelInLoop p n).val.Awake watches := by
  obtain ⟨hfd, -, -, hsub, -⟩ := cancelInLoop_frame q p n
  exact h.later hfd hwatches fun e he => exists_first (hsub e he)

/-- At the end of `handleRead` the descriptor serves the earliest timer without reserve. -/
theorem Awake.reset {P : Set TimerPtr} (h : q.Awake (· < 0)) (hindex : q.Represents P) {now : Int}
    (hnow : 0 ≤ now) {expired : List Entry} (hnodup : (expired.map Entry.timer).Nodup)
    (hout : ∀ e ∈ expired, e.timer ∉ P) : (q.reset expired now).val.Awake fun _ => True := by
  obtain ⟨hnew, -⟩ := hindex.restartExpired now hnodup hout
  obtain ⟨-, hfd, -, hheap⟩ := restartExpired_frame q now expired
  intro e he _
  simp only [TimerQueue.reset, Traced.bind_val] at he ⊢
  cases hfirst : (q.restartExpired now expired).val.timers.first? with
  | none =>
      split_ifs at he <;> exact absurd (hfirst.symm.trans he) (by simp)
  | some it =>
      obtain ⟨hP, hkey⟩ := (hnew.keys it).mp (OrderedSet.mem_of_first? hfirst)
      have hnext : (q.restartExpired now expired).val.nextExpire =
          ((q.restartExpired now expired).val.heap it.timer).expiration := by
        rw [nextExpire, hfirst]
      rw [hnext] at he ⊢
      split_ifs at he ⊢ with hvalid
      · obtain rfl : it = e := Option.some.inj (hfirst.symm.trans he)
        exact resetTimerfd_covers _ (le_of_eq hkey.symm)
      · obtain rfl : it = e := Option.some.inj (hfirst.symm.trans he)
        -- A timer before the epoch was not restarted, so it was the earliest one already.
        have hearly : it.expiration < 0 := by
          rw [hkey]
          exact Int.not_le.mp hvalid
        have hsame : ¬(q.Restarts it.timer ∧ it.timer ∈ expired.map Entry.timer) := by
          rintro ⟨hrestarts, hmem⟩
          rw [hheap, if_pos ⟨hrestarts, hmem⟩] at hkey
          have hle := Timer.le_restart_expiration now hrestarts.1
          omega
        rw [hheap, if_neg hsame] at hkey
        have hold : it ∈ q.timers := (hindex.keys it).mpr ⟨hP.resolve_right hsame, hkey⟩
        obtain ⟨e₀, hfirst₀, hle⟩ := exists_first hold
        show (q.restartExpired now expired).val.timerfd.Covers it.expiration
        rw [hfd]
        exact (h e₀ hfirst₀ (lt_of_le_of_lt hle hearly)).mono hle

end TimerQueue

namespace TimerLoop

open TimerQueue

/-! ## No lost wakeup -/

/-- The descriptor serves the timers, and `handleRead` has not taken a time before the epoch. -/
structure Watched (s : TimerLoop) : Prop where
  awake : s.queue.Awake fun t => s.phase.Watches t
  entered : ∀ now, s.phase = .entered now → 0 ≤ now
  running : ∀ now expired remaining, s.phase = .running now expired remaining → 0 ≤ now

variable {P : Set TimerPtr} {s t : TimerLoop} {es : List Event}

/-- Steps that leave the phase alone. -/
theorem Watched.keep (h : Watched s) (hphase : t.phase = s.phase)
    (hawake : t.queue.Awake fun t => s.phase.Watches t) : Watched t :=
  ⟨by rwa [hphase], by rw [hphase]; exact h.entered, by rw [hphase]; exact h.running⟩

theorem Watched.getExpired (h : Watched s) (hbooks : Books P s) {now : Int}
    (hphase : s.phase = .entered now) : Watched (s.getExpired now).val := by
  have hnow := h.entered now hphase
  obtain ⟨hindex, -⟩ := hbooks.getExpired now
  constructor
  case awake =>
    intro e he hwatch
    -- What is left in the index is not due, hence not before the epoch.
    obtain ⟨⟨-, hle⟩, hkey⟩ := (hindex.index.keys e).mp (OrderedSet.mem_of_first? he)
    have hheap : (s.getExpired now).val.queue.heap = s.queue.heap := by
      obtain ⟨activeTimers, hval⟩ := getExpired_frame s.queue.readTimerfd now
      simp [TimerLoop.getExpired, hval, readTimerfd_heap]
    have hearly : e.expiration < 0 := hwatch
    rw [hheap] at hkey
    omega
  case entered => exact fun _ heq => by simp [TimerLoop.getExpired] at heq
  case running =>
    intro now' expired remaining heq
    obtain ⟨rfl, -, -⟩ := Phase.running.inj heq
    exact hnow

/-- Every step keeps the descriptor in time. -/
theorem Watched.step (h : Watched s) (hbooks : Books P s) {l : Label} (hstep : Step s l es t) :
    Watched t := by
  have hmono : ∀ t t', s.phase.Watches t → t' ≤ t → s.phase.Watches t' :=
    fun _ _ hwatch hle => hwatch.mono hle
  have hcases := step_cases hstep
  cases l with
  | addTimer timer when_ interval =>
      obtain ⟨-, -, heq⟩ := hcases
      obtain ⟨rfl, rfl⟩ := Traced.mk.inj heq
      exact h.keep rfl h.awake
  | addTimerInLoop timer =>
      obtain ⟨-, -, heq⟩ := hcases
      obtain ⟨rfl, rfl⟩ := Traced.mk.inj heq
      exact h.keep rfl (h.awake.addTimerInLoop hmono timer)
  | cancelInLoop id =>
      obtain ⟨-, heq⟩ := hcases
      obtain ⟨rfl, rfl⟩ := Traced.mk.inj heq
      exact h.keep rfl (h.awake.cancelInLoop hmono (s.lock id) id.sequence)
  | tick micros =>
      obtain ⟨rfl, rfl⟩ := hcases
      exact h.keep rfl h.awake
  | expire =>
      obtain ⟨-, rfl, rfl⟩ := hcases
      exact h.keep rfl fun _ _ _ => trivial
  | handleRead =>
      obtain ⟨hphase, rfl, rfl⟩ := hcases
      have hawake := h.awake
      rw [hphase] at hawake
      refine ⟨hawake, fun now heq => ?_, fun _ _ _ heq => by simp at heq⟩
      obtain rfl := Phase.entered.inj heq
      exact Int.natCast_nonneg _
  | getExpired =>
      obtain ⟨now, hphase, heq⟩ := hcases
      obtain ⟨rfl, rfl⟩ := Traced.mk.inj heq
      exact h.getExpired hbooks hphase
  | run =>
      obtain ⟨now, expired, it, rest, hphase, heq⟩ := hcases
      obtain ⟨rfl, rfl⟩ := Traced.mk.inj heq
      have hawake := h.awake
      rw [hphase] at hawake
      refine ⟨hawake, fun _ heq => by simp at heq, fun _ _ _ heq => ?_⟩
      obtain ⟨rfl, -, -⟩ := Phase.running.inj heq
      exact h.running now expired (it :: rest) hphase
  | reset =>
      obtain ⟨now, expired, hphase, heq⟩ := hcases
      obtain ⟨rfl, rfl⟩ := Traced.mk.inj heq
      have hawake := h.awake
      have hbatch := hbooks.batch
      have hnodup := hbooks.batchNodup
      rw [hphase] at hawake hbatch hnodup
      have hindex : ({ s.queue with callingExpiredTimers := false } : TimerQueue).Represents P :=
        ⟨hbooks.index.keys, hbooks.index.actives⟩
      have hcalling : ({ s.queue with callingExpiredTimers := false } : TimerQueue).Awake (· < 0) :=
        hawake
      exact ⟨hcalling.reset hindex (h.running now expired [] hphase) hnodup
        (fun e he => (hbatch e.timer (List.mem_map_of_mem he)).2),
        fun _ heq => by simp at heq,
        fun _ _ _ heq => by simp at heq⟩

/-- **No lost timer wakeup**: outside `handleRead`, while there are timers, the descriptor
has expired unread or is armed for the earliest timer or for 100 microseconds after it was
armed; and it is only ever set to legal times. -/
theorem no_lost_wakeup {heap : TimerPtr → Timer} {clock : Nat} {numCreated : Int}
    {ls : List Label} (h : Run Step (start heap clock numCreated) ls es t) :
    (t.phase = .idle → ∀ e, t.queue.timers.first? = some e →
        t.queue.timerfd.Covers e.expiration) ∧
      ∀ value, .settime value ∈ es → value.Legal := by
  have hwatched : (∃ P, Books P t) ∧ Watched t :=
    h.invariant (I := fun s => (∃ P, Books P s) ∧ Watched s)
      ⟨⟨∅, Books.start heap clock numCreated⟩, fun e he => by
        simp [TimerLoop.start, create, OrderedSet.first?, OrderedSet.empty] at he,
        fun _ heq => by simp [TimerLoop.start] at heq,
        fun _ _ _ heq => by simp [TimerLoop.start] at heq⟩
      (fun s l es t ⟨⟨P, hbooks⟩, hwatched⟩ hstep =>
        ⟨(hbooks.step hstep).1, hwatched.step hbooks hstep⟩)
  refine ⟨fun hidle e he => ?_, fun value hmem => (books_of_run h).2 _ hmem⟩
  exact hwatched.2.awake e he (by rw [hidle]; trivial)

theorem no_lost_wakeup_busy :
    ∃ es t, Run Step (start (fun _ => ⟨0, .zero, 0⟩) 0 0) busy es t ∧ t.phase = .idle ∧
      t.queue.timers.size = 2 ∧
      (t.phase = .idle → ∀ e, t.queue.timers.first? = some e →
        t.queue.timerfd.Covers e.expiration) ∧
      ∀ value, .settime value ∈ es → value.Legal := by
  obtain ⟨es, t, hrun, hidle, hsize⟩ : ∃ es t,
      Run Step (start (fun _ => ⟨0, .zero, 0⟩) 0 0) busy es t ∧ t.phase = .idle ∧
        t.queue.timers.size = 2 := Run.exists_of_exec _ (by decide +kernel)
  exact ⟨es, t, hrun, hidle, hsize, no_lost_wakeup hrun⟩

/-! ## Wakeups without timers -/

/-- When no timers are left, `reset` sets the descriptor all the same: the default
`Timestamp` is valid. -/
theorem reset_of_empty {q : TimerQueue} {expired : List Entry} {now : Int}
    (hempty : (q.reset expired now).val.timers = .empty) :
    q.reset expired now =
      q.restartExpired now expired >>= fun q => q.resetTimerfd Timestamp.epoch := by
  obtain ⟨timerfd, hval⟩ := reset_frame q expired now
  rw [hval] at hempty
  have hempty : (q.restartExpired now expired).val.timers = .empty := hempty
  have hfirst : (q.restartExpired now expired).val.timers.first? = none := by
    rw [hempty]
    rfl
  have hvalid : Timestamp.valid Timestamp.epoch := le_refl _
  have hnext : (q.restartExpired now expired).val.nextExpire = Timestamp.epoch := by
    rw [nextExpire, hfirst]
  simp [TimerQueue.reset, bind, hnext, hvalid]

/-- Nothing to wait for, and a descriptor that will wake the loop. -/
structure Woken (s : TimerLoop) : Prop where
  phase : s.phase = .idle
  timers : s.queue.timers = .empty
  timerfd : s.queue.timerfd = .armed (s.queue.clock + 100) s.queue.clock

theorem reset_woken {now : Int} {expired : List Entry}
    (hempty : (s.reset now expired).val.queue.timers = .empty) :
    Woken (s.reset now expired).val ∧ ∃ value, .settime value ∈ (s.reset now expired).trace := by
  have heq := reset_of_empty (q := { s.queue with callingExpiredTimers := false }) hempty
  have hmicros : (howMuchTimeFromNow Timestamp.epoch s.queue.clock).micros = 100 := by
    rw [howMuchTimeFromNow_micros]
    show max (0 - (s.queue.clock : Int)) 100 = 100
    omega
  obtain ⟨-, -, hclock, -⟩ :=
    restartExpired_frame { s.queue with callingExpiredTimers := false } now expired
  have hclock : ({ s.queue with callingExpiredTimers := false }.restartExpired now
      expired).val.clock = s.queue.clock := hclock
  refine ⟨⟨rfl, hempty, ?_⟩, ?_⟩
  · simp only [TimerLoop.reset, Traced.bind_val, Traced.pure_val, heq, resetTimerfd, hclock,
      Timerfd.settime, hmicros]
  · refine ⟨howMuchTimeFromNow Timestamp.epoch s.queue.clock, ?_⟩
    simp [TimerLoop.reset, heq, resetTimerfd, hclock]

/-- One wakeup without timers ends where it began. -/
def idleWakeup : List Label := [.tick 100, .expire, .handleRead, .getExpired, .reset]

theorem Woken.cycle (h : Woken s) : ∃ es t, Run Step s idleWakeup es t ∧ Woken t := by
  obtain ⟨hphase, htimers, hfd⟩ := h
  -- The states of the cycle: after the deadline, and with the time taken.
  let q : TimerQueue := { s.queue with clock := s.queue.clock + 100, timerfd := .expired }
  let u : TimerLoop := { s with queue := q, phase := .entered q.clock }
  have htick : Step s (.tick 100) []
      { s with queue := { s.queue with clock := s.queue.clock + 100 } } := rfl
  have hexpire : Step { s with queue := { s.queue with clock := s.queue.clock + 100 } } .expire []
      { s with queue := q } := by
    simp only [Step, stepOf, step, hfd]
    exact if_pos (by omega)
  have henter : Step { s with queue := q } .handleRead [] u := by
    simp only [Step, stepOf, step, hphase]
    rfl
  have hget : Step u .getExpired (u.getExpired q.clock).trace (u.getExpired q.clock).val := rfl
  obtain ⟨activeTimers, hval⟩ := getExpired_frame u.queue.readTimerfd q.clock
  have hnone : u.queue.readTimerfd.timers = .empty := htimers
  rw [hnone] at hval
  have hrunning : (u.getExpired q.clock).val.phase = .running q.clock [] [] := by
    simp only [TimerLoop.getExpired, Traced.bind_val, Traced.pure_val, hval]
    rfl
  have hreset : Step (u.getExpired q.clock).val .reset
      ((u.getExpired q.clock).val.reset q.clock []).trace
      ((u.getExpired q.clock).val.reset q.clock []).val := by
    simp only [Step, stepOf, step, hrunning]
  have hempty : ((u.getExpired q.clock).val.reset q.clock []).val.queue.timers = .empty := by
    obtain ⟨timerfd, hreset⟩ := reset_frame
      { (u.getExpired q.clock).val.queue with callingExpiredTimers := false } [] q.clock
    show ({ (u.getExpired q.clock).val.queue with callingExpiredTimers := false }.reset []
      q.clock).val.timers = .empty
    rw [hreset]
    show (u.getExpired q.clock).val.queue.timers = .empty
    simp only [TimerLoop.getExpired, Traced.bind_val, Traced.pure_val, hval]
    rfl
  exact ⟨_, _, .cons htick (.cons hexpire (.cons henter (.cons hget (.single hreset)))),
    (reset_woken hempty).1⟩

/-- The loop is woken any number of times. -/
theorem Woken.cycles (h : Woken s) (n : Nat) :
    ∃ es t, Run Step s (List.replicate n idleWakeup).flatten es t ∧ Woken t := by
  induction n generalizing s with
  | zero => exact ⟨[], s, .nil s, h⟩
  | succ n ih =>
      obtain ⟨es, t, hrun, ht⟩ := h.cycle
      obtain ⟨es', u, hrun', hu⟩ := ih ht
      rw [List.replicate_succ, List.flatten_cons]
      exact ⟨es ++ es', u, hrun.append hrun', hu⟩

/-- What a `reset` that leaves no timers should do: not set the descriptor, and leave it
disarmed. -/
def LeavesDisarmed (es : List Event) (s : TimerLoop) : Prop :=
  (∀ value, .settime value ∉ es) ∧ s.queue.timerfd = .disarmed

/-- **Idle wakeups**: a `handleRead` that ends without timers never leaves the descriptor
disarmed, and afterwards the loop can be woken any number of times although no timer is
ever added. -/
theorem reset_not_leavesDisarmed (hstep : Step s .reset es t) (hempty : t.queue.timers = .empty) :
    ¬LeavesDisarmed es t ∧ ∀ n, ∃ es' u,
      Run Step t (List.replicate n idleWakeup).flatten es' u ∧ u.queue.timers = .empty := by
  obtain ⟨now, expired, hphase, heq⟩ := step_cases hstep
  obtain ⟨rfl, rfl⟩ := Traced.mk.inj heq
  obtain ⟨hwoken, value, hsettime⟩ := reset_woken hempty
  refine ⟨fun hdisarmed => hdisarmed.1 value hsettime, fun n => ?_⟩
  obtain ⟨es', u, hrun, hu⟩ := hwoken.cycles n
  exact ⟨es', u, hrun, hu.timers⟩

/-- A timer is added and runs. -/
def lastTimer : List Label :=
  [.addTimer 8 10 .zero, .addTimerInLoop 8, .tick 200, .expire, .handleRead, .getExpired, .run]

theorem reset_not_leavesDisarmed_lastTimer :
    ∃ es s es' t, Run Step (start (fun _ => ⟨0, .zero, 0⟩) 0 0) lastTimer es s ∧
      Step s .reset es' t ∧ ¬LeavesDisarmed es' t ∧ ∀ n, ∃ es'' u,
        Run Step t (List.replicate n idleWakeup).flatten es'' u ∧ u.queue.timers = .empty := by
  obtain ⟨es, s, hrun, hreset⟩ : ∃ es s,
      Run Step (start (fun _ => ⟨0, .zero, 0⟩) 0 0) lastTimer es s ∧
        (step s .reset).any (fun x => x.val.queue.timers = .empty) = true :=
    Run.exists_of_exec _ (by decide +kernel)
  obtain ⟨x, hx, hempty⟩ := (Option.any_eq_true _ _).mp hreset
  have hstep : Step s .reset x.trace x.val := hx
  obtain ⟨hleaves, hwakeups⟩ := reset_not_leavesDisarmed hstep (of_decide_eq_true hempty)
  exact ⟨es, s, x.trace, x.val, hrun, hstep, hleaves, hwakeups⟩

/-- When that timer has run, no timers are left and the descriptor is armed. -/
theorem armed_lastTimer :
    ∃ es t, Run Step (start (fun _ => ⟨0, .zero, 0⟩) 0 0) (lastTimer ++ [.reset]) es t ∧
      t.phase = .idle ∧ t.queue.timers = .empty ∧ t.queue.timerfd = .armed 300 200 :=
  Run.exists_of_exec _ (by decide +kernel)

end TimerLoop
end Chaonet
