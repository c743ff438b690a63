import Chaonet.Timer.Cancellation

/-!
# The two assertions about iterators

Two assertions of a timer queue are about where an iterator stands.

`getExpired` splits `timers_` at `lower_bound` of the current time and a null pointer.  An
entry that expires at this very time is behind the null pointer, so that it is not taken out,
and the assertion that the first entry left expires later fails.

`cancelInLoop` asserts that the iterator behind the erased element of `activeTimers_` is not
`end()`.  That says nothing about the cancelled timer but that some other one is ordered
behind it.
-/

namespace Chaonet

open Foundation

namespace TimerQueue

variable {q : TimerQueue} {P : Set TimerPtr} {now : Int} {a : Assertion}

theorem failed_mem_assertSizes : .failed a ∈ q.assertSizes.trace ↔
    a = .sizes ∧ q.timers.size ≠ q.activeTimers.size := by
  simp [assertSizes, Traced.mem_check_trace, and_comm]

/-! ## Splitting at the current time -/

/-- What `getExpired(now)` is for: it returns the entries up to `now`, earliest first, takes
them out of both indexes and leaves the others, and its own assertion holds. -/
structure SplitsAt (q : TimerQueue) (now : Int) : Prop where
  returned : ∀ e, e ∈ (q.getExpired now).val.2 ↔ e ∈ q.timers ∧ e.expiration ≤ now
  ordered : (q.getExpired now).val.2.Pairwise fun e e' => e.expiration ≤ e'.expiration
  once : (q.getExpired now).val.2.Nodup
  timers : ∀ e, e ∈ (q.getExpired now).val.1.timers ↔ e ∈ q.timers ∧ now < e.expiration
  activeTimers : ∀ a, a ∈ (q.getExpired now).val.1.activeTimers ↔
    a ∈ q.activeTimers ∧ now < (q.heap a.timer).expiration
  asserted : .failed .getExpiredSentry ∉ (q.getExpired now).trace

theorem sentry_not_mem_eraseActive (q : TimerQueue) (expired : List Entry) :
    .failed .getExpiredSentry ∉ (q.eraseActive expired).trace := by
  induction expired generalizing q with
  | nil => simp [eraseActive]
  | cons entry expired ih => simp [eraseActive, Traced.mem_check_trace, ih]

/-- The assertion is about the first entry that is not taken out. -/
theorem sentry_mem_getExpired : .failed .getExpiredSentry ∈ (q.getExpired now).trace ↔
    ∃ it, (q.timers.notBelow (Entry.mk now 0)).first? = some it ∧ it.expiration ≤ now := by
  simp [TimerQueue.getExpired, failed_mem_assertSizes, Traced.mem_check_trace,
    sentry_not_mem_eraseActive]

/-- The entries that are returned. -/
theorem getExpired_snd (q : TimerQueue) (now : Int) :
    (q.getExpired now).val.2 = (q.timers.below (Entry.mk now 0)).toList := by
  obtain ⟨activeTimers, hval⟩ := getExpired_frame q now
  rw [hval]

/-- **When `getExpired` splits the queue at `now`**: when no timer expires at `now` itself. -/
theorem Represents.splitsAt_iff (h : q.Represents P) (now : Int) :
    q.SplitsAt now ↔ ∀ e ∈ q.timers, e.expiration ≠ now := by
  obtain ⟨hindex, hmem, -, -⟩ := h.getExpired now
  constructor
  · -- An entry at `now` is returned by a split, but is not among those that are returned.
    intro hsplits e he heq
    obtain ⟨-, hlt⟩ := (hmem e).mp ((hsplits.returned e).mpr ⟨he, heq.le⟩)
    omega
  · intro hapart
    have hearlier (e : Entry) (he : e ∈ q.timers) : e.expiration ≤ now ↔ e.expiration < now := by
      have hne := hapart e he
      omega
    obtain ⟨activeTimers, hval⟩ := getExpired_frame q now
    constructor
    case returned =>
      intro e
      rw [hmem]
      exact and_congr_right fun he => (hearlier e he).symm
    case ordered =>
      rw [getExpired_snd]
      exact (OrderedSet.sorted _).imp fun hlt => Entry.expiration_le hlt.le
    case once =>
      rw [getExpired_snd]
      exact OrderedSet.nodup _
    case timers =>
      intro e
      rw [hval]
      show e ∈ q.timers.notBelow (Entry.mk now 0) ↔ _
      rw [OrderedSet.mem_notBelow, ← not_lt, Entry.lt_sentry]
      refine and_congr_right fun he => ?_
      rw [← hearlier e he, not_le]
    case activeTimers =>
      intro a
      have hheap : (q.getExpired now).val.1.heap = q.heap := by rw [hval]
      rw [hindex.actives, h.actives, hheap, Set.mem_sep_iff]
      have hlater (ha : a.timer ∈ P) : now ≤ (q.heap a.timer).expiration ↔
          now < (q.heap a.timer).expiration := by
        have hne := hapart _ (h.mem_timers.mpr ha)
        rw [Entry.expiration_mk] at hne
        omega
      constructor
      · rintro ⟨⟨ha, hle⟩, hsequence⟩
        exact ⟨⟨ha, hsequence⟩, (hlater ha).mp hle⟩
      · rintro ⟨⟨ha, hsequence⟩, hlt⟩
        exact ⟨⟨ha, (hlater ha).mpr hlt⟩, hsequence⟩
    case asserted =>
      intro hfailed
      obtain ⟨it, hfirst, hle⟩ := sentry_mem_getExpired.mp hfailed
      obtain ⟨hit, hnot⟩ := OrderedSet.mem_notBelow.mp (OrderedSet.mem_of_first? hfirst)
      rw [← not_lt, Entry.lt_sentry] at hnot
      exact hnot ((hearlier it hit).mp hle)

/-! ## The iterator behind an erased timer -/

theorem itErase_mem_cancelInLoop {p : TimerPtr} {n : Int} :
    .failed .cancelItErase ∈ (q.cancelInLoop p n).trace ↔
      ActiveTimer.mk p n ∈ q.activeTimers ∧ ∀ a ∈ q.activeTimers, ¬ActiveTimer.mk p n < a := by
  by_cases hmem : ActiveTimer.mk p n ∈ q.activeTimers
  · simp [TimerQueue.cancelInLoop, failed_mem_assertSizes, Traced.mem_check_trace, hmem,
      OrderedSet.next?_eq_none]
  · by_cases hcalling : q.callingExpiredTimers = true
    · simp [TimerQueue.cancelInLoop, failed_mem_assertSizes, hmem, hcalling]
    · simp [TimerQueue.cancelInLoop, failed_mem_assertSizes, hmem, hcalling]

/-- No other assertion of `cancelInLoop` fails. -/
theorem Represents.failed_mem_cancelInLoop (h : q.Represents P) {p : TimerPtr} {n : Int} :
    .failed a ∈ (q.cancelInLoop p n).trace ↔ a = .cancelItErase ∧
      ActiveTimer.mk p n ∈ q.activeTimers ∧ ∀ a ∈ q.activeTimers, ¬ActiveTimer.mk p n < a := by
  constructor
  · intro hfailed
    have hsentry : .failed .getExpiredSentry ∉ (q.cancelInLoop p n).trace := by
      by_cases hmem : ActiveTimer.mk p n ∈ q.activeTimers
      · simp [TimerQueue.cancelInLoop, failed_mem_assertSizes, Traced.mem_check_trace, hmem]
      · by_cases hcalling : q.callingExpiredTimers = true
        · simp [TimerQueue.cancelInLoop, failed_mem_assertSizes, hmem, hcalling]
        · simp [TimerQueue.cancelInLoop, failed_mem_assertSizes, hmem, hcalling]
    rcases (h.cancelInLoop p n).2 _ hfailed with rfl | rfl
    · exact ⟨rfl, itErase_mem_cancelInLoop.mp hfailed⟩
    · exact absurd hfailed hsentry
  · rintro ⟨rfl, hlast⟩
    exact itErase_mem_cancelInLoop.mpr hlast

end TimerQueue

namespace TimerLoop

open TimerQueue

variable {P : Set TimerPtr} {s : TimerLoop} {es : List Event} {id : TimerId}

/-- What `cancelInLoop` is for: all its assertions hold, and it takes the timer with this id
out of both indexes, and nothing else. -/
structure CancelCompletes (s : TimerLoop) (id : TimerId) : Prop where
  asserted : ∀ a, .failed a ∉ (s.cancelInLoop id).trace
  timers : ∀ e, e ∈ (s.cancelInLoop id).val.queue.timers ↔
    e ∈ s.queue.timers ∧ s.id e.timer ≠ id
  activeTimers : ∀ a, a ∈ (s.cancelInLoop id).val.queue.activeTimers ↔
    a ∈ s.queue.activeTimers ∧ TimerId.mk a.timer a.sequence ≠ id

/-- The timer with this id is not active, or some timer is behind it in `activeTimers_`. -/
def NotLast (s : TimerLoop) (id : TimerId) : Prop :=
  ActiveTimer.mk id.timer id.sequence ∈ s.queue.activeTimers →
    ∃ a ∈ s.queue.activeTimers.toList, ActiveTimer.mk id.timer id.sequence < a

instance (s : TimerLoop) (id : TimerId) : Decidable (s.NotLast id) :=
  inferInstanceAs (Decidable (_ → ∃ a ∈ _, _))

/-- An id that can be locked to an active timer is the id of this timer. -/
theorem Books.active_lock (h : Books P s) :
    ActiveTimer.mk (s.lock id) id.sequence ∈ s.queue.activeTimers ↔
      ActiveTimer.mk id.timer id.sequence ∈ s.queue.activeTimers := by
  by_cases hlock : id.timer ∈ s.owners ∧ (s.queue.heap id.timer).sequence = id.sequence
  · rw [lock, if_pos hlock]
  · rw [lock, if_neg hlock]
    constructor
    · intro hmem
      exact absurd ((h.index.actives _).mp hmem).1 h.null
    · intro hmem
      obtain ⟨hP, hsequence⟩ := (h.index.actives _).mp hmem
      exact absurd ⟨h.mem_owners (Or.inl hP), hsequence.symm⟩ hlock

theorem Books.lock_eq (h : Books P s)
    (hmem : ActiveTimer.mk id.timer id.sequence ∈ s.queue.activeTimers) : s.lock id = id.timer := by
  obtain ⟨hP, hsequence⟩ := (h.index.actives _).mp hmem
  exact if_pos ⟨h.mem_owners (Or.inl hP), hsequence.symm⟩

/-- The timers that stay are those whose id is another one. -/
theorem Books.stays_iff (h : Books P s) {p : TimerPtr} (hp : p ∈ P) :
    s.queue.active p ≠ ActiveTimer.mk (s.lock id) id.sequence ↔ s.id p ≠ id := by
  rw [ne_eq, ne_eq, not_iff_not]
  constructor
  · intro heq
    have hmem := h.index.mem_activeTimers.mpr hp
    rw [heq, h.active_lock] at hmem
    rw [h.lock_eq hmem] at heq
    obtain ⟨htimer, hsequence⟩ := ActiveTimer.ext_iff.mp heq
    exact TimerId.mk.injEq .. ▸ ⟨htimer, hsequence⟩
  · rintro rfl
    have hlock : s.lock (s.id p) = p := h.lock_eq (h.index.mem_activeTimers.mpr hp)
    rw [hlock]
    rfl

theorem Books.cancelled_trace (h : Books P s) {a : Assertion} :
    .failed a ∈ (s.cancelInLoop id).trace ↔ a = .cancelItErase ∧ ¬s.NotLast id := by
  have hshown : .failed a ∈ (s.cancelInLoop id).trace ↔
      .failed a ∈ (s.queue.cancelInLoop (s.lock id) id.sequence).trace := by
    simp [TimerLoop.cancelInLoop]
  rw [hshown, h.index.failed_mem_cancelInLoop, h.active_lock, NotLast]
  refine and_congr_right fun _ => ?_
  constructor
  · rintro ⟨hmem, hlast⟩ hnot
    obtain ⟨a, ha, hlt⟩ := hnot hmem
    exact hlast a ha (h.lock_eq hmem ▸ hlt)
  · intro hlast
    obtain ⟨hmem, hnone⟩ := Classical.not_imp.mp hlast
    refine ⟨hmem, fun a ha hlt => hnone ⟨a, ha, ?_⟩⟩
    exact h.lock_eq hmem ▸ hlt

/-- What a cancel does to the two indexes, whether its assertions hold or not. -/
theorem Books.mem_cancelInLoop (h : Books P s) (id : TimerId) :
    (∀ e, e ∈ (s.cancelInLoop id).val.queue.timers ↔
        e ∈ s.queue.timers ∧ s.id e.timer ≠ id) ∧
      ∀ a, a ∈ (s.cancelInLoop id).val.queue.activeTimers ↔
        a ∈ s.queue.activeTimers ∧ TimerId.mk a.timer a.sequence ≠ id := by
  obtain ⟨hindex, -⟩ := h.index.cancelInLoop (s.lock id) id.sequence
  obtain ⟨-, -, hheap, -, -⟩ := cancelInLoop_frame s.queue (s.lock id) id.sequence
  constructor
  · intro e
    show e ∈ (s.queue.cancelInLoop (s.lock id) id.sequence).val.timers ↔ _
    rw [hindex.keys, h.index.keys, hheap, Set.mem_sep_iff]
    constructor
    · rintro ⟨⟨hP, hstays⟩, hkey⟩
      exact ⟨⟨hP, hkey⟩, (h.stays_iff hP).mp hstays⟩
    · rintro ⟨⟨hP, hkey⟩, hother⟩
      exact ⟨⟨hP, (h.stays_iff hP).mpr hother⟩, hkey⟩
  · intro a
    show a ∈ (s.queue.cancelInLoop (s.lock id) id.sequence).val.activeTimers ↔ _
    rw [hindex.actives, h.index.actives, hheap, Set.mem_sep_iff]
    constructor
    · rintro ⟨⟨hP, hstays⟩, hkey⟩
      refine ⟨⟨hP, hkey⟩, ?_⟩
      rw [hkey]
      exact (h.stays_iff hP).mp hstays
    · rintro ⟨⟨hP, hkey⟩, hother⟩
      rw [hkey] at hother
      exact ⟨⟨hP, (h.stays_iff hP).mpr hother⟩, hkey⟩

/-- **When a cancel completes.** -/
theorem Books.cancelCompletes_iff (h : Books P s) (id : TimerId) :
    s.CancelCompletes id ↔ s.NotLast id := by
  obtain ⟨htimers, hactives⟩ := h.mem_cancelInLoop id
  constructor
  · intro hcompletes
    by_contra hlast
    exact hcompletes.asserted _ (h.cancelled_trace.mpr ⟨rfl, hlast⟩)
  · exact fun hnot =>
      ⟨fun a hfailed => (h.cancelled_trace.mp hfailed).2 hnot, htimers, hactives⟩

/-! ## Runs -/

variable {heap : TimerPtr → Timer} {clock : Nat} {numCreated : Int} {ls : List Label}

/-- **When `getExpired` splits the queue at `now`**, in every state of every run. -/
theorem getExpired_splits_iff (h : Run Step (start heap clock numCreated) ls es s) (now : Int) :
    s.queue.SplitsAt now ↔ ∀ e ∈ s.queue.timers, e.expiration ≠ now := by
  obtain ⟨⟨P, hbooks⟩, -⟩ := books_of_run h
  exact hbooks.index.splitsAt_iff now

/-- Two timers are added, and one of them is not yet due. -/
def twoAdded : List Label :=
  [.addTimer 8 10 .zero, .addTimerInLoop 8, .addTimer 4 900 .zero, .addTimerInLoop 4]

theorem getExpired_splits_iff_twoAdded :
    ∃ es s, Run Step (start (fun _ => ⟨0, .zero, 0⟩) 0 0) twoAdded es s ∧
      (s.queue.getExpired 20).val.2 = [Entry.mk 10 8] ∧
      (s.queue.SplitsAt 20 ↔ ∀ e ∈ s.queue.timers, e.expiration ≠ 20) := by
  obtain ⟨es, s, hrun, hexpired⟩ : ∃ es s,
      Run Step (start (fun _ => ⟨0, .zero, 0⟩) 0 0) twoAdded es s ∧
        (s.queue.getExpired 20).val.2 = [Entry.mk 10 8] := Run.exists_of_exec _ (by decide +kernel)
  exact ⟨es, s, hrun, hexpired, getExpired_splits_iff hrun 20⟩

/-- At the very time of its expiration a timer is not returned, and the assertion fails. -/
theorem not_splitsAt_expiration :
    ∃ es s, Run Step (start (fun _ => ⟨0, .zero, 0⟩) 0 0) twoAdded es s ∧
      (s.queue.getExpired 10).val.2 = [] ∧
      .failed .getExpiredSentry ∈ (s.queue.getExpired 10).trace ∧ ¬s.queue.SplitsAt 10 := by
  obtain ⟨es, s, hrun, hexpired, hfailed⟩ : ∃ es s,
      Run Step (start (fun _ => ⟨0, .zero, 0⟩) 0 0) twoAdded es s ∧
        (s.queue.getExpired 10).val.2 = [] ∧
        Event.failed .getExpiredSentry ∈ (s.queue.getExpired 10).trace :=
    Run.exists_of_exec _ (by decide +kernel)
  exact ⟨es, s, hrun, hexpired, hfailed, fun hsplits => hsplits.asserted hfailed⟩

/-- **When a cancel completes**, in every state of every run. -/
theorem cancel_completes_iff (h : Run Step (start heap clock numCreated) ls es s) (id : TimerId) :
    s.CancelCompletes id ↔ s.NotLast id := by
  obtain ⟨⟨P, hbooks⟩, -⟩ := books_of_run h
  exact hbooks.cancelCompletes_iff id

theorem cancel_completes_iff_first :
    ∃ es s, Run Step (start (fun _ => ⟨0, .zero, 0⟩) 0 0) twoAdded es s ∧
      (s.cancelInLoop ⟨4, 1⟩).val.queue.timers.toList = [Entry.mk 10 8] ∧
      s.CancelCompletes ⟨4, 1⟩ := by
  obtain ⟨es, s, hrun, htimers, hnot⟩ : ∃ es s,
      Run Step (start (fun _ => ⟨0, .zero, 0⟩) 0 0) twoAdded es s ∧
        (s.cancelInLoop ⟨4, 1⟩).val.queue.timers.toList = [Entry.mk 10 8] ∧
        s.NotLast ⟨4, 1⟩ := Run.exists_of_exec _ (by decide +kernel)
  exact ⟨es, s, hrun, htimers, (cancel_completes_iff hrun ⟨4, 1⟩).mpr hnot⟩

/-- Cancelling the timer at the highest address fails an assertion. -/
theorem not_cancelCompletes_last :
    ∃ es s, Run Step (start (fun _ => ⟨0, .zero, 0⟩) 0 0) twoAdded es s ∧
      .failed .cancelItErase ∈ (s.cancelInLoop ⟨8, 0⟩).trace ∧ ¬s.CancelCompletes ⟨8, 0⟩ := by
  obtain ⟨es, s, hrun, hfailed⟩ : ∃ es s,
      Run Step (start (fun _ => ⟨0, .zero, 0⟩) 0 0) twoAdded es s ∧
        Event.failed .cancelItErase ∈ (s.cancelInLoop ⟨8, 0⟩).trace :=
    Run.exists_of_exec _ (by decide +kernel)
  exact ⟨es, s, hrun, hfailed, fun hcompletes => hcompletes.asserted _ hfailed⟩

end TimerLoop
end Chaonet
