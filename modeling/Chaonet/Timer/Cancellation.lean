import Chaonet.Timer.Indexes

/-!
# Cancelling a timer

A cancel finds its timer in the indexes, in the batch being run, or nowhere.  From the
indexes it is taken out.  A timer of the batch is marked in `cancelingTimers_`, and `reset`
does not restart it.  But `handleRead` does not look at the mark: if the callback of the
timer has not started yet, it still will.

`Gone` says that nothing can start a timer any more.  A cancel that comes after the
`addTimerInLoop` of its timer makes it `Gone`, unless the timer is in the rest of the batch
(`cancel_final_iff`).
-/

namespace Chaonet

open Foundation

namespace TimerLoop

open TimerQueue

variable {P : Set TimerPtr} {s t : TimerLoop} {es past : List Event} {id : TimerId}

/-- The sequence of the timer at an address. -/
def sequence (s : TimerLoop) (p : TimerPtr) : Int := (s.queue.heap p).sequence

/-! ## What the queue shows by itself -/

/-- The events of the queue itself; all others are shown by the loop. -/
def Internal (es : List Event) : Prop :=
  ∀ e ∈ es, (∃ a, e = .failed a) ∨ (∃ snapshot, e = .sizesAsserted snapshot) ∨
    ∃ value, e = .settime value

@[simp] theorem internal_nil : Internal [] := by simp [Internal]

@[simp] theorem internal_append {es es' : List Event} :
    Internal (es ++ es') ↔ Internal es ∧ Internal es' := List.forall_mem_append

@[simp] theorem internal_check (a : Assertion) (p : Prop) [Decidable p] :
    Internal (Traced.check (Event.failed a) p).trace := by
  intro e he
  exact Or.inl ⟨a, (Traced.mem_check_trace.mp he).2⟩

@[simp] theorem internal_assertSizes (q : TimerQueue) : Internal q.assertSizes.trace := by
  simp only [assertSizes, Traced.bind_trace, internal_append, internal_check, and_true]
  simp [Internal]

@[simp] theorem internal_resetTimerfd (q : TimerQueue) (expiration : Int) :
    Internal (q.resetTimerfd expiration).trace := by
  simp [resetTimerfd, Internal]

@[simp] theorem internal_insert (q : TimerQueue) (p : TimerPtr) : Internal (q.insert p).trace := by
  simp [TimerQueue.insert]

theorem internal_addTimerInLoop (q : TimerQueue) (p : TimerPtr) :
    Internal (q.addTimerInLoop p).trace := by
  simp only [TimerQueue.addTimerInLoop, Traced.bind_trace, internal_append]
  split_ifs <;> simp

theorem internal_cancelInLoop (q : TimerQueue) (p : TimerPtr) (n : Int) :
    Internal (q.cancelInLoop p n).trace := by
  simp only [TimerQueue.cancelInLoop, Traced.bind_trace, internal_append]
  split_ifs <;> simp

theorem internal_eraseActive (q : TimerQueue) (expired : List Entry) :
    Internal (q.eraseActive expired).trace := by
  induction expired generalizing q with
  | nil => exact internal_nil
  | cons entry expired ih => simp [eraseActive, ih]

theorem internal_getExpired (q : TimerQueue) (now : Int) : Internal (q.getExpired now).trace := by
  simp [TimerQueue.getExpired, internal_eraseActive]

theorem internal_reset (q : TimerQueue) (expired : List Entry) (now : Int) :
    Internal (q.reset expired now).trace := by
  have hrestart : Internal (q.restartExpired now expired).trace := by
    induction expired generalizing q with
    | nil => exact internal_nil
    | cons it expired ih =>
        rw [restartExpired_cons]
        split_ifs <;> simp [ih]
  simp only [TimerQueue.reset, Traced.bind_trace, internal_append]
  split_ifs <;> simp [hrestart]

/-- No step but `run` starts a callback, and no step but `addTimerInLoop` shows `added`. -/
theorem Internal.not_mem {es : List Event} (h : Internal es) (id : TimerId) :
    .added id ∉ es ∧ .started id ∉ es ∧ .created id ∉ es ∧ .cancelled id ∉ es := by
  refine ⟨fun hmem => ?_, fun hmem => ?_, fun hmem => ?_, fun hmem => ?_⟩ <;>
    simpa using h _ hmem

/-! ## Timers and their sequences -/

/-- The timer at `p` is indexed, bound, or in the batch. -/
def Live (P : Set TimerPtr) (s : TimerLoop) (p : TimerPtr) : Prop :=
  p ∈ P ∨ p ∈ s.bound ∨ p ∈ s.phase.expired.map Entry.timer

/-- The sequences of the live timers tell them apart, and an id that was added is not bound
any more. -/
structure Known (P : Set TimerPtr) (past : List Event) (s : TimerLoop) : Prop where
  numbered : ∀ p, Live P s p → s.sequence p < s.numCreated
  distinct : ∀ p p', Live P s p → Live P s p' → s.sequence p = s.sequence p' → p = p'
  old : ∀ id, .added id ∈ past → id.sequence < s.numCreated
  added : ∀ id, .added id ∈ past → ∀ p, Live P s p → s.sequence p = id.sequence →
    p = id.timer ∧ p ∉ s.bound

theorem Known.addTimer (h : Known P past s) (hbooks : Books P s) {timer : TimerPtr}
    (hfresh : timer ∉ s.owners) (when_ : Int) (interval : Interval) :
    Known P (past ++ (s.addTimer timer when_ interval).trace)
      (s.addTimer timer when_ interval).val := by
  have hne {p : TimerPtr} (hp : Live P s p) : p ≠ timer := by
    rintro rfl
    exact hfresh (hbooks.mem_owners hp)
  have hnew : (s.addTimer timer when_ interval).val.sequence timer = s.numCreated := by
    simp [TimerLoop.addTimer, sequence]
  have hsame {p : TimerPtr} (hp : Live P s p) :
      (s.addTimer timer when_ interval).val.sequence p = s.sequence p := by
    simp [TimerLoop.addTimer, sequence, hne hp]
  have hcases {p : TimerPtr} (hp : Live P (s.addTimer timer when_ interval).val p) :
      Live P s p ∨ p = timer := by
    rcases hp with hp | hp | hp
    · exact Or.inl (Or.inl hp)
    · rcases List.mem_append.mp hp with hp | hp
      · exact Or.inl (Or.inr (Or.inl hp))
      · exact Or.inr (List.mem_singleton.mp hp)
    · exact Or.inl (Or.inr (Or.inr hp))
  have hpast {id : TimerId} (hmem : .added id ∈ past ++ (s.addTimer timer when_ interval).trace) :
      .added id ∈ past := by
    simpa [TimerLoop.addTimer] using hmem
  have hnumber : (s.addTimer timer when_ interval).val.numCreated = s.numCreated + 1 := rfl
  constructor
  case numbered =>
    intro p hp
    rcases hcases hp with hp | rfl
    · have hlt := h.numbered p hp
      rw [hsame hp, hnumber]
      omega
    · rw [hnew, hnumber]
      omega
  case distinct =>
    intro p p' hp hp' heq
    rcases hcases hp with hold | hptimer <;> rcases hcases hp' with hold' | hptimer'
    · rw [hsame hold, hsame hold'] at heq
      exact h.distinct p p' hold hold' heq
    · have hlt := h.numbered p hold
      rw [hsame hold, hptimer', hnew] at heq
      omega
    · have hlt := h.numbered p' hold'
      rw [hptimer, hnew, hsame hold'] at heq
      omega
    · rw [hptimer, hptimer']
  case old =>
    intro id hmem
    have hlt := h.old id (hpast hmem)
    rw [hnumber]
    omega
  case added =>
    intro id hmem p hp heq
    rcases hcases hp with hp | rfl
    · rw [hsame hp] at heq
      obtain ⟨htimer, hnot⟩ := h.added id (hpast hmem) p hp heq
      refine ⟨htimer, fun hmem => ?_⟩
      rcases List.mem_append.mp hmem with hmem | hmem
      · exact hnot hmem
      · exact hne hp (List.mem_singleton.mp hmem)
    · have hlt := h.old id (hpast hmem)
      rw [hnew] at heq
      omega

theorem Known.addTimerInLoop (h : Known P past s) (hbooks : Books P s) {timer : TimerPtr}
    (hmem : timer ∈ s.bound) :
    Known (P ∪ {timer}) (past ++ (s.addTimerInLoop timer).trace) (s.addTimerInLoop timer).val := by
  have hsequence (p : TimerPtr) : (s.addTimerInLoop timer).val.sequence p = s.sequence p := by
    simp [TimerLoop.addTimerInLoop, sequence, addTimerInLoop_frame]
  have hlive {p : TimerPtr} (hp : Live (P ∪ {timer}) (s.addTimerInLoop timer).val p) :
      Live P s p := by
    rcases hp with (hp | rfl) | hp | hp
    · exact Or.inl hp
    · exact Or.inr (Or.inl hmem)
    · exact Or.inr (Or.inl (List.mem_of_mem_erase hp))
    · exact Or.inr (Or.inr hp)
  have hpast {id : TimerId} (hadded : .added id ∈ past ++ (s.addTimerInLoop timer).trace) :
      .added id ∈ past ∨ id = s.id timer := by
    have hqueue := (internal_addTimerInLoop s.queue timer).not_mem id
    simpa [TimerLoop.addTimerInLoop, hqueue.1, TimerLoop.id, addTimerInLoop_frame] using hadded
  constructor
  case numbered =>
    intro p hp
    rw [hsequence]
    exact h.numbered p (hlive hp)
  case distinct =>
    intro p p' hp hp' heq
    rw [hsequence, hsequence] at heq
    exact h.distinct p p' (hlive hp) (hlive hp') heq
  case old =>
    intro id hadded
    rcases hpast hadded with hadded | rfl
    · exact h.old id hadded
    · exact h.numbered timer (Or.inr (Or.inl hmem))
  case added =>
    intro id hadded p hp heq
    rw [hsequence] at heq
    rcases hpast hadded with hadded | rfl
    · obtain ⟨htimer, hnot⟩ := h.added id hadded p (hlive hp) heq
      exact ⟨htimer, fun hbound => hnot (List.mem_of_mem_erase hbound)⟩
    · have htimer : p = timer :=
        h.distinct p timer (hlive hp) (Or.inr (Or.inl hmem)) heq
      refine ⟨htimer, fun hbound => ?_⟩
      exact ((hbooks.boundNodup.mem_erase_iff).mp hbound).1 htimer

theorem Known.start (heap : TimerPtr → Timer) (clock : Nat) (numCreated : Int) :
    Known ∅ [] (start heap clock numCreated) := by
  have hnone (p : TimerPtr) : ¬Live ∅ (TimerLoop.start heap clock numCreated) p := by
    simp [Live, TimerLoop.start, Phase.expired]
  exact ⟨fun p hp => absurd hp (hnone p), fun p _ hp => absurd hp (hnone p), by simp, by simp⟩

/-- What the steps that add no timer have in common: no timer comes to life, and a timer
enters the indexes only when the batch is reset. -/
structure Shrinks (P P' : Set TimerPtr) (s t : TimerLoop) : Prop where
  index : ∀ p ∈ P', p ∈ P ∨ p ∈ s.phase.expired.map Entry.timer ∧ s.queue.Restarts p
  bound : t.bound = s.bound
  batch : ∀ p ∈ t.phase.expired.map Entry.timer, p ∈ P ∨
    p ∈ s.phase.expired.map Entry.timer ∧ (t.queue.Restarts p → s.queue.Restarts p)
  remaining : ∀ e ∈ t.phase.remaining, e ∈ s.phase.remaining ∨ e.timer ∈ P
  sequence : ∀ p, t.sequence p = s.sequence p
  numCreated : t.numCreated = s.numCreated

theorem Shrinks.live {P' : Set TimerPtr} (h : Shrinks P P' s t) {p : TimerPtr}
    (hp : Live P' t p) : Live P s p := by
  rcases hp with hp | hp | hp
  · rcases h.index p hp with hp | hp
    · exact Or.inl hp
    · exact Or.inr (Or.inr hp.1)
  · exact Or.inr (Or.inl (h.bound ▸ hp))
  · rcases h.batch p hp with hp | hp
    · exact Or.inl hp
    · exact Or.inr (Or.inr hp.1)

/-- Steps that leave the indexes, the batch and the objects alone. -/
theorem Shrinks.keep (hbound : t.bound = s.bound) (hphase : t.phase.expired = s.phase.expired)
    (hremaining : ∀ e ∈ t.phase.remaining, e ∈ s.phase.remaining)
    (hheap : t.queue.heap = s.queue.heap)
    (hcanceling : t.queue.cancelingTimers = s.queue.cancelingTimers)
    (hnumber : t.numCreated = s.numCreated) : Shrinks P P s t := by
  constructor
  case index => exact fun p hp => Or.inl hp
  case bound => exact hbound
  case batch =>
    intro p hp
    refine Or.inr ⟨hphase ▸ hp, fun hrestarts => ?_⟩
    simpa [Restarts, active, hheap, hcanceling] using hrestarts
  case remaining => exact fun e he => Or.inl (hremaining e he)
  case sequence =>
    intro p
    rw [TimerLoop.sequence, hheap, TimerLoop.sequence]
  case numCreated => exact hnumber

theorem Shrinks.cancelInLoop (P : Set TimerPtr) (s : TimerLoop) (id : TimerId) :
    Shrinks P {p ∈ P | s.queue.active p ≠ ActiveTimer.mk (s.lock id) id.sequence} s
      (s.cancelInLoop id).val := by
  obtain ⟨-, -, hheap, -, hcanceling⟩ := cancelInLoop_frame s.queue (s.lock id) id.sequence
  have hheap : (s.cancelInLoop id).val.queue.heap = s.queue.heap := hheap
  constructor
  case index => exact fun p hp => Or.inl hp.1
  case bound => rfl
  case batch =>
    intro p hp
    refine Or.inr ⟨hp, ?_⟩
    rintro ⟨hrepeat, hmarked⟩
    rw [hheap] at hrepeat
    rw [active, hheap] at hmarked
    exact ⟨hrepeat, fun hmem => hmarked (hcanceling _ hmem)⟩
  case remaining => exact fun e he => Or.inl he
  case sequence => exact fun p => by rw [TimerLoop.sequence, hheap, TimerLoop.sequence]
  case numCreated => rfl

theorem Shrinks.getExpired (hbooks : Books P s) (now : Int) :
    Shrinks P {p ∈ P | now ≤ (s.queue.heap p).expiration} s (s.getExpired now).val := by
  obtain ⟨activeTimers, hval⟩ := getExpired_frame s.queue.readTimerfd now
  obtain ⟨-, hmem, -, -⟩ := (readTimerfd_represents hbooks.index).getExpired now
  have hbatch : ∀ e ∈ (s.queue.readTimerfd.getExpired now).val.2, e.timer ∈ P := by
    intro e he
    have hentry := ((hmem e).mp he).1
    rw [readTimerfd_timers] at hentry
    exact ((hbooks.index.keys e).mp hentry).1
  constructor
  case index => exact fun p hp => Or.inl hp.1
  case bound => rfl
  case batch =>
    intro p hp
    obtain ⟨e, he, rfl⟩ := List.mem_map.mp hp
    exact Or.inl (hbatch e he)
  case remaining => exact fun e he => Or.inr (hbatch e he)
  case sequence =>
    intro p
    show ((s.queue.readTimerfd.getExpired now).val.1.heap p).sequence = _
    rw [hval]
    show (s.queue.readTimerfd.heap p).sequence = _
    rw [readTimerfd_heap, TimerLoop.sequence]
  case numCreated => rfl

theorem Shrinks.reset {now : Int} {expired : List Entry}
    (hphase : s.phase = .running now expired []) :
    Shrinks P (P ∪ {p | s.queue.Restarts p ∧ p ∈ expired.map Entry.timer}) s
      (s.reset now expired).val := by
  obtain ⟨-, -, -, hheap⟩ :=
    restartExpired_frame { s.queue with callingExpiredTimers := false } now expired
  constructor
  case index =>
    intro p hp
    rcases hp with hp | ⟨hrestarts, hmem⟩
    · exact Or.inl hp
    · rw [hphase]
      exact Or.inr ⟨hmem, hrestarts⟩
  case bound => rfl
  case batch => exact fun p hp => absurd hp List.not_mem_nil
  case remaining => exact fun e he => absurd he List.not_mem_nil
  case sequence =>
    intro p
    obtain ⟨timerfd, hval⟩ :=
      reset_frame { s.queue with callingExpiredTimers := false } expired now
    show (({ s.queue with callingExpiredTimers := false }.reset expired now).val.heap p).sequence =
      _
    rw [hval]
    show (({ s.queue with callingExpiredTimers := false }.restartExpired now expired).val.heap
      p).sequence = _
    rw [hheap]
    split_ifs
    · exact Timer.restart_sequence _ _
    · rfl
  case numCreated => rfl

/-- A step makes a timer, or adds one to the indexes, or does neither.  Only `run` starts a
callback, that of the next timer of the batch. -/
inductive Change (P : Set TimerPtr) (s : TimerLoop) : List Event → TimerLoop → Prop
  | made (timer : TimerPtr) (when_ : Int) (interval : Interval) :
      timer ≠ 0 → timer ∉ s.owners →
        Change P s (s.addTimer timer when_ interval).trace (s.addTimer timer when_ interval).val
  | added (timer : TimerPtr) :
      timer ∈ s.bound → Change P s (s.addTimerInLoop timer).trace (s.addTimerInLoop timer).val
  | other {P' : Set TimerPtr} {es : List Event} {t : TimerLoop} :
      Books P' t → Shrinks P P' s t → (∀ id, .added id ∉ es) →
        (∀ id, .started id ∈ es → ∃ e ∈ s.phase.remaining, s.id e.timer = id) → Change P s es t

theorem Books.change (h : Books P s) {l : Label} (hstep : Step s l es t) : Change P s es t := by
  have hcases := step_cases hstep
  cases l with
  | addTimer timer when_ interval =>
      obtain ⟨hnull, hfresh, heq⟩ := hcases
      obtain ⟨rfl, rfl⟩ := Traced.mk.inj heq
      exact .made timer when_ interval hnull hfresh
  | addTimerInLoop timer =>
      obtain ⟨hmem, -, heq⟩ := hcases
      obtain ⟨rfl, rfl⟩ := Traced.mk.inj heq
      exact .added timer hmem
  | cancelInLoop id =>
      obtain ⟨-, heq⟩ := hcases
      obtain ⟨rfl, rfl⟩ := Traced.mk.inj heq
      refine .other (h.cancelInLoop id).1 (.cancelInLoop P s id) (fun id' => ?_)
        (fun id' hmem => ?_)
      all_goals have hqueue := (internal_cancelInLoop s.queue (s.lock id) id.sequence).not_mem id'
      · simp [hqueue.1]
      · simp [hqueue.2.1] at hmem
  | tick micros =>
      obtain ⟨rfl, rfl⟩ := hcases
      exact .other (h.retime _ _) (.keep rfl rfl (fun _ he => he) rfl rfl rfl) (by simp) (by simp)
  | expire =>
      obtain ⟨-, rfl, rfl⟩ := hcases
      exact .other (h.retime _ _) (.keep rfl rfl (fun _ he => he) rfl rfl rfl) (by simp) (by simp)
  | handleRead =>
      obtain ⟨hphase, rfl, rfl⟩ := hcases
      refine .other (h.handleRead hphase _) (.keep rfl ?_ (fun e he => ?_) rfl rfl rfl) (by simp)
        (by simp)
      · rw [hphase]
        rfl
      · exact absurd he List.not_mem_nil
  | getExpired =>
      obtain ⟨now, hphase, heq⟩ := hcases
      obtain ⟨rfl, rfl⟩ := Traced.mk.inj heq
      refine .other (h.getExpired now).1 (.getExpired h now) (fun id => ?_) (fun id hmem => ?_)
      all_goals have hqueue := (internal_getExpired s.queue.readTimerfd now).not_mem id
      · simp [hqueue.1]
      · simp [hqueue.2.1] at hmem
  | run =>
      obtain ⟨now, expired, it, rest, hphase, heq⟩ := hcases
      obtain ⟨rfl, rfl⟩ := Traced.mk.inj heq
      refine .other (h.run hphase) (.keep rfl ?_ (fun e he => ?_) rfl rfl rfl) (by simp)
        (fun id hmem => ?_)
      · rw [hphase]
        rfl
      · rw [hphase]
        exact List.mem_cons_of_mem _ he
      · rw [hphase]
        have heq : id = s.id it.timer := by simpa [TimerLoop.run] using hmem
        exact ⟨it, List.mem_cons_self .., heq.symm⟩
  | reset =>
      obtain ⟨now, expired, hphase, heq⟩ := hcases
      obtain ⟨rfl, rfl⟩ := Traced.mk.inj heq
      refine .other (h.reset hphase).1 (.reset hphase) (fun id => ?_) (fun id hmem => ?_)
      all_goals
        have hqueue := (internal_reset { s.queue with callingExpiredTimers := false } expired
          now).not_mem id
      · simp [hqueue.1]
      · simp [hqueue.2.1] at hmem

theorem Known.of_shrinks (h : Known P past s) {P' : Set TimerPtr} (hshrinks : Shrinks P P' s t)
    (hadded : ∀ id, .added id ∉ es) : Known P' (past ++ es) t := by
  have hpast {id : TimerId} (hmem : .added id ∈ past ++ es) : .added id ∈ past :=
    (List.mem_append.mp hmem).resolve_right (hadded id)
  constructor
  case numbered =>
    intro p hp
    rw [hshrinks.sequence, hshrinks.numCreated]
    exact h.numbered p (hshrinks.live hp)
  case distinct =>
    intro p p' hp hp' heq
    rw [hshrinks.sequence, hshrinks.sequence] at heq
    exact h.distinct p p' (hshrinks.live hp) (hshrinks.live hp') heq
  case old =>
    intro id hmem
    rw [hshrinks.numCreated]
    exact h.old id (hpast hmem)
  case added =>
    intro id hmem p hp heq
    rw [hshrinks.sequence] at heq
    obtain ⟨htimer, hnot⟩ := h.added id (hpast hmem) p (hshrinks.live hp) heq
    exact ⟨htimer, fun hmem => hnot (hshrinks.bound ▸ hmem)⟩

/-- Every step keeps the sequences in order. -/
theorem Known.step (h : Known P past s) (hbooks : Books P s) {l : Label}
    (hstep : Step s l es t) : ∃ P', Books P' t ∧ Known P' (past ++ es) t := by
  cases hbooks.change hstep with
  | made timer when_ interval hnull hfresh =>
      exact ⟨P, hbooks.addTimer hnull hfresh when_ interval,
        h.addTimer hbooks hfresh when_ interval⟩
  | added timer hmem => exact ⟨_, (hbooks.addTimerInLoop hmem).1, h.addTimerInLoop hbooks hmem⟩
  | other hbooks' hshrinks hadded _ => exact ⟨_, hbooks', h.of_shrinks hshrinks hadded⟩

theorem known_of_run {heap : TimerPtr → Timer} {clock : Nat} {numCreated : Int}
    {ls : List Label} (h : Run Step (start heap clock numCreated) ls es s) :
    ∃ P, Books P s ∧ Known P es s :=
  h.history (I := fun es s => ∃ P, Books P s ∧ Known P es s) []
    ⟨∅, Books.start heap clock numCreated, Known.start heap clock numCreated⟩
    (fun _ _ _ _ _ ⟨_, hbooks, hknown⟩ hstep => hknown.step hbooks hstep)

/-! ## Gone timers -/

/-- Nothing in the loop can start the timer of this sequence any more. -/
structure Gone (id : TimerId) (P : Set TimerPtr) (s : TimerLoop) : Prop where
  old : id.sequence < s.numCreated
  index : ∀ p ∈ P, s.sequence p ≠ id.sequence
  bound : ∀ p ∈ s.bound, s.sequence p ≠ id.sequence
  remaining : ∀ e ∈ s.phase.remaining, s.sequence e.timer ≠ id.sequence
  /-- A timer of the batch that has run will not be restarted. -/
  batch : ∀ p ∈ s.phase.expired.map Entry.timer, s.sequence p = id.sequence → ¬s.queue.Restarts p

theorem Gone.of_shrinks (h : Gone id P s) {P' : Set TimerPtr} (hshrinks : Shrinks P P' s t) :
    Gone id P' t := by
  constructor
  case old => exact hshrinks.numCreated ▸ h.old
  case index =>
    intro p hp heq
    rw [hshrinks.sequence] at heq
    rcases hshrinks.index p hp with hp | ⟨hp, hrestarts⟩
    · exact h.index p hp heq
    · exact h.batch p hp heq hrestarts
  case bound =>
    intro p hp
    rw [hshrinks.sequence]
    exact h.bound p (hshrinks.bound ▸ hp)
  case remaining =>
    intro e he
    rw [hshrinks.sequence]
    rcases hshrinks.remaining e he with he | hp
    · exact h.remaining e he
    · exact h.index e.timer hp
  case batch =>
    intro p hp heq hrestarts
    rw [hshrinks.sequence] at heq
    rcases hshrinks.batch p hp with hp | ⟨hp, hback⟩
    · exact h.index p hp heq
    · exact h.batch p hp heq (hback hrestarts)

theorem Gone.addTimer (h : Gone id P s) (hbooks : Books P s) {timer : TimerPtr}
    (hfresh : timer ∉ s.owners) (when_ : Int) (interval : Interval) :
    Gone id P (s.addTimer timer when_ interval).val := by
  have hheap {p : TimerPtr} (hp : Live P s p) :
      (s.addTimer timer when_ interval).val.queue.heap p = s.queue.heap p := by
    have hne : p ≠ timer := by
      rintro rfl
      exact hfresh (hbooks.mem_owners hp)
    simp [TimerLoop.addTimer, hne]
  have hsame {p : TimerPtr} (hp : Live P s p) :
      (s.addTimer timer when_ interval).val.sequence p = s.sequence p := by
    rw [TimerLoop.sequence, hheap hp, TimerLoop.sequence]
  have hold := h.old
  constructor
  case old =>
    show id.sequence < s.numCreated + 1
    omega
  case index =>
    intro p hp
    rw [hsame (Or.inl hp)]
    exact h.index p hp
  case bound =>
    intro p hp
    rcases List.mem_append.mp hp with hp | hp
    · rw [hsame (Or.inr (Or.inl hp))]
      exact h.bound p hp
    · obtain rfl := List.mem_singleton.mp hp
      have hnew : (s.addTimer p when_ interval).val.sequence p = s.numCreated := by
        simp [TimerLoop.addTimer, TimerLoop.sequence]
      rw [hnew]
      omega
  case remaining =>
    intro e he
    have hmem : e.timer ∈ s.phase.expired.map Entry.timer :=
      List.mem_map_of_mem (hbooks.remaining.mem he)
    rw [hsame (Or.inr (Or.inr hmem))]
    exact h.remaining e he
  case batch =>
    intro p hp heq hrestarts
    rw [hsame (Or.inr (Or.inr hp))] at heq
    refine h.batch p hp heq ⟨?_, ?_⟩
    · rw [← hheap (Or.inr (Or.inr hp))]
      exact hrestarts.1
    · have hmarked := hrestarts.2
      rw [active, hheap (Or.inr (Or.inr hp))] at hmarked
      exact hmarked

theorem Gone.addTimerInLoop (h : Gone id P s) {timer : TimerPtr} (hmem : timer ∈ s.bound) :
    Gone id (P ∪ {timer}) (s.addTimerInLoop timer).val := by
  obtain ⟨hheap, hcanceling⟩ := addTimerInLoop_frame s.queue timer
  have hheap : (s.addTimerInLoop timer).val.queue.heap = s.queue.heap := hheap
  have hsame (p : TimerPtr) : (s.addTimerInLoop timer).val.sequence p = s.sequence p := by
    rw [TimerLoop.sequence, hheap, TimerLoop.sequence]
  constructor
  case old => exact h.old
  case index =>
    intro p hp
    rw [hsame]
    rcases hp with hp | rfl
    · exact h.index p hp
    · exact h.bound p hmem
  case bound =>
    intro p hp
    rw [hsame]
    exact h.bound p (List.mem_of_mem_erase hp)
  case remaining =>
    intro e he
    rw [hsame]
    exact h.remaining e he
  case batch =>
    intro p hp heq hrestarts
    rw [hsame] at heq
    refine h.batch p hp heq ⟨?_, ?_⟩
    · rw [← hheap]
      exact hrestarts.1
    · have hmarked := hrestarts.2
      rw [active, hheap] at hmarked
      exact hcanceling ▸ hmarked

/-- No step starts a gone timer, and it stays gone. -/
theorem Gone.step (h : Gone id P s) (hbooks : Books P s) {l : Label} (hstep : Step s l es t) :
    (∃ P', Books P' t ∧ Gone id P' t) ∧ .started id ∉ es := by
  cases hbooks.change hstep with
  | made timer when_ interval hnull hfresh =>
      exact ⟨⟨P, hbooks.addTimer hnull hfresh when_ interval,
        h.addTimer hbooks hfresh when_ interval⟩, by simp [TimerLoop.addTimer]⟩
  | added timer hmem =>
      refine ⟨⟨_, (hbooks.addTimerInLoop hmem).1, h.addTimerInLoop hmem⟩, ?_⟩
      have hqueue := (internal_addTimerInLoop s.queue timer).not_mem id
      simp [TimerLoop.addTimerInLoop, hqueue.2.1]
  | other hbooks' hshrinks _ hstarted =>
      refine ⟨⟨_, hbooks', h.of_shrinks hshrinks⟩, ?_⟩
      intro hmem
      obtain ⟨e, he, hid⟩ := hstarted id hmem
      exact h.remaining e he (congrArg TimerId.sequence hid)

/-- A gone timer is never started. -/
theorem Gone.run (h : Gone id P s) (hbooks : Books P s) {ls : List Label}
    (hrun : Run Step s ls es t) : (∃ P', Books P' t ∧ Gone id P' t) ∧ .started id ∉ es :=
  hrun.history (I := fun es s => (∃ P, Books P s ∧ Gone id P s) ∧ .started id ∉ es) []
    ⟨⟨P, hbooks, h⟩, by simp⟩
    (fun past s l es t ⟨⟨P, hbooks, hgone⟩, hpast⟩ hstep => by
      obtain ⟨hnext, hstarted⟩ := hgone.step hbooks hstep
      exact ⟨hnext, by simp [hpast, hstarted]⟩)

/-! ## What a cancel achieves -/

/-- The timer is in the rest of the batch: its callback is still to be started. -/
def Pending (s : TimerLoop) (id : TimerId) : Prop := ∃ e ∈ s.phase.remaining, s.id e.timer = id

instance (s : TimerLoop) (id : TimerId) : Decidable (s.Pending id) :=
  inferInstanceAs (Decidable (∃ e ∈ _, _))

theorem cancelInLoop_marks {q : TimerQueue} {p : TimerPtr} {n : Int}
    (hout : ActiveTimer.mk p n ∉ q.activeTimers) (hcalling : q.callingExpiredTimers = true) :
    ActiveTimer.mk p n ∈ (q.cancelInLoop p n).val.cancelingTimers := by
  simp [TimerQueue.cancelInLoop, hout, hcalling]

/-- Cancelling a timer that was added and is not pending makes it gone. -/
theorem gone_of_cancelInLoop (hknown : Known P past s) (hbooks : Books P s)
    (hadded : .added id ∈ past) (hpending : ¬s.Pending id) :
    Gone id {p ∈ P | s.queue.active p ≠ ActiveTimer.mk (s.lock id) id.sequence}
      (s.cancelInLoop id).val := by
  obtain ⟨-, -, hheap, -, -⟩ := cancelInLoop_frame s.queue (s.lock id) id.sequence
  have hsame (p : TimerPtr) : (s.cancelInLoop id).val.sequence p = s.sequence p := by
    show ((s.queue.cancelInLoop (s.lock id) id.sequence).val.heap p).sequence = _
    rw [hheap, TimerLoop.sequence]
  -- A live timer of this sequence is the one the id stands for, and it can be locked.
  have hlock {p : TimerPtr} (hp : Live P s p) (heq : s.sequence p = id.sequence) :
      p = id.timer ∧ s.lock id = p := by
    obtain ⟨rfl, -⟩ := hknown.added id hadded p hp heq
    exact ⟨rfl, if_pos ⟨hbooks.mem_owners hp, heq⟩⟩
  constructor
  case old => exact hknown.old id hadded
  case index =>
    intro p hp heq
    rw [hsame] at heq
    obtain ⟨-, hlocked⟩ := hlock (Or.inl hp.1) heq
    exact hp.2 (ActiveTimer.ext_iff.mpr ⟨hlocked.symm, heq⟩)
  case bound =>
    intro p hp heq
    rw [hsame] at heq
    exact (hknown.added id hadded p (Or.inr (Or.inl hp)) heq).2 hp
  case remaining =>
    intro e he heq
    rw [hsame] at heq
    have hmem : e.timer ∈ s.phase.expired.map Entry.timer :=
      List.mem_map_of_mem (hbooks.remaining.mem he)
    obtain ⟨htimer, -⟩ := hlock (Or.inr (Or.inr hmem)) heq
    apply hpending
    refine ⟨e, he, ?_⟩
    show (⟨e.timer, s.sequence e.timer⟩ : TimerId) = id
    rw [heq, htimer]
  case batch =>
    intro p hp heq hrestarts
    rw [hsame] at heq
    have hp : p ∈ s.phase.expired.map Entry.timer := hp
    obtain ⟨-, hlocked⟩ := hlock (Or.inr (Or.inr hp)) heq
    -- It is in no index, so that the cancel has marked it.
    have hout : ActiveTimer.mk (s.lock id) id.sequence ∉ s.queue.activeTimers := by
      intro hmem
      have hP := ((hbooks.index.actives _).mp hmem).1
      rw [ActiveTimer.timer_mk, hlocked] at hP
      exact (hbooks.batch p hp).2 hP
    have hcalling : s.queue.callingExpiredTimers = true := by
      rcases hbooks.calling with hc | hc
      · exact hc
      · exact absurd hp (by simp [hc])
    have hactive : (s.cancelInLoop id).val.queue.active p =
        ActiveTimer.mk (s.lock id) id.sequence :=
      ActiveTimer.ext_iff.mpr ⟨hlocked.symm, (hsame p).trans heq⟩
    apply hrestarts.2
    rw [hactive]
    exact cancelInLoop_marks hout hcalling

/-- A timer of the rest of the batch is started when its turn comes. -/
theorem started_of_remaining {now : Int} {expired before after : List Entry} {e : Entry}
    (hphase : s.phase = .running now expired (before ++ e :: after)) :
    ∃ ls es t, Run Step s ls es t ∧ .started (s.id e.timer) ∈ es := by
  induction before generalizing s with
  | nil =>
      have hstep : Step s .run (s.run now expired e after).trace
          (s.run now expired e after).val := by
        simp only [Step, stepOf, step, hphase]
        rfl
      exact ⟨[.run], _, _, .single hstep, by simp [TimerLoop.run]⟩
  | cons it before ih =>
      have hstep : Step s .run (s.run now expired it (before ++ e :: after)).trace
          (s.run now expired it (before ++ e :: after)).val := by
        simp only [Step, stepOf, step, hphase]
        rfl
      obtain ⟨ls, es, t, hrun, hstarted⟩ :=
        ih (s := (s.run now expired it (before ++ e :: after)).val) rfl
      exact ⟨.run :: ls, _, t, .cons hstep hrun, List.mem_append_right _ hstarted⟩

/-- **When a cancel is final**: after `cancelInLoop` for a timer that was added, its
callback never starts again, exactly if it is not pending in the batch. -/
theorem cancel_final_iff {heap : TimerPtr → Timer} {clock : Nat} {numCreated : Int}
    {ls : List Label} {es' : List Event} (hrun : Run Step (start heap clock numCreated) ls es s)
    (hadded : .added id ∈ es) (hcancel : Step s (.cancelInLoop id) es' t) :
    (∀ ls' es'' u, Run Step t ls' es'' u → .started id ∉ es'') ↔ ¬s.Pending id := by
  obtain ⟨-, heq⟩ := step_cases hcancel
  obtain ⟨rfl, rfl⟩ := Traced.mk.inj heq
  obtain ⟨P, hbooks, hknown⟩ := known_of_run hrun
  constructor
  · rintro hfinal ⟨e, he, hid⟩
    obtain ⟨now, expired, remaining, hphase⟩ : ∃ now expired remaining,
        s.phase = .running now expired remaining := by
      cases hphase : s.phase with
      | idle => simp [hphase, Phase.remaining] at he
      | entered now => simp [hphase, Phase.remaining] at he
      | running now expired remaining => exact ⟨now, expired, remaining, rfl⟩
    rw [hphase] at he
    obtain ⟨before, after, rfl⟩ := List.append_of_mem he
    obtain ⟨ls', es'', u, hrun', hstarted⟩ :=
      started_of_remaining (s := (s.cancelInLoop id).val) hphase
    have hsame : (s.cancelInLoop id).val.id e.timer = id := by
      obtain ⟨-, -, hheap, -, -⟩ := cancelInLoop_frame s.queue (s.lock id) id.sequence
      rw [← hid]
      show (⟨e.timer, ((s.queue.cancelInLoop _ _).val.heap e.timer).sequence⟩ : TimerId) = _
      rw [hid, hheap]
      exact hid
    exact hfinal ls' es'' u hrun' (hsame ▸ hstarted)
  · intro hpending ls' es'' u hrun'
    have hgone := gone_of_cancelInLoop hknown hbooks hadded hpending
    exact (hgone.run (hbooks.cancelInLoop id).1 hrun').2

/-- Two timers expire in one batch. -/
def oneBatch : List Label :=
  [.addTimer 8 10 .zero, .addTimerInLoop 8, .addTimer 4 20 .zero, .addTimerInLoop 4, .tick 200,
    .expire, .handleRead, .getExpired, .run]

/-- The callback of the first timer cancels the first timer. -/
theorem cancel_final_iff_self :
    ∃ es s es' t, Run Step (start (fun _ => ⟨0, .zero, 0⟩) 0 0) oneBatch es s ∧
      Step s (.cancelInLoop ⟨8, 0⟩) es' t ∧
      ((∀ ls' es'' u, Run Step t ls' es'' u → .started ⟨8, 0⟩ ∉ es'') ↔ ¬s.Pending ⟨8, 0⟩) := by
  obtain ⟨es, s, hrun, hadded, hcallable⟩ : ∃ es s,
      Run Step (start (fun _ => ⟨0, .zero, 0⟩) 0 0) oneBatch es s ∧ .added ⟨8, 0⟩ ∈ es ∧
        s.phase.Callable := Run.exists_of_exec _ (by decide +kernel)
  have hcancel : Step s (.cancelInLoop ⟨8, 0⟩) (s.cancelInLoop ⟨8, 0⟩).trace
      (s.cancelInLoop ⟨8, 0⟩).val := by
    simp only [Step, stepOf, step, if_pos hcallable]
  exact ⟨es, s, _, _, hrun, hcancel, cancel_final_iff hrun hadded hcancel⟩

/-- The callback of the first timer cancels the second one, which starts all the same. -/
theorem started_after_cancel :
    ∃ es t, Run Step (start (fun _ => ⟨0, .zero, 0⟩) 0 0)
      (oneBatch ++ [.cancelInLoop ⟨4, 1⟩, .run]) es t ∧ .added ⟨4, 1⟩ ∈ es ∧
      .cancelled ⟨4, 1⟩ ∈ es.dropLast ∧ es.getLast? = some (.started ⟨4, 1⟩) :=
  Run.exists_of_exec _ (by decide +kernel)

end TimerLoop
end Chaonet
