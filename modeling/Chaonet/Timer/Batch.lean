import Chaonet.Timer.Handover
import Chaonet.Timer.Iterators

/-!
# One batch of timers

`handleRead` takes the expired timers out of the indexes, runs their callbacks, and puts the
repeating ones back.  Meanwhile callbacks add and cancel timers.  A cancel of a timer that is in
the indexes takes it out; one of a timer of the batch is remembered in `cancelingTimers_`, for
`reset`.

`InBatch` says how the indexes follow from those before the batch and the adds and cancels that
have shown since.  Every step of the callbacks keeps it, and `reset` turns it into what
`handleRead` has done as a whole (`handleRead_batch`).
-/

namespace Chaonet

open Foundation

namespace TimerLoop

open TimerQueue (Event)

/-- The timers whose callbacks start, in order. -/
def starts (es : List Event) : List TimerId :=
  es.filterMap fun
    | .started id => some id
    | _ => none

@[simp] theorem starts_append (es es' : List Event) :
    starts (es ++ es') = starts es ++ starts es' :=
  List.filterMap_append

/-- The timer with this id is active. -/
def Active (s : TimerLoop) (id : TimerId) : Prop :=
  ActiveTimer.mk id.timer id.sequence ∈ s.queue.activeTimers

instance (s : TimerLoop) (id : TimerId) : Decidable (s.Active id) :=
  inferInstanceAs (Decidable (_ ∈ _))

/-- The callbacks of `batch` are being run.  `before` is the state after `getExpired`, and `es`
shows what has happened since. -/
structure InBatch (now : Int) (batch : List Entry) (before : TimerLoop) (es : List Event)
    (s : TimerLoop) : Prop where
  phase : ∃ rest, s.phase = .running now batch rest ∧
    starts es ++ rest.map (fun e => before.id e.timer) = batch.map fun e => before.id e.timer
  active : ∀ id, s.Active id ↔ (before.Active id ∨ .added id ∈ es) ∧ .cancelled id ∉ es
  canceling : ∀ e ∈ batch,
    s.queue.active e.timer ∈ s.queue.cancelingTimers ↔ .cancelled (before.id e.timer) ∈ es
  heap : ∀ e ∈ batch, s.queue.heap e.timer = before.queue.heap e.timer

variable {P : Set TimerPtr} {before s t : TimerLoop} {es es' : List Event} {id : TimerId}
  {now : Int} {batch : List Entry}

theorem InBatch.id_eq (h : InBatch now batch before es s) {e : Entry} (he : e ∈ batch) :
    s.id e.timer = before.id e.timer := by
  rw [TimerLoop.id, TimerLoop.id, h.heap e he]

theorem InBatch.expired (h : InBatch now batch before es s) : s.phase.expired = batch := by
  obtain ⟨rest, hphase, -⟩ := h.phase
  rw [hphase]
  rfl

/-- Steps that neither add nor cancel a timer and start no callback. -/
theorem InBatch.keep (h : InBatch now batch before es s) (hphase : t.phase = s.phase)
    (hactive : t.queue.activeTimers = s.queue.activeTimers)
    (hcanceling : t.queue.cancelingTimers = s.queue.cancelingTimers)
    (hheap : ∀ e ∈ batch, t.queue.heap e.timer = s.queue.heap e.timer) (hstarts : starts es' = [])
    (hshown : ∀ id, .added id ∉ es' ∧ .cancelled id ∉ es') :
    InBatch now batch before (es ++ es') t := by
  constructor
  case phase =>
    obtain ⟨rest, hrest, horder⟩ := h.phase
    exact ⟨rest, hphase.trans hrest, by rwa [starts_append, hstarts, List.append_nil]⟩
  case active =>
    intro id
    have hsame : t.Active id ↔ s.Active id := by rw [Active, Active, hactive]
    rw [hsame, h.active id]
    simp [hshown id]
  case canceling =>
    intro e he
    have hsame : t.queue.active e.timer = s.queue.active e.timer := by
      rw [TimerQueue.active, TimerQueue.active, hheap e he]
    rw [hsame, hcanceling, h.canceling e he]
    simp [hshown]
  case heap => exact fun e he => (hheap e he).trans (h.heap e he)

theorem starts_of_internal (h : Internal es) : starts es = [] := by
  refine List.filterMap_eq_nil_iff.mpr fun e he => ?_
  rcases h e he with ⟨a, rfl⟩ | ⟨snapshot, rfl⟩ | ⟨value, rfl⟩
  · rfl
  · rfl
  · rfl

theorem addTimerInLoop_activeTimers (q : TimerQueue) (p : TimerPtr) :
    (q.addTimerInLoop p).val.activeTimers = q.activeTimers.insert (q.active p) := by
  simp only [TimerQueue.addTimerInLoop, Traced.bind_val]
  split_ifs <;> rfl

/-- The timer is added, and has not been cancelled before. -/
theorem InBatch.addTimerInLoop (h : InBatch now batch before es s) {timer : TimerPtr}
    (hfresh : .cancelled (s.id timer) ∉ es) :
    InBatch now batch before (es ++ (s.addTimerInLoop timer).trace)
      (s.addTimerInLoop timer).val := by
  obtain ⟨hheap, hcanceling⟩ := TimerQueue.addTimerInLoop_frame s.queue timer
  have hinternal := internal_addTimerInLoop s.queue timer
  have htrace : (s.addTimerInLoop timer).trace =
      (s.queue.addTimerInLoop timer).trace ++ [.added (s.id timer)] := by
    simp [TimerLoop.addTimerInLoop, TimerLoop.id]
  have hadded (id : TimerId) : .added id ∈ (s.addTimerInLoop timer).trace ↔ id = s.id timer := by
    simp [htrace, (hinternal.not_mem id).1]
  have hcancelled (id : TimerId) : .cancelled id ∉ (s.addTimerInLoop timer).trace := by
    simp [htrace, (hinternal.not_mem id).2.2.2]
  constructor
  case phase =>
    obtain ⟨rest, hphase, horder⟩ := h.phase
    refine ⟨rest, hphase, ?_⟩
    rw [starts_append, htrace, starts_append, starts_of_internal hinternal]
    simpa [starts] using horder
  case active =>
    intro id
    have hinsert : (s.addTimerInLoop timer).val.Active id ↔ id = s.id timer ∨ s.Active id := by
      show _ ∈ (s.queue.addTimerInLoop timer).val.activeTimers ↔ _
      rw [addTimerInLoop_activeTimers, OrderedSet.mem_insert, ActiveTimer.ext_iff, Active]
      refine or_congr_left ?_
      obtain ⟨p, n⟩ := id
      simp [TimerLoop.id, TimerQueue.active]
    rw [hinsert, h.active id, List.mem_append, List.mem_append, hadded]
    constructor
    · rintro (rfl | ⟨hold, hnot⟩)
      · exact ⟨Or.inr (Or.inr rfl), not_or.mpr ⟨hfresh, hcancelled _⟩⟩
      · exact ⟨hold.imp_right Or.inl, not_or.mpr ⟨hnot, hcancelled _⟩⟩
    · rintro ⟨hold | hold | rfl, hnot⟩
      · exact Or.inr ⟨Or.inl hold, (not_or.mp hnot).1⟩
      · exact Or.inr ⟨Or.inr hold, (not_or.mp hnot).1⟩
      · exact Or.inl rfl
  case canceling =>
    intro e he
    have hsame : (s.addTimerInLoop timer).val.queue.active e.timer = s.queue.active e.timer := by
      show TimerQueue.active (s.queue.addTimerInLoop timer).val e.timer = _
      rw [TimerQueue.active, hheap, TimerQueue.active]
    show (s.addTimerInLoop timer).val.queue.active e.timer ∈
      (s.queue.addTimerInLoop timer).val.cancelingTimers ↔ _
    rw [hsame, hcanceling, h.canceling e he, List.mem_append]
    simp [hcancelled]
  case heap =>
    intro e he
    show (s.queue.addTimerInLoop timer).val.heap e.timer = _
    rw [hheap]
    exact h.heap e he

/-- What a cancel adds to `cancelingTimers_` while a batch is being run. -/
theorem Books.mem_canceling_cancelInLoop (h : Books P s) {id : TimerId} {p : TimerPtr}
    (hp : p ∈ s.phase.expired.map Entry.timer) :
    s.queue.active p ∈ (s.cancelInLoop id).val.queue.cancelingTimers ↔
      s.queue.active p ∈ s.queue.cancelingTimers ∨ id = s.id p := by
  obtain ⟨hnull, hP⟩ := h.batch p hp
  have hcalling : s.queue.callingExpiredTimers = true := by
    rcases h.calling with hc | hc
    · exact hc
    · exact absurd hp (by simp [hc])
  -- The timer of an id can be locked if it is the one at `p`, which the batch keeps alive.
  have hlocked : ActiveTimer.mk (s.lock id) id.sequence = s.queue.active p ↔ id = s.id p := by
    constructor
    · intro heq
      obtain ⟨htimer, hsequence⟩ := ActiveTimer.ext_iff.mp heq
      have htimer : s.lock id = p := htimer
      by_cases hlock : id.timer ∈ s.owners ∧ (s.queue.heap id.timer).sequence = id.sequence
      · rw [lock, if_pos hlock] at htimer
        obtain ⟨q, n⟩ := id
        obtain rfl : q = p := htimer
        exact congrArg (TimerId.mk q) hsequence
      · rw [lock, if_neg hlock] at htimer
        exact absurd htimer.symm hnull
    · rintro rfl
      have hlock : s.lock (s.id p) = p := if_pos ⟨h.mem_owners (Or.inr (Or.inr hp)), rfl⟩
      rw [hlock]
      rfl
  have hout : s.queue.active p ∉ s.queue.activeTimers := fun hmem =>
    hP (h.index.mem_activeTimers.mp hmem)
  by_cases hmem : ActiveTimer.mk (s.lock id) id.sequence ∈ s.queue.activeTimers
  · have hother : id ≠ s.id p := fun heq => hout (hlocked.mpr heq ▸ hmem)
    have hsame : (s.cancelInLoop id).val.queue.cancelingTimers = s.queue.cancelingTimers := by
      simp [TimerLoop.cancelInLoop, TimerQueue.cancelInLoop, hmem]
    rw [hsame]
    simp [hother]
  · have hinsert : (s.cancelInLoop id).val.queue.cancelingTimers =
        s.queue.cancelingTimers.insert (ActiveTimer.mk (s.lock id) id.sequence) := by
      simp [TimerLoop.cancelInLoop, TimerQueue.cancelInLoop, hmem, hcalling]
    rw [hinsert, OrderedSet.mem_insert, eq_comm, hlocked, or_comm]

theorem InBatch.cancelInLoop (h : InBatch now batch before es s) (hbooks : Books P s)
    (id : TimerId) :
    InBatch now batch before (es ++ (s.cancelInLoop id).trace) (s.cancelInLoop id).val := by
  obtain ⟨-, -, hheap, -, -⟩ :=
    TimerQueue.cancelInLoop_frame s.queue (s.lock id) id.sequence
  have hinternal := internal_cancelInLoop s.queue (s.lock id) id.sequence
  have htrace : (s.cancelInLoop id).trace =
      (s.queue.cancelInLoop (s.lock id) id.sequence).trace ++ [.cancelled id] := by
    simp [TimerLoop.cancelInLoop]
  have hadded (id' : TimerId) : .added id' ∉ (s.cancelInLoop id).trace := by
    simp [htrace, (hinternal.not_mem id').1]
  have hcancelled (id' : TimerId) : .cancelled id' ∈ (s.cancelInLoop id).trace ↔ id' = id := by
    simp [htrace, (hinternal.not_mem id').2.2.2]
  constructor
  case phase =>
    obtain ⟨rest, hphase, horder⟩ := h.phase
    refine ⟨rest, hphase, ?_⟩
    rw [starts_append, htrace, starts_append, starts_of_internal hinternal]
    simpa [starts] using horder
  case active =>
    intro id'
    have herase : (s.cancelInLoop id).val.Active id' ↔ s.Active id' ∧ id' ≠ id :=
      (hbooks.mem_cancelInLoop id).2 _
    rw [herase, h.active id', List.mem_append, List.mem_append, hcancelled, not_or, and_assoc]
    simp [hadded]
  case canceling =>
    intro e he
    have hmem : e.timer ∈ s.phase.expired.map Entry.timer := by
      rw [h.expired]
      exact List.mem_map_of_mem he
    have hsame : (s.cancelInLoop id).val.queue.active e.timer = s.queue.active e.timer := by
      show TimerQueue.active (s.queue.cancelInLoop (s.lock id) id.sequence).val e.timer = _
      rw [TimerQueue.active, hheap, TimerQueue.active]
    rw [hsame, hbooks.mem_canceling_cancelInLoop hmem, h.canceling e he, List.mem_append,
      hcancelled, h.id_eq he, eq_comm]
  case heap =>
    intro e he
    show (s.queue.cancelInLoop (s.lock id) id.sequence).val.heap e.timer = _
    rw [hheap]
    exact h.heap e he

/-- The next callback of the batch starts. -/
theorem InBatch.run (h : InBatch now batch before es s) (hbooks : Books P s) {it : Entry}
    {rest : List Entry} (hphase : s.phase = .running now batch (it :: rest)) :
    InBatch now batch before (es ++ (s.run now batch it rest).trace)
      (s.run now batch it rest).val := by
  have hit : it ∈ batch := by
    have hsuffix := hbooks.remaining
    rw [hphase] at hsuffix
    exact hsuffix.mem List.mem_cons_self
  constructor
  case phase =>
    obtain ⟨rest', hphase', horder⟩ := h.phase
    obtain ⟨-, -, rfl⟩ := Phase.running.inj (hphase.symm.trans hphase')
    refine ⟨rest, rfl, ?_⟩
    rw [List.map_cons, ← h.id_eq hit] at horder
    simpa [TimerLoop.run, starts] using horder
  case active => simpa [TimerLoop.run, Active] using h.active
  case canceling => simpa [TimerLoop.run] using h.canceling
  case heap => exact h.heap

/-- Every step but `reset` keeps what is known of the batch. -/
theorem InBatch.step (h : InBatch now batch before es s) (hbooks : Books P s) {l : Label}
    (hstep : Step s l es' t) (hreset : l ≠ .reset)
    (hfresh : ∀ timer, l = .addTimerInLoop timer → .cancelled (s.id timer) ∉ es) :
    InBatch now batch before (es ++ es') t := by
  have hcases := step_cases hstep
  obtain ⟨rest, hphase, -⟩ := h.phase
  cases l with
  | addTimer timer when_ interval =>
      obtain ⟨-, hfree, heq⟩ := hcases
      obtain ⟨rfl, rfl⟩ := Traced.mk.inj heq
      refine h.keep rfl rfl rfl (fun e he => ?_) rfl (by simp)
      -- The timers of the batch live, so that the new one has another address.
      refine Function.update_of_ne ?_ _ _
      rintro rfl
      refine hfree (hbooks.mem_owners (Or.inr (Or.inr ?_)))
      rw [h.expired]
      exact List.mem_map_of_mem he
  | addTimerInLoop timer =>
      obtain ⟨-, -, heq⟩ := hcases
      obtain ⟨rfl, rfl⟩ := Traced.mk.inj heq
      exact h.addTimerInLoop (hfresh timer rfl)
  | cancelInLoop id =>
      obtain ⟨-, heq⟩ := hcases
      obtain ⟨rfl, rfl⟩ := Traced.mk.inj heq
      exact h.cancelInLoop hbooks id
  | tick micros =>
      obtain ⟨rfl, rfl⟩ := hcases
      exact h.keep rfl rfl rfl (fun _ _ => rfl) rfl (by simp)
  | expire =>
      obtain ⟨-, rfl, rfl⟩ := hcases
      exact h.keep rfl rfl rfl (fun _ _ => rfl) rfl (by simp)
  | handleRead =>
      obtain ⟨hidle, -⟩ := hcases
      simp [hphase] at hidle
  | getExpired =>
      obtain ⟨now', hentered, -⟩ := hcases
      simp [hphase] at hentered
  | run =>
      obtain ⟨now', batch', it, rest', hphase', heq⟩ := hcases
      obtain ⟨rfl, rfl⟩ := Traced.mk.inj heq
      obtain ⟨rfl, rfl, rfl⟩ := Phase.running.inj (hphase.symm.trans hphase')
      exact h.run hbooks hphase'
  | reset => exact absurd rfl hreset

/-! ## The batch as a whole -/

/-- What `getExpired(now)` returns. -/
def expiredAt (s : TimerLoop) (now : Int) : List Entry :=
  (s.queue.readTimerfd.getExpired now).val.2

/-- The timer of this entry repeats, and no callback has cancelled it. -/
def Rearms (s : TimerLoop) (es : List Event) (e : Entry) : Prop :=
  (s.queue.heap e.timer).repeat = true ∧ .cancelled (s.id e.timer) ∉ es

instance (s : TimerLoop) (es : List Event) (e : Entry) : Decidable (s.Rearms es e) :=
  inferInstanceAs (Decidable (_ ∧ _))

/-- What `handleRead` has done from `getExpired(now)` in state `s` to the end of `reset` in state
`t`, if `es` has shown meanwhile. -/
structure BatchDone (now : Int) (s : TimerLoop) (es : List Event) (t : TimerLoop) : Prop where
  /-- The batch is in order of expiration, and has each timer once. -/
  sorted : (s.expiredAt now).Pairwise fun e e' => e.expiration ≤ e'.expiration
  once : ((s.expiredAt now).map Entry.timer).Nodup
  /-- The callbacks of the batch are run in this order, and no others. -/
  started : starts es = (s.expiredAt now).map fun e => s.id e.timer
  active : ∀ id, t.Active id ↔
    ((s.Active id ∧ ∀ e ∈ s.expiredAt now, s.id e.timer ≠ id) ∨ .added id ∈ es) ∧
        .cancelled id ∉ es ∨
      ∃ e ∈ s.expiredAt now, s.id e.timer = id ∧ s.Rearms es e
  /-- `timers_` holds the active timers under their expirations. -/
  timers : ∀ e, e ∈ t.queue.timers ↔
    t.Active (t.id e.timer) ∧ e.expiration = (t.queue.heap e.timer).expiration
  rearmed : ∀ e ∈ s.expiredAt now, s.Rearms es e → ∀ e', e' ∈ t.queue.timers ∧ e'.timer = e.timer ↔
    e' = Entry.mk (addTime now (s.queue.heap e.timer).interval) e.timer
  dropped : ∀ e ∈ s.expiredAt now, ¬s.Rearms es e →
    (∀ e' ∈ t.queue.timers, e'.timer ≠ e.timer) ∧
      ∀ a ∈ t.queue.activeTimers, a.timer ≠ e.timer

theorem Books.active_iff (h : Books P s) {id : TimerId} :
    s.Active id ↔ id.timer ∈ P ∧ s.id id.timer = id := by
  rw [Active, h.index.actives]
  obtain ⟨p, n⟩ := id
  refine and_congr_right fun _ => ?_
  simp [TimerLoop.id, eq_comm]

/-- The batch is begun. -/
theorem InBatch.start (s : TimerLoop) (now : Int) :
    InBatch now (s.expiredAt now) (s.getExpired now).val (s.getExpired now).trace
      (s.getExpired now).val := by
  have hinternal : Internal (s.getExpired now).trace := by
    simpa [TimerLoop.getExpired] using internal_getExpired s.queue.readTimerfd now
  refine ⟨⟨_, rfl, ?_⟩, fun id => ?_, fun e _ => ?_, fun _ _ => rfl⟩
  · rw [starts_of_internal hinternal]
    rfl
  · simp [hinternal.not_mem]
  · exact iff_of_false (OrderedSet.not_mem_empty _) (hinternal.not_mem _).2.2.2

/-- The entries of the batch are those with a time before `now`. -/
theorem Books.mem_expiredAt (h : Books P s) (now : Int) (e : Entry) :
    e ∈ s.expiredAt now ↔ e ∈ s.queue.timers ∧ e.expiration < now := by
  obtain ⟨-, hmem, -⟩ := (readTimerfd_represents h.index).getExpired now
  rw [expiredAt, hmem, readTimerfd_timers]

theorem heap_getExpired (s : TimerLoop) (now : Int) :
    (s.getExpired now).val.queue.heap = s.queue.heap := by
  obtain ⟨activeTimers, hval⟩ := TimerQueue.getExpired_frame s.queue.readTimerfd now
  simp only [TimerLoop.getExpired, Traced.bind_val, Traced.pure_val, hval, readTimerfd_heap]

theorem id_getExpired (s : TimerLoop) (now : Int) (p : TimerPtr) :
    (s.getExpired now).val.id p = s.id p := by
  rw [TimerLoop.id, heap_getExpired, TimerLoop.id]

/-- `getExpired` leaves the active timers that are not in the batch. -/
theorem Books.active_getExpired (h : Books P s) (now : Int) (id : TimerId) :
    (s.getExpired now).val.Active id ↔
      s.Active id ∧ ∀ e ∈ s.expiredAt now, s.id e.timer ≠ id := by
  rw [(h.getExpired now).1.active_iff, h.active_iff, id_getExpired, Set.mem_sep_iff]
  constructor
  · rintro ⟨⟨hP, hle⟩, hid⟩
    refine ⟨⟨hP, hid⟩, fun e he heq => ?_⟩
    obtain ⟨hentry, hlt⟩ := (h.mem_expiredAt now e).mp he
    have htimer : e.timer = id.timer := congrArg TimerId.timer heq
    rw [((h.index.keys e).mp hentry).2, htimer] at hlt
    omega
  · rintro ⟨⟨hP, hid⟩, hother⟩
    refine ⟨⟨hP, ?_⟩, hid⟩
    by_contra hlt
    refine hother (Entry.mk (s.queue.heap id.timer).expiration id.timer)
      ((h.mem_expiredAt now _).mpr ⟨h.index.mem_timers.mpr hP, ?_⟩) hid
    rw [Entry.expiration_mk]
    omega

/-- `reset` restarts the objects of the timers it puts back, and no others. -/
theorem heap_reset (s : TimerLoop) (now : Int) (expired : List Entry) (p : TimerPtr) :
    (s.reset now expired).val.queue.heap p =
      if s.queue.Restarts p ∧ p ∈ expired.map Entry.timer then (s.queue.heap p).restart now
      else s.queue.heap p := by
  obtain ⟨timerfd, hval⟩ :=
    TimerQueue.reset_frame { s.queue with callingExpiredTimers := false } expired now
  obtain ⟨-, -, -, hheap⟩ :=
    TimerQueue.restartExpired_frame { s.queue with callingExpiredTimers := false } now expired
  show TimerQueue.heap (TimerQueue.reset { s.queue with callingExpiredTimers := false } expired
    now).val p = _
  rw [hval]
  exact hheap p

theorem id_reset (s : TimerLoop) (now : Int) (expired : List Entry) (p : TimerPtr) :
    (s.reset now expired).val.id p = s.id p := by
  rw [TimerLoop.id, TimerLoop.id, heap_reset]
  split_ifs
  · rw [Timer.restart_sequence]
  · rfl

/-- `reset` puts back the timers that rearm. -/
theorem InBatch.reset {u : TimerLoop}
    (h : InBatch now (s.expiredAt now) (s.getExpired now).val es u)
    (hs : Books P s) {P' : Set TimerPtr} (hu : Books P' u)
    (hphase : u.phase = .running now (s.expiredAt now) []) :
    BatchDone now s es (u.reset now (s.expiredAt now)).val := by
  have ht := (hu.reset hphase).1
  have hexpired : u.phase.expired = s.expiredAt now := h.expired
  have hid {e : Entry} (he : e ∈ s.expiredAt now) : u.id e.timer = s.id e.timer :=
    (h.id_eq he).trans (id_getExpired s now e.timer)
  have hheap {e : Entry} (he : e ∈ s.expiredAt now) :
      u.queue.heap e.timer = s.queue.heap e.timer := by
    rw [h.heap e he, heap_getExpired]
  have hrestarts {e : Entry} (he : e ∈ s.expiredAt now) :
      u.queue.Restarts e.timer ↔ s.Rearms es e := by
    rw [TimerQueue.Restarts, Rearms, hheap he, h.canceling e he, id_getExpired]
  have hbatch {p : TimerPtr} : p ∈ (s.expiredAt now).map Entry.timer ↔
      ∃ e ∈ s.expiredAt now, e.timer = p := List.mem_map
  constructor
  case sorted =>
    rw [expiredAt, TimerQueue.getExpired_snd]
    exact (OrderedSet.sorted _).imp fun hlt => Entry.expiration_le hlt.le
  case once => exact hexpired ▸ hu.batchNodup
  case started =>
    obtain ⟨rest, hrest, horder⟩ := h.phase
    obtain ⟨-, -, rfl⟩ := Phase.running.inj (hphase.symm.trans hrest)
    rw [List.map_nil, List.append_nil] at horder
    rw [horder]
    exact List.map_congr_left fun e _ => id_getExpired s now e.timer
  case active =>
    intro id
    have hback : (u.queue.Restarts id.timer ∧ id.timer ∈ (s.expiredAt now).map Entry.timer) ∧
        u.id id.timer = id ↔ ∃ e ∈ s.expiredAt now, s.id e.timer = id ∧ s.Rearms es e := by
      constructor
      · rintro ⟨⟨hrestart, hmem⟩, heq⟩
        obtain ⟨e, he, htimer⟩ := hbatch.mp hmem
        rw [← htimer] at hrestart heq
        exact ⟨e, he, (hid he).symm.trans heq, (hrestarts he).mp hrestart⟩
      · rintro ⟨e, he, rfl, hrearms⟩
        exact ⟨⟨(hrestarts he).mpr hrearms, hbatch.mpr ⟨e, he, rfl⟩⟩, hid he⟩
    rw [ht.active_iff, id_reset, Set.mem_union, Set.mem_ofPred_eq, or_and_right, hback,
      ← hu.active_iff, h.active id, hs.active_getExpired]
  case timers =>
    intro e
    rw [ht.index.keys, ht.active_iff]
    exact and_congr_left fun _ => ⟨fun hmem => ⟨hmem, rfl⟩, fun hmem => hmem.1⟩
  case rearmed =>
    intro e he hrearms e'
    have hrestart := (hrestarts he).mpr hrearms
    have hmem := hbatch.mpr ⟨e, he, rfl⟩
    have hexpiration : ((u.reset now (s.expiredAt now)).val.queue.heap e.timer).expiration =
        addTime now (s.queue.heap e.timer).interval := by
      rw [heap_reset, if_pos ⟨hrestart, hmem⟩, hheap he, Timer.restart, if_pos hrearms.1]
    rw [ht.index.keys, Entry.ext_iff, Entry.expiration_mk, Entry.timer_mk, ← hexpiration]
    constructor
    · rintro ⟨⟨-, hkey⟩, htimer⟩
      exact ⟨by rw [hkey, htimer], htimer⟩
    · rintro ⟨hkey, htimer⟩
      refine ⟨⟨Or.inr ?_, by rw [hkey, htimer]⟩, htimer⟩
      rw [htimer]
      exact ⟨hrestart, hmem⟩
  case dropped =>
    intro e he hdrops
    have hout : e.timer ∉ P' ∪
        {p | u.queue.Restarts p ∧ p ∈ (s.expiredAt now).map Entry.timer} := by
      rintro (hP | ⟨hrestart, -⟩)
      · exact (hu.batch e.timer (hexpired ▸ hbatch.mpr ⟨e, he, rfl⟩)).2 hP
      · exact hdrops ((hrestarts he).mp hrestart)
    exact ⟨fun e' he' htimer => hout (htimer ▸ ((ht.index.keys e').mp he').1),
      fun a ha htimer => hout (htimer ▸ ((ht.index.actives a).mp ha).1)⟩

end TimerLoop

namespace TimerSession

open TimerQueue (Event)
open TimerLoop (Books Known InBatch BatchDone)

variable {s t : TimerSession} {es es' past : List Event}

/-! ## The callbacks of a batch -/

/-- What holds in every reachable state. -/
def Tracked (past : List Event) (s : TimerSession) : Prop :=
  Ordered past s s.queue.queued ∧ ∃ P, Books P s.timers ∧ Known P past s.timers

theorem Tracked.step (h : Tracked past s) {l : Label} (hstep : Step s l es t) :
    Tracked (past ++ es) t := by
  obtain ⟨hordered, P, hbooks, hknown⟩ := h
  refine ⟨hordered.step hbooks hstep, ?_⟩
  rcases step_timers hstep with ⟨l', hbase⟩ | ⟨htimers, rfl⟩
  · obtain ⟨P', hbooks', hknown'⟩ := hknown.step hbooks hbase
    exact ⟨P', hbooks', hknown'⟩
  · rw [htimers, List.append_nil]
    exact ⟨P, hbooks, hknown⟩

theorem tracked_of_run {heap : TimerPtr → Timer} {clock : Nat} {numCreated : Int} {ls : List Label}
    (h : Run Step (start heap clock numCreated) ls past s) : Tracked past s := by
  refine h.history (I := Tracked) [] ⟨⟨.refl _, ?_, BatchQueue.eachAfter_nil⟩, ∅, ?_⟩
    fun _ _ _ _ _ htracked hstep => htracked.step hstep
  · simp [start]
  · exact ⟨.start heap clock numCreated, .start heap clock numCreated⟩

/-- The id of a timer is not issued before its `addTimer` returns. -/
theorem Tracked.fresh (h : Tracked past s) {th : Thread} {timer : TimerPtr}
    (hmem : (th, timer) ∈ s.adding) : s.timers.id timer ∉ s.issued := by
  obtain ⟨hordered, P, hbooks, hknown⟩ := h
  have hmade : timer ∈ s.adding.map Prod.snd := List.mem_map.mpr ⟨_, hmem, rfl⟩
  have hbound : timer ∈ s.timers.bound :=
    hordered.bound.mem_iff.mpr (List.mem_append_left _ hmade)
  intro hissued
  rcases hordered.issued _ hissued with hadded | ⟨p, hp, heq⟩
  · exact (hknown.added _ hadded timer (Or.inr (Or.inl hbound)) rfl).2 hbound
  · -- The add of the timer is not queued as well.
    have hnodup := hordered.bound.nodup hbooks.boundNodup
    have htimer : p = timer := congrArg TimerId.timer heq
    exact (List.nodup_append.mp hnodup).2.2 timer hmade p hp htimer.symm

theorem step_issued {l : Label} (h : Step s l es t) : s.issued ⊆ t.issued := by
  have hcases := step_cases h
  cases l with
  | addTimer th timer when_ interval =>
      obtain ⟨timers, -, rfl⟩ := hcases
      exact List.Subset.refl _
  | returnId th timer =>
      obtain ⟨-, ⟨-, timers, -, rfl⟩ | ⟨-, rfl, rfl⟩⟩ := hcases
      · exact List.subset_cons_self _ _
      · exact List.subset_cons_self _ _
  | cancel th id =>
      obtain ⟨-, ⟨-, timers, -, rfl⟩ | ⟨-, rfl, rfl⟩⟩ := hcases
      · exact List.Subset.refl _
      · exact List.Subset.refl _
  | tick _ | expire | handleRead | getExpired | run | reset =>
      obtain ⟨timers, -, rfl⟩ := hcases
      exact List.Subset.refl _
  | swap | finish =>
      obtain ⟨-, rfl, rfl⟩ := hcases
      exact List.Subset.refl _
  | runFunctor =>
      obtain ⟨f, rest, -, -, timers, -, rfl⟩ := hcases
      exact List.Subset.refl _

/-- The callbacks of `batch` are being run. -/
structure During (now : Int) (batch : List Entry) (before : TimerLoop) (past es : List Event)
    (s : TimerSession) : Prop where
  inBatch : InBatch now batch before es s.timers
  issued : ∀ id, .cancelled id ∈ es → id ∈ s.issued
  tracked : Tracked (past ++ es) s

variable {now : Int} {batch : List Entry} {before : TimerLoop}

theorem During.step (h : During now batch before past es s) {l : Label} (hstep : Step s l es' t)
    (hreset : l ≠ .reset) : During now batch before past (es ++ es') t := by
  obtain ⟨-, P, hbooks, -⟩ := h.tracked
  obtain ⟨rest, hphase, -⟩ := h.inBatch.phase
  have htracked : Tracked (past ++ (es ++ es')) t := by
    rw [← List.append_assoc]
    exact h.tracked.step hstep
  -- Steps of the timers other than adds and cancels.
  have hother {l' : TimerLoop.Label} (hbase : TimerLoop.Step s.timers l' es' t.timers)
      (hl : l' ≠ .reset) (hadd : ∀ timer, l' ≠ .addTimerInLoop timer)
      (hcancel : ∀ id, l' ≠ .cancelInLoop id) : During now batch before past (es ++ es') t := by
    refine ⟨h.inBatch.step hbooks hbase hl fun timer heq => absurd heq (hadd timer), ?_, htracked⟩
    intro id hmem
    rcases List.mem_append.mp hmem with hmem | hmem
    · exact step_issued hstep (h.issued id hmem)
    · exact absurd (TimerLoop.eq_cancelInLoop hbase hmem) (hcancel id)
  -- Steps that leave the timers alone.
  have hidle (htimers : t.timers = s.timers) (hnone : es' = []) :
      During now batch before past (es ++ es') t := by
    subst hnone
    rw [List.append_nil] at htracked ⊢
    exact ⟨htimers ▸ h.inBatch, fun id hmem => step_issued hstep (h.issued id hmem), htracked⟩
  have hcases := step_cases hstep
  cases l with
  | addTimer th timer when_ interval =>
      obtain ⟨timers, hbase, rfl⟩ := hcases
      exact hother hbase (by simp) (by simp) (by simp)
  | returnId th timer =>
      obtain ⟨hmem, ⟨rfl, timers, hbase, rfl⟩ | ⟨-, rfl, rfl⟩⟩ := hcases
      · refine ⟨h.inBatch.step hbooks hbase (by simp [Functor.label]) fun timer' heq => ?_, ?_,
          htracked⟩
        · obtain rfl := TimerLoop.Label.addTimerInLoop.inj heq
          exact fun hcancelled => h.tracked.fresh hmem (h.issued _ hcancelled)
        · intro id hcancelled
          rcases List.mem_append.mp hcancelled with hcancelled | hcancelled
          · exact step_issued hstep (h.issued id hcancelled)
          · exact absurd (TimerLoop.eq_cancelInLoop hbase hcancelled) (by simp [Functor.label])
      · exact hidle rfl rfl
  | cancel th id =>
      obtain ⟨hissued, ⟨rfl, timers, hbase, rfl⟩ | ⟨-, rfl, rfl⟩⟩ := hcases
      · refine ⟨h.inBatch.step hbooks hbase (by simp [Functor.label]) (by simp [Functor.label]), ?_,
          htracked⟩
        intro id' hcancelled
        rcases List.mem_append.mp hcancelled with hcancelled | hcancelled
        · exact step_issued hstep (h.issued id' hcancelled)
        · have heq := TimerLoop.eq_cancelInLoop hbase hcancelled
          rw [← TimerLoop.Label.cancelInLoop.inj heq]
          exact step_issued hstep hissued
      · exact hidle rfl rfl
  | tick _ | expire | handleRead | getExpired | run =>
      obtain ⟨timers, hbase, rfl⟩ := hcases
      exact hother hbase (by simp) (by simp) (by simp)
  | reset => exact absurd rfl hreset
  | swap | finish =>
      obtain ⟨-, rfl, rfl⟩ := hcases
      exact hidle rfl rfl
  | runFunctor =>
      -- The loop thread is in `handleRead`.
      obtain ⟨f, rest', -, hout, -⟩ := hcases
      simp [hphase] at hout

theorem During.run (h : During now batch before past es s) {ls : List Label}
    (hrun : Run Step s ls es' t) (hreset : .reset ∉ ls) :
    During now batch before past (es ++ es') t := by
  induction hrun generalizing es with
  | nil s => simpa using h
  | cons hstep _ ih =>
      rw [← List.append_assoc]
      exact ih (h.step hstep (List.ne_of_not_mem_cons hreset).symm)
        (List.not_mem_of_not_mem_cons hreset)

/-- `handleRead` has taken the time `now`, which the system clock may have set to anything. -/
def enter (s : TimerSession) (now : Int) : TimerSession :=
  { s with timers := { s.timers with phase := .entered now } }

theorem Tracked.enter (h : Tracked past s) (now : Int) : Tracked past (s.enter now) := by
  obtain ⟨hordered, P, hbooks, hknown⟩ := h
  have hlive {p : TimerPtr} (hp : TimerLoop.Live P (s.enter now).timers p) :
      TimerLoop.Live P s.timers p := by
    rcases hp with hp | hp | hp
    · exact Or.inl hp
    · exact Or.inr (Or.inl hp)
    · exact absurd hp List.not_mem_nil
  refine ⟨⟨hordered.bound, hordered.issued, hordered.cancels⟩, P, ?_, ?_⟩
  · exact ⟨hbooks.index, hbooks.null, fun p hp => ⟨(hbooks.bound p hp).1, (hbooks.bound p hp).2.1,
      List.not_mem_nil⟩, hbooks.boundNodup, fun p hp => absurd hp List.not_mem_nil,
      List.nodup_nil, List.suffix_refl _, Or.inr rfl⟩
  · exact ⟨fun p hp => hknown.numbered p (hlive hp), fun p p' hp hp' =>
      hknown.distinct p p' (hlive hp) (hlive hp'), hknown.old, fun id hid p hp =>
      hknown.added id hid p (hlive hp)⟩

/-- `getExpired` begins the batch. -/
theorem Tracked.getExpired (h : Tracked past s) (hphase : s.timers.phase = .entered now)
    (hstep : Step s .getExpired es t) :
    During now (s.timers.expiredAt now) (s.timers.getExpired now).val past es t := by
  have htracked := h.step hstep
  obtain ⟨timers, hbase, rfl⟩ := step_cases hstep
  obtain ⟨now', hentered, heq⟩ := TimerLoop.step_cases hbase
  obtain ⟨rfl, rfl⟩ := Traced.mk.inj heq
  obtain rfl := Phase.entered.inj (hphase.symm.trans hentered)
  refine ⟨.start s.timers now, fun id hmem => ?_, htracked⟩
  exact absurd (TimerLoop.eq_cancelInLoop hbase hmem) (by simp)

/-- `reset` ends it. -/
theorem During.reset {P : Set TimerPtr} {first : TimerLoop}
    (h : During now (first.expiredAt now) (first.getExpired now).val past es s)
    (hbooks : Books P first) (hstep : Step s .reset es' t) :
    BatchDone now first (es ++ es') t.timers := by
  obtain ⟨-, P', hbooks', -⟩ := h.tracked
  obtain ⟨timers, hbase, rfl⟩ := step_cases hstep
  obtain ⟨now', expired, hphase, heq⟩ := TimerLoop.step_cases hbase
  obtain ⟨rfl, rfl⟩ := Traced.mk.inj heq
  obtain ⟨rest, hrunning, -⟩ := h.inBatch.phase
  obtain ⟨rfl, rfl, rfl⟩ := Phase.running.inj (hphase.symm.trans hrunning)
  have hinternal : TimerLoop.Internal (s.timers.reset now' (first.expiredAt now')).trace := by
    simpa [TimerLoop.reset] using TimerLoop.internal_reset _ _ _
  -- What `reset` shows itself does not matter.
  have hend := h.inBatch.keep rfl rfl rfl (fun _ _ => rfl) (TimerLoop.starts_of_internal hinternal)
    fun id => ⟨(hinternal.not_mem id).1, (hinternal.not_mem id).2.2.2⟩
  exact hend.reset hbooks hbooks' hphase

/-- **One batch of timers**: in every reachable state, whatever time `handleRead` has taken and
whatever the callbacks do until `reset`. -/
theorem handleRead_batch {heap : TimerPtr → Timer} {clock : Nat} {numCreated : Int}
    {ls callbacks : List Label} (h : Run Step (start heap clock numCreated) ls past s)
    (hcallbacks : .reset ∉ callbacks)
    (hbatch : Run Step (s.enter now) (.getExpired :: callbacks ++ [.reset]) es t) :
    BatchDone now s.timers es t.timers := by
  have hentered := (tracked_of_run h).enter now
  have ⟨_, P, hbooks, _⟩ := tracked_of_run h
  obtain ⟨u, es₁, es₂, hfirst, hlast, rfl⟩ := hbatch.split
  cases hfirst with
  | cons hgetExpired hrun =>
      cases hlast with
      | cons hreset hnil =>
          cases hnil
          have hbegin :
              During now (s.timers.expiredAt now) (s.timers.getExpired now).val past _ _ :=
            hentered.getExpired rfl hgetExpired
          have hend := hbegin.run hrun hcallbacks
          rw [List.append_nil]
          exact hend.reset hbooks hreset

/-- Two timers expire, the second of which repeats, and a third one waits. -/
def twoExpired : List Label :=
  [.addTimer .loop 8 10 .zero, .returnId .loop 8,
    .addTimer .loop 4 10 ⟨true, 7, fun _ => by decide⟩, .returnId .loop 4,
    .addTimer .loop 6 900 .zero, .returnId .loop 6, .tick 200, .expire]

/-- The first callback cancels the third timer.  The second one cancels its own timer, adds a new
one at the address that became free, and cancels that. -/
def busyCallbacks : List Label :=
  [.run, .cancel .loop ⟨6, 2⟩, .run, .cancel .loop ⟨8, 0⟩, .addTimer .loop 6 900 .zero,
    .returnId .loop 6, .cancel .loop ⟨6, 3⟩]

theorem handleRead_batch_busy :
    ∃ past s es t, Run Step (start (fun _ => ⟨0, .zero, 0⟩) 0 0) twoExpired past s ∧
      Run Step (s.enter 200) (.getExpired :: busyCallbacks ++ [.reset]) es t ∧
      BatchDone 200 s.timers es t.timers := by
  obtain ⟨past, s, hrun, hbatch⟩ : ∃ past s,
      Run Step (start (fun _ => ⟨0, .zero, 0⟩) 0 0) twoExpired past s ∧
        (exec step (s.enter 200) (.getExpired :: busyCallbacks ++ [.reset])).isSome = true :=
    Run.exists_of_exec _ (by decide +kernel)
  obtain ⟨x, hx⟩ := Option.isSome_iff_exists.mp hbatch
  exact ⟨past, s, x.trace, x.val, hrun, .of_exec hx,
    handleRead_batch hrun (by decide) (.of_exec hx)⟩

end TimerSession
end Chaonet
