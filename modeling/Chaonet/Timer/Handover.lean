import Chaonet.Timer.TimerSession

/-!
# Cancelling a timer of another thread

A functor queue keeps the order of its functors, so that a queued cancel is executed after
the add of its timer.  But a cancel by the loop thread is executed at once, and comes too
early if the add is still queued: it finds no timer, and the timer that is added later stays.

`CancelSafe` excludes that case, and the one in which the timer is pending in the batch of
`handleRead`.  In runs of safe steps every cancelled timer is `Gone`
(`cancelFinal_of_cancelSafe`).
-/

namespace Chaonet

open Foundation

namespace TimerLoop

open TimerQueue (Event)

variable {P P' : Set TimerPtr} {s t : TimerLoop} {es past : List Event} {id : TimerId}

/-! ## Timers that are only cancelled in time -/

/-- The indexes stand for one set of timers only. -/
theorem Books.unique (h : Books P s) (h' : Books P' s) : P = P' := by
  ext p
  rw [← h.index.mem_timers, h'.index.mem_timers]

/-- Only `cancelInLoop` shows a cancel. -/
theorem eq_cancelInLoop {l : Label} (h : Step s l es t) (hmem : .cancelled id ∈ es) :
    l = .cancelInLoop id := by
  have hcases := step_cases h
  cases l with
  | addTimer timer when_ interval =>
      obtain ⟨-, -, heq⟩ := hcases
      obtain ⟨-, rfl⟩ := Traced.mk.inj heq
      simp at hmem
  | addTimerInLoop timer =>
      obtain ⟨-, -, heq⟩ := hcases
      obtain ⟨-, rfl⟩ := Traced.mk.inj heq
      have hqueue := (internal_addTimerInLoop s.queue timer).not_mem id
      simp [hqueue.2.2.2] at hmem
  | cancelInLoop id' =>
      obtain ⟨-, heq⟩ := hcases
      obtain ⟨-, rfl⟩ := Traced.mk.inj heq
      have hqueue := (internal_cancelInLoop s.queue (s.lock id') id'.sequence).not_mem id
      have heq : id = id' := by simpa [hqueue.2.2.2] using hmem
      rw [heq]
  | tick micros =>
      obtain ⟨rfl, -⟩ := hcases
      simp at hmem
  | expire =>
      obtain ⟨-, rfl, -⟩ := hcases
      simp at hmem
  | handleRead =>
      obtain ⟨-, rfl, -⟩ := hcases
      simp at hmem
  | getExpired =>
      obtain ⟨now, -, heq⟩ := hcases
      obtain ⟨-, rfl⟩ := Traced.mk.inj heq
      have hqueue := (internal_getExpired s.queue.readTimerfd now).not_mem id
      simp [hqueue.2.2.2] at hmem
  | run =>
      obtain ⟨now, expired, it, rest, -, heq⟩ := hcases
      obtain ⟨-, rfl⟩ := Traced.mk.inj heq
      simp at hmem
  | reset =>
      obtain ⟨now, expired, -, heq⟩ := hcases
      obtain ⟨-, rfl⟩ := Traced.mk.inj heq
      have hqueue :=
        (internal_reset { s.queue with callingExpiredTimers := false } expired now).not_mem id
      simp [hqueue.2.2.2] at hmem

/-- Every timer that was cancelled had been added, and is gone. -/
structure Settled (P : Set TimerPtr) (past : List Event) (s : TimerLoop) : Prop where
  books : Books P s
  known : Known P past s
  gone : ∀ id, .cancelled id ∈ past → .added id ∈ past ∧ Gone id P s

theorem Settled.step (h : Settled P past s) {l : Label}
    (hcancel : ∀ id, l = .cancelInLoop id → .added id ∈ past ∧ ¬s.Pending id)
    (hstep : Step s l es t) : ∃ P', Settled P' (past ++ es) t := by
  obtain ⟨P', hbooks, hknown⟩ := h.known.step h.books hstep
  refine ⟨P', hbooks, hknown, fun id hmem => ?_⟩
  rcases List.mem_append.mp hmem with hold | hnew
  · obtain ⟨hadded, hgone⟩ := h.gone id hold
    obtain ⟨⟨P'', hbooks', hgone'⟩, -⟩ := hgone.step h.books hstep
    exact ⟨List.mem_append_left _ hadded, hbooks'.unique hbooks ▸ hgone'⟩
  · obtain rfl := eq_cancelInLoop hstep hnew
    obtain ⟨hadded, hpending⟩ := hcancel id rfl
    obtain ⟨-, heq⟩ := step_cases hstep
    obtain ⟨rfl, rfl⟩ := Traced.mk.inj heq
    have hgone := gone_of_cancelInLoop h.known h.books hadded hpending
    exact ⟨List.mem_append_left _ hadded, (h.books.cancelInLoop id).1.unique hbooks ▸ hgone⟩

theorem step_bound {l : Label} (h : Step s l es t) :
    t.bound = match l with
      | .addTimer timer _ _ => s.bound ++ [timer]
      | .addTimerInLoop timer => s.bound.erase timer
      | _ => s.bound := by
  have hcases := step_cases h
  cases l with
  | addTimer timer when_ interval =>
      obtain ⟨-, -, heq⟩ := hcases
      obtain ⟨rfl, -⟩ := Traced.mk.inj heq
      rfl
  | addTimerInLoop timer =>
      obtain ⟨-, -, heq⟩ := hcases
      obtain ⟨rfl, -⟩ := Traced.mk.inj heq
      rfl
  | cancelInLoop id =>
      obtain ⟨-, heq⟩ := hcases
      obtain ⟨rfl, -⟩ := Traced.mk.inj heq
      rfl
  | tick micros =>
      obtain ⟨-, rfl⟩ := hcases
      rfl
  | expire =>
      obtain ⟨-, -, rfl⟩ := hcases
      rfl
  | handleRead =>
      obtain ⟨-, -, rfl⟩ := hcases
      rfl
  | getExpired =>
      obtain ⟨now, -, heq⟩ := hcases
      obtain ⟨rfl, -⟩ := Traced.mk.inj heq
      rfl
  | run =>
      obtain ⟨now, expired, it, rest, -, heq⟩ := hcases
      obtain ⟨rfl, -⟩ := Traced.mk.inj heq
      rfl
  | reset =>
      obtain ⟨now, expired, -, heq⟩ := hcases
      obtain ⟨rfl, -⟩ := Traced.mk.inj heq
      rfl

/-- The id of a timer that waits to be added does not change. -/
theorem Books.id_eq (h : Books P s) {l : Label} (hstep : Step s l es t) {p : TimerPtr}
    (hp : p ∈ s.bound) : t.id p = s.id p := by
  suffices hsequence : t.sequence p = s.sequence p from congrArg (TimerId.mk p) hsequence
  cases h.change hstep with
  | made timer when_ interval _ hfresh =>
      have hne : p ≠ timer := by
        rintro rfl
        exact hfresh (h.mem_owners (Or.inr (Or.inl hp)))
      simp [TimerLoop.addTimer, sequence, hne]
  | added timer _ => simp [TimerLoop.addTimerInLoop, sequence, TimerQueue.addTimerInLoop_frame]
  | other _ hshrinks _ _ => exact hshrinks.sequence p

theorem mem_added {timer : TimerPtr} (h : Step s (.addTimerInLoop timer) es t) :
    .added (s.id timer) ∈ es := by
  obtain ⟨-, -, heq⟩ := step_cases h
  obtain ⟨-, rfl⟩ := Traced.mk.inj heq
  simp [TimerLoop.id]

end TimerLoop

namespace TimerSession

open TimerQueue (Event)
open TimerLoop (Books Gone Settled)

variable {s t : TimerSession} {es past : List Event} {id : TimerId} {fs : List Functor}
  {P : Set TimerPtr}

/-! ## The order of the functors -/

/-- The timers whose add is among the functors. -/
def adds (fs : List Functor) : List TimerPtr :=
  fs.filterMap fun
    | .addTimerInLoop timer => some timer
    | .cancelInLoop _ => none

@[simp] theorem adds_append (fs fs' : List Functor) : adds (fs ++ fs') = adds fs ++ adds fs' :=
  List.filterMap_append

@[simp] theorem adds_cons_addTimerInLoop (timer : TimerPtr) (fs : List Functor) :
    adds (.addTimerInLoop timer :: fs) = timer :: adds fs := rfl

@[simp] theorem adds_cons_cancelInLoop (id : TimerId) (fs : List Functor) :
    adds (.cancelInLoop id :: fs) = adds fs := rfl

/-- The add of the timer has been executed, or is among the functors. -/
def Added (past : List Event) (timers : TimerLoop) (fs : List Functor) (id : TimerId) : Prop :=
  .added id ∈ past ∨ ∃ p ∈ adds fs, timers.id p = id

/-- A cancel comes after the add of its timer. -/
def AfterAdd (past : List Event) (timers : TimerLoop) (before : List Functor) (f : Functor) :
    Prop :=
  ∀ id, f = .cancelInLoop id → Added past timers before id

/-- What holds while `fs` are the functors still to be executed. -/
structure Ordered (past : List Event) (s : TimerSession) (fs : List Functor) : Prop where
  bound : s.timers.bound.Perm (s.adding.map Prod.snd ++ adds fs)
  issued : ∀ id ∈ s.issued, Added past s.timers fs id
  cancels : BatchQueue.EachAfter (AfterAdd past s.timers) fs

theorem Ordered.mem_bound (h : Ordered past s fs) {p : TimerPtr} (hp : p ∈ adds fs) :
    p ∈ s.timers.bound :=
  h.bound.mem_iff.mpr (List.mem_append_right _ hp)

theorem Added.push (h : Added past s.timers fs id) (f : Functor) :
    Added past s.timers (fs ++ [f]) id := by
  rcases h with hadded | ⟨p, hp, hid⟩
  · exact Or.inl hadded
  · refine Or.inr ⟨p, ?_, hid⟩
    rw [adds_append]
    exact List.mem_append_left _ hp

/-- A step of the timers does not change which adds are waiting. -/
theorem Added.step (h : Added past s.timers fs id) (hbooks : Books P s.timers)
    (hbound : ∀ p ∈ adds fs, p ∈ s.timers.bound) {l : TimerLoop.Label} {timers : TimerLoop}
    (hstep : TimerLoop.Step s.timers l es timers) : Added (past ++ es) timers fs id := by
  rcases h with hadded | ⟨p, hp, rfl⟩
  · exact Or.inl (List.mem_append_left _ hadded)
  · exact Or.inr ⟨p, hp, hbooks.id_eq hstep (hbound p hp)⟩

/-- An add that is executed does not have to be waited for. -/
theorem Added.execute {timer : TimerPtr} (h : Added past s.timers (.addTimerInLoop timer :: fs) id)
    (hbooks : Books P s.timers) (hbound : ∀ p ∈ adds fs, p ∈ s.timers.bound) {timers : TimerLoop}
    (hstep : TimerLoop.Step s.timers (.addTimerInLoop timer) es timers) :
    Added (past ++ es) timers fs id := by
  rcases h with hadded | ⟨p, hp, rfl⟩
  · exact Or.inl (List.mem_append_left _ hadded)
  · rcases List.mem_cons.mp hp with rfl | hp
    · exact Or.inl (List.mem_append_right _ (TimerLoop.mem_added hstep))
    · exact Or.inr ⟨p, hp, hbooks.id_eq hstep (hbound p hp)⟩

theorem adds_subset {before : List Functor} (h : before <+: fs) {p : TimerPtr}
    (hp : p ∈ adds before) : p ∈ adds fs :=
  (h.sublist.filterMap _).subset hp

/-- Steps of the timers that neither make a timer nor add one. -/
theorem Ordered.keep (h : Ordered past s fs) (hbooks : Books P s.timers) {l : TimerLoop.Label}
    {timers : TimerLoop} (hstep : TimerLoop.Step s.timers l es timers)
    (hsame : timers.bound = s.timers.bound) : Ordered (past ++ es) { s with timers } fs := by
  constructor
  case bound =>
    show timers.bound.Perm _
    rw [hsame]
    exact h.bound
  case issued =>
    intro id hid
    exact (h.issued id hid).step hbooks (fun p hp => h.mem_bound hp) hstep
  case cancels =>
    refine h.cancels.mono fun before f hbefore hf id hid => ?_
    exact (hf id hid).step hbooks (fun p hp => h.mem_bound (adds_subset hbefore hp)) hstep

/-- How the functors are stored does not matter. -/
theorem Ordered.requeue (h : Ordered past s fs) (queue : BatchQueue Functor) :
    Ordered past { s with queue } fs :=
  ⟨h.bound, h.issued, h.cancels⟩

/-- A thread makes a timer. -/
theorem Ordered.addTimer (h : Ordered past s fs) (hbooks : Books P s.timers) {th : Thread}
    {timer : TimerPtr} {when_ : Int} {interval : Interval} {timers : TimerLoop}
    (hstep : TimerLoop.Step s.timers (.addTimer timer when_ interval) es timers) :
    Ordered (past ++ es) { s with timers, adding := (th, timer) :: s.adding } fs := by
  constructor
  case bound =>
    show timers.bound.Perm (timer :: (s.adding.map Prod.snd ++ adds fs))
    rw [TimerLoop.step_bound hstep]
    exact (List.perm_append_singleton timer s.timers.bound).trans (h.bound.cons timer)
  case issued =>
    intro id hid
    exact (h.issued id hid).step hbooks (fun p hp => h.mem_bound hp) hstep
  case cancels =>
    refine h.cancels.mono fun before f hbefore hf id hid => ?_
    exact (hf id hid).step hbooks (fun p hp => h.mem_bound (adds_subset hbefore hp)) hstep

/-- The timers that wait to be added, after one thread is done with its `addTimer`. -/
theorem Ordered.made (h : Ordered past s fs) {th : Thread} {timer : TimerPtr}
    (hmem : (th, timer) ∈ s.adding) :
    s.timers.bound.Perm (timer :: ((s.adding.erase (th, timer)).map Prod.snd ++ adds fs)) := by
  have hmade : (s.adding.map Prod.snd).Perm
      (timer :: (s.adding.erase (th, timer)).map Prod.snd) :=
    (List.perm_cons_erase hmem).map Prod.snd
  exact h.bound.trans (hmade.append_right (adds fs))

/-- Another thread queues the add of its timer. -/
theorem Ordered.queueAdd (h : Ordered past s fs) {th : Thread} {timer : TimerPtr}
    (hmem : (th, timer) ∈ s.adding) :
    Ordered past
      { s with
        adding := s.adding.erase (th, timer)
        issued := s.timers.id timer :: s.issued }
      (fs ++ [.addTimerInLoop timer]) := by
  constructor
  case bound =>
    show s.timers.bound.Perm ((s.adding.erase (th, timer)).map Prod.snd ++ _)
    rw [adds_append, ← List.append_assoc]
    exact (h.made hmem).trans (List.perm_append_singleton timer _).symm
  case issued =>
    intro id hid
    rcases List.mem_cons.mp hid with rfl | hid
    · exact Or.inr ⟨timer, by simp, rfl⟩
    · exact (h.issued id hid).push _
  case cancels => exact h.cancels.push fun id hid => by simp at hid

/-- Another thread queues a cancel. -/
theorem Ordered.queueCancel (h : Ordered past s fs) (hid : id ∈ s.issued) :
    Ordered past s (fs ++ [.cancelInLoop id]) := by
  constructor
  case bound =>
    rw [adds_append, adds_cons_cancelInLoop]
    simpa [adds] using h.bound
  case issued => exact fun id' hid' => (h.issued id' hid').push _
  case cancels =>
    refine h.cancels.push fun id' heq => ?_
    obtain rfl := Functor.cancelInLoop.inj heq
    exact h.issued _ hid

/-- The loop thread executes the add of its own timer, which is not queued. -/
theorem Ordered.addInLoop (h : Ordered past s fs) (hbooks : Books P s.timers) {th : Thread}
    {timer : TimerPtr} (hmem : (th, timer) ∈ s.adding) {timers : TimerLoop}
    (hstep : TimerLoop.Step s.timers (.addTimerInLoop timer) es timers) :
    Ordered (past ++ es)
      { s with
        timers
        adding := s.adding.erase (th, timer)
        issued := s.timers.id timer :: s.issued } fs := by
  constructor
  case bound =>
    show timers.bound.Perm _
    rw [TimerLoop.step_bound hstep]
    simpa using (h.made hmem).erase timer
  case issued =>
    intro id hid
    rcases List.mem_cons.mp hid with rfl | hid
    · exact Or.inl (List.mem_append_right _ (TimerLoop.mem_added hstep))
    · exact (h.issued id hid).step hbooks (fun p hp => h.mem_bound hp) hstep
  case cancels =>
    refine h.cancels.mono fun before f hbefore hf id hid => ?_
    exact (hf id hid).step hbooks (fun p hp => h.mem_bound (adds_subset hbefore hp)) hstep

/-- The next functor is an add. -/
theorem Ordered.executeAdd {timer : TimerPtr} (h : Ordered past s (.addTimerInLoop timer :: fs))
    (hbooks : Books P s.timers) {timers : TimerLoop}
    (hstep : TimerLoop.Step s.timers (.addTimerInLoop timer) es timers) :
    Ordered (past ++ es) { s with timers } fs := by
  have hbound {p : TimerPtr} (hp : p ∈ adds fs) : p ∈ s.timers.bound :=
    h.mem_bound (List.mem_cons_of_mem timer hp)
  constructor
  case bound =>
    show timers.bound.Perm _
    rw [TimerLoop.step_bound hstep]
    have hfront : s.timers.bound.Perm (timer :: (s.adding.map Prod.snd ++ adds fs)) :=
      h.bound.trans List.perm_middle
    simpa using hfront.erase timer
  case issued =>
    intro id hid
    exact (h.issued id hid).execute hbooks (fun p hp => hbound hp) hstep
  case cancels =>
    refine h.cancels.tail.mono fun before f hbefore hf id hid => ?_
    exact (hf id hid).execute hbooks (fun p hp => hbound (adds_subset hbefore hp)) hstep

/-- The next functor is a cancel; its timer has been added. -/
theorem Ordered.executeCancel (h : Ordered past s (.cancelInLoop id :: fs)) :
    Ordered past s fs ∧ .added id ∈ past := by
  refine ⟨⟨h.bound, h.issued, h.cancels.tail⟩, ?_⟩
  rcases h.cancels.head id rfl with hadded | ⟨p, hp, -⟩
  · exact hadded
  · exact absurd hp List.not_mem_nil

/-- Every step keeps the order of the functors. -/
theorem Ordered.step (h : Ordered past s s.queue.queued) (hbooks : Books P s.timers) {l : Label}
    (hstep : Step s l es t) : Ordered (past ++ es) t t.queue.queued := by
  have hcases := step_cases hstep
  cases l with
  | addTimer th timer when_ interval =>
      obtain ⟨timers, hmake, rfl⟩ := hcases
      exact h.addTimer hbooks hmake
  | returnId th timer =>
      obtain ⟨hmem, ⟨rfl, timers, hadd, rfl⟩ | ⟨-, rfl, rfl⟩⟩ := hcases
      · -- The add of the loop thread overtakes the queue, where no cancel waits for it.
        exact h.addInLoop hbooks hmem hadd
      · rw [List.append_nil, BatchQueue.queued_push]
        exact (h.queueAdd hmem).requeue _
  | cancel th id =>
      obtain ⟨hissued, ⟨rfl, timers, hcancel, rfl⟩ | ⟨-, rfl, rfl⟩⟩ := hcases
      · exact h.keep hbooks hcancel (TimerLoop.step_bound hcancel)
      · rw [List.append_nil, BatchQueue.queued_push]
        exact (h.queueCancel hissued).requeue _
  | tick _ | expire | handleRead | getExpired | run | reset =>
      obtain ⟨timers, hbase, rfl⟩ := hcases
      exact h.keep hbooks hbase (TimerLoop.step_bound hbase)
  | swap =>
      obtain ⟨hbatch, rfl, rfl⟩ := hcases
      rw [List.append_nil, BatchQueue.queued_swap hbatch]
      exact h.requeue _
  | runFunctor =>
      obtain ⟨f, rest, hbatch, -, timers, hbase, rfl⟩ := hcases
      rw [BatchQueue.queued_proceed hbatch] at h
      cases f with
      | addTimerInLoop timer => exact (h.executeAdd hbooks hbase).requeue _
      | cancelInLoop id =>
          exact (h.executeCancel.1.keep hbooks hbase (TimerLoop.step_bound hbase)).requeue _
  | finish =>
      obtain ⟨hbatch, rfl, rfl⟩ := hcases
      rw [List.append_nil, BatchQueue.queued_finish hbatch]
      exact h.requeue _

/-! ## Runs of safe steps -/

/-- What has to hold of a cancel by the loop thread: the add of its timer is not queued any
more, and the timer is not pending in the batch of `handleRead`. -/
def CancelSafe (s : TimerSession) : Label → Prop
  | .cancel .loop id => (∀ p ∈ adds s.queue.queued, s.timers.id p ≠ id) ∧ ¬s.timers.Pending id
  | _ => True

instance (s : TimerSession) : ∀ l, Decidable (s.CancelSafe l)
  | .cancel .loop _ => inferInstanceAs (Decidable (_ ∧ _))
  | .cancel (.other _) _ | .addTimer .. | .returnId .. | .tick _ | .expire | .handleRead
  | .getExpired | .run | .reset | .swap | .runFunctor | .finish => .isTrue trivial

/-- The invariant of safe steps. -/
def Consistent (past : List Event) (s : TimerSession) : Prop :=
  Ordered past s s.queue.queued ∧ ∃ P, Settled P past s.timers

theorem Consistent.step (h : Consistent past s) {l : Label} (hsafe : s.CancelSafe l)
    (hstep : Step s l es t) : Consistent (past ++ es) t := by
  obtain ⟨hordered, P, hsettled⟩ := h
  refine ⟨hordered.step hsettled.books hstep, ?_⟩
  have hcases := step_cases hstep
  cases l with
  | addTimer th timer when_ interval =>
      obtain ⟨timers, hmake, rfl⟩ := hcases
      exact hsettled.step (by simp) hmake
  | returnId th timer =>
      obtain ⟨-, ⟨rfl, timers, hadd, rfl⟩ | ⟨-, rfl, rfl⟩⟩ := hcases
      · exact hsettled.step (by simp [Functor.label]) hadd
      · rw [List.append_nil]
        exact ⟨P, hsettled⟩
  | cancel th id =>
      obtain ⟨hissued, ⟨rfl, timers, hcancel, rfl⟩ | ⟨-, rfl, rfl⟩⟩ := hcases
      · -- The cancel of the loop thread overtakes the queue, but not its own add.
        obtain ⟨hqueued, hpending⟩ := hsafe
        have hadded : .added id ∈ past := by
          rcases hordered.issued id hissued with hadded | ⟨p, hp, hid⟩
          · exact hadded
          · exact absurd hid (hqueued p hp)
        refine hsettled.step (fun id' heq => ?_) hcancel
        obtain rfl := TimerLoop.Label.cancelInLoop.inj heq
        exact ⟨hadded, hpending⟩
      · rw [List.append_nil]
        exact ⟨P, hsettled⟩
  | tick _ | expire | handleRead | getExpired | run | reset =>
      obtain ⟨timers, hbase, rfl⟩ := hcases
      exact hsettled.step (by simp) hbase
  | runFunctor =>
      obtain ⟨f, rest, hbatch, hidle, timers, hbase, rfl⟩ := hcases
      rw [BatchQueue.queued_proceed hbatch] at hordered
      cases f with
      | addTimerInLoop timer => exact hsettled.step (by simp [Functor.label]) hbase
      | cancelInLoop id =>
          refine hsettled.step (fun id' heq => ?_) hbase
          obtain rfl := TimerLoop.Label.cancelInLoop.inj heq
          -- No batch is being run while functors are.
          refine ⟨hordered.executeCancel.2, ?_⟩
          rintro ⟨e, he, -⟩
          have hidle : s.timers.phase = .idle := hidle
          simp [hidle, Phase.remaining] at he
  | swap | finish =>
      obtain ⟨-, rfl, rfl⟩ := hcases
      rw [List.append_nil]
      exact ⟨P, hsettled⟩

theorem Consistent.start (heap : TimerPtr → Timer) (clock : Nat) (numCreated : Int) :
    Consistent [] (start heap clock numCreated) := by
  refine ⟨⟨List.Perm.refl _, by simp [TimerSession.start], BatchQueue.eachAfter_nil⟩, ∅, ?_⟩
  exact ⟨TimerLoop.Books.start heap clock numCreated, TimerLoop.Known.start heap clock numCreated,
    by simp⟩

/-- Once the add and the cancel of a timer have both been executed, the timer is in no
index, and its callback is not started any more. -/
def CancelFinal (es : List Event) (s : TimerSession) : Prop :=
  ∀ id, .added id ∈ es → .cancelled id ∈ es →
    (∀ e ∈ s.timers.queue.timers, s.timers.id e.timer ≠ id) ∧
    (∀ a ∈ s.timers.queue.activeTimers, TimerId.mk a.timer a.sequence ≠ id) ∧
    ∀ ls es' t, Run Step s ls es' t → .started id ∉ es'

theorem Consistent.cancelFinal (h : Consistent es s) : CancelFinal es s := by
  obtain ⟨-, P, hsettled⟩ := h
  intro id _ hcancelled
  obtain ⟨-, hgone⟩ := hsettled.gone id hcancelled
  refine ⟨fun e he hid => ?_, fun a ha hid => ?_, fun ls es' t hrun => ?_⟩
  · have hP := ((hsettled.books.index.keys e).mp he).1
    exact hgone.index e.timer hP (congrArg TimerId.sequence hid)
  · obtain ⟨hP, hkey⟩ := (hsettled.books.index.actives a).mp ha
    exact hgone.index a.timer hP (hkey.symm.trans (congrArg TimerId.sequence hid))
  · obtain ⟨ls', hbase⟩ := timers_run hrun
    exact (hgone.run hsettled.books hbase).2

/-- **A cancel is not overtaken by its own add**, in runs that take only safe steps. -/
theorem cancelFinal_of_cancelSafe {heap : TimerPtr → Timer} {clock : Nat} {numCreated : Int}
    {ls : List Label} (h : Run (restrict CancelSafe Step) (start heap clock numCreated) ls es s) :
    CancelFinal es s := by
  have hconsistent := h.history (I := Consistent) [] (Consistent.start heap clock numCreated)
    (fun _ _ _ _ _ hpast ⟨hsafe, hstep⟩ => hpast.step hsafe hstep)
  exact Consistent.cancelFinal hconsistent

/-- One thread makes a timer and hands its id to a second thread, which cancels the timer
before the loop thread has added it. -/
def handedOver : List Label :=
  [.addTimer (.other 1) 8 10 .zero, .returnId (.other 1) 8, .cancel (.other 2) ⟨8, 0⟩, .swap,
    .runFunctor, .runFunctor, .finish]

theorem cancelFinal_of_cancelSafe_handedOver :
    ∃ es s, Run (restrict CancelSafe Step) (start (fun _ => ⟨0, .zero, 0⟩) 0 0) handedOver es s ∧
      .added ⟨8, 0⟩ ∈ es ∧ .cancelled ⟨8, 0⟩ ∈ es ∧ CancelFinal es s := by
  obtain ⟨es, s, hrun, hadded, hcancelled⟩ : ∃ es s,
      Run (restrict CancelSafe Step) (start (fun _ => ⟨0, .zero, 0⟩) 0 0) handedOver es s ∧
        .added ⟨8, 0⟩ ∈ es ∧ .cancelled ⟨8, 0⟩ ∈ es :=
    Run.exists_of_exec_guarded (fun es _ => Event.added ⟨8, 0⟩ ∈ es ∧ Event.cancelled ⟨8, 0⟩ ∈ es)
      (by decide +kernel)
  exact ⟨es, s, hrun, hadded, hcancelled, cancelFinal_of_cancelSafe hrun⟩

/-- One thread makes a timer and hands its id to the loop thread, which cancels the timer at
once and only then executes the add. -/
def overtaken : List Label :=
  [.addTimer (.other 1) 8 10 .zero, .returnId (.other 1) 8, .cancel .loop ⟨8, 0⟩, .swap,
    .runFunctor, .finish]

/-- The timer expires and its callback is started. -/
def fired : List Label := [.tick 200, .expire, .handleRead, .getExpired, .run]

/-- The cancelled timer is in the indexes afterwards, and its callback is started. -/
theorem not_cancelFinal_overtaken :
    ∃ es s es' t, Run Step (start (fun _ => ⟨0, .zero, 0⟩) 0 0) overtaken es s ∧
      Entry.mk 10 8 ∈ s.timers.queue.timers ∧ Run Step s fired es' t ∧ .started ⟨8, 0⟩ ∈ es' ∧
      ¬CancelFinal es s := by
  obtain ⟨es, s, hrun, hadded, hcancelled, hmem, hfires⟩ : ∃ es s,
      Run Step (start (fun _ => ⟨0, .zero, 0⟩) 0 0) overtaken es s ∧
        Event.added ⟨8, 0⟩ ∈ es ∧ Event.cancelled ⟨8, 0⟩ ∈ es ∧
        Entry.mk 10 8 ∈ s.timers.queue.timers ∧
        (exec step s fired).any (fun x => Event.started ⟨8, 0⟩ ∈ x.trace) = true :=
    Run.exists_of_exec _ (by decide +kernel)
  obtain ⟨es', t, hrun', hstarted⟩ : ∃ es' t, Run Step s fired es' t ∧ .started ⟨8, 0⟩ ∈ es' :=
    Run.exists_of_exec _ hfires
  refine ⟨es, s, es', t, hrun, hmem, hrun', hstarted, fun hfinal => ?_⟩
  obtain ⟨-, -, hnever⟩ := hfinal ⟨8, 0⟩ hadded hcancelled
  exact hnever fired es' t hrun' hstarted

end TimerSession
end Chaonet
