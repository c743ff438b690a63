import Chaonet.Reactor.EventLoop

/-!
# Event loop threads

`EventLoopThread` embeds the class of the same name: its owner calls `startLoop()` and
later destroys the object, and the thread it starts constructs a loop, publishes its
address in `loop_` and calls `loop()`.  The owner's `quit()` stores `quit_` and then writes
to the eventfd, as in `EventLoop`.  Other threads and the functors of the loop may queue
functors at any time.

`startLoop()` returns as soon as the address is published, but `loop()` starts by clearing
`quit_`.  A `quit()` that comes in between is lost (`quit_not_lost_iff`).
-/

namespace Chaonet

open Foundation

namespace EventLoopThread

/-- What the owner has done. -/
inductive Owner
  | constructed
  /-- In `startLoop()`, waiting for `loop_`. -/
  | starting
  | started
  /-- In the destructor, between the two steps of `loop_->quit()`. -/
  | quitting
  /-- `quit()` has returned, and the destructor joins the thread. -/
  | joining
  | joined
deriving DecidableEq, Repr

/-- Where `threadFunc` is. -/
inductive ThreadFunc
  | notStarted
  /-- Before `EventLoop loop;`. -/
  | entered
  | constructed
  /-- `loop_` holds the address of the loop. -/
  | published
  /-- In `loop.loop()`. -/
  | looping
  | returned
deriving DecidableEq, Repr

/-- The owner's thread, as the loop sees it. -/
def ownerThread : Thread := .other 0

inductive Label (α : Type)
  /-- `thread_.start()` in `startLoop()`. -/
  | startLoop
  /-- `EventLoop loop;` in `threadFunc`. -/
  | construct
  /-- `loop_ = &loop` and `cond_.notify_one()`. -/
  | publish
  /-- `startLoop()` finds `loop_` set and returns it. -/
  | startLoopReturns
  /-- The destructor calls `loop_->quit()`, which stores `quit_`. -/
  | quit
  /-- `quit()` writes to the eventfd and returns. -/
  | quitReturns
  | join
  /-- `loop.loop()` is entered. -/
  | loop
  /-- A step inside `loop()`, or of a thread that queues a functor. -/
  | inside (l : EventLoop.Label α)
  /-- `loop()` has returned, and `threadFunc` returns. -/
  | threadReturns
deriving DecidableEq, Repr

/-- The steps of the loop that are none of the owner's and do not call `loop()` or `quit()`. -/
def Inside {α : Type} : EventLoop.Label α → Prop
  | .loop | .quit _ | .quitWakeup _ => False
  | _ => True

instance {α : Type} : ∀ l : EventLoop.Label α, Decidable (Inside l)
  | .loop | .quit _ | .quitWakeup _ => .isFalse id
  | .queueInLoop _ _ | .wakeup _ | .test | .poll _ | .handleWakeup | .swap | .run | .finish =>
      .isTrue trivial

end EventLoopThread

structure EventLoopThread (α : Type) where
  owner : EventLoopThread.Owner
  threadFunc : EventLoopThread.ThreadFunc
  /-- The local `loop` of `threadFunc`, from its construction on. -/
  loop : EventLoop α
deriving DecidableEq, Repr

namespace EventLoopThread

open EventLoop (Event)

variable {α : Type}

/-- Let the loop take a step. -/
def perform (s : EventLoopThread α) (l : EventLoop.Label α) :
    Option (Traced (Event α) (EventLoopThread α)) :=
  (s.loop.step l).map fun x => ⟨{ s with loop := x.val }, x.trace⟩

/-- The enabled steps. -/
def step (s : EventLoopThread α) : Label α → Option (Traced (Event α) (EventLoopThread α))
  | .startLoop =>
      if s.owner = .constructed then
        some (pure { s with owner := .starting, threadFunc := .entered })
      else none
  | .construct =>
      if s.threadFunc = .entered then
        some (pure { s with threadFunc := .constructed, loop := .create })
      else none
  | .publish =>
      if s.threadFunc = .constructed then some (pure { s with threadFunc := .published }) else none
  | .startLoopReturns =>
      if s.owner = .starting ∧
          (s.threadFunc = .published ∨ s.threadFunc = .looping ∨ s.threadFunc = .returned) then
        some (pure { s with owner := .started })
      else none
  | .quit =>
      if s.owner = .started then { s with owner := .quitting }.perform (.quit ownerThread) else none
  | .quitReturns =>
      if s.owner = .quitting then { s with owner := .joining }.perform (.quitWakeup ownerThread)
      else none
  | .join =>
      if s.owner = .joining ∧ s.threadFunc = .returned then some (pure { s with owner := .joined })
      else none
  | .loop =>
      if s.threadFunc = .published then { s with threadFunc := .looping }.perform .loop else none
  | .inside l =>
      if Inside l ∧ (s.threadFunc = .published ∨ s.threadFunc = .looping) then s.perform l
      else none
  | .threadReturns =>
      if s.threadFunc = .looping ∧ s.loop.phase = .outside then
        some (pure { s with threadFunc := .returned })
      else none

def Step : EventLoopThread α → Label α → List (Event α) → EventLoopThread α → Prop := stepOf step

/-- `EventLoopThread()`. -/
def create : EventLoopThread α := ⟨.constructed, .notStarted, .create⟩

variable {s t : EventLoopThread α} {es : List (Event α)}

/-- What `perform` comes to. -/
def Performs (s : EventLoopThread α) (l : EventLoop.Label α) (es : List (Event α))
    (t : EventLoopThread α) : Prop :=
  ∃ loop, EventLoop.Step s.loop l es loop ∧ t = { s with loop }

theorem performs_of_eq {l : EventLoop.Label α} (h : s.perform l = some ⟨t, es⟩) :
    s.Performs l es t := by
  obtain ⟨x, hx, heq⟩ := Option.map_eq_some_iff.mp h
  obtain ⟨rfl, rfl⟩ := Traced.mk.inj heq
  exact ⟨x.val, hx, rfl⟩

/-- What each step does, as one proposition. -/
theorem step_cases {l : Label α} (h : Step s l es t) :
    match l with
    | .startLoop => s.owner = .constructed ∧
        t = { s with owner := .starting, threadFunc := .entered }
    | .construct => s.threadFunc = .entered ∧
        t = { s with threadFunc := .constructed, loop := .create }
    | .publish => s.threadFunc = .constructed ∧ t = { s with threadFunc := .published }
    | .startLoopReturns => s.owner = .starting ∧
        (s.threadFunc = .published ∨ s.threadFunc = .looping ∨ s.threadFunc = .returned) ∧
        t = { s with owner := .started }
    | .quit => s.owner = .started ∧
        { s with owner := .quitting }.Performs (.quit ownerThread) es t
    | .quitReturns => s.owner = .quitting ∧
        { s with owner := .joining }.Performs (.quitWakeup ownerThread) es t
    | .join => s.owner = .joining ∧ s.threadFunc = .returned ∧ t = { s with owner := .joined }
    | .loop => s.threadFunc = .published ∧ { s with threadFunc := .looping }.Performs .loop es t
    | .inside l => Inside l ∧ (s.threadFunc = .published ∨ s.threadFunc = .looping) ∧
        s.Performs l es t
    | .threadReturns => s.threadFunc = .looping ∧ s.loop.phase = .outside ∧
        t = { s with threadFunc := .returned } := by
  cases l with
  | startLoop =>
      simp only [Step, stepOf, step] at h
      split_ifs at h with hguard
      obtain ⟨rfl, -⟩ := Traced.mk.inj (Option.some.inj h)
      exact ⟨hguard, rfl⟩
  | construct =>
      simp only [Step, stepOf, step] at h
      split_ifs at h with hguard
      obtain ⟨rfl, -⟩ := Traced.mk.inj (Option.some.inj h)
      exact ⟨hguard, rfl⟩
  | publish =>
      simp only [Step, stepOf, step] at h
      split_ifs at h with hguard
      obtain ⟨rfl, -⟩ := Traced.mk.inj (Option.some.inj h)
      exact ⟨hguard, rfl⟩
  | startLoopReturns =>
      simp only [Step, stepOf, step] at h
      split_ifs at h with hguard
      obtain ⟨rfl, -⟩ := Traced.mk.inj (Option.some.inj h)
      exact ⟨hguard.1, hguard.2, rfl⟩
  | quit =>
      simp only [Step, stepOf, step] at h
      split_ifs at h with hguard
      exact ⟨hguard, performs_of_eq h⟩
  | quitReturns =>
      simp only [Step, stepOf, step] at h
      split_ifs at h with hguard
      exact ⟨hguard, performs_of_eq h⟩
  | join =>
      simp only [Step, stepOf, step] at h
      split_ifs at h with hguard
      obtain ⟨rfl, -⟩ := Traced.mk.inj (Option.some.inj h)
      exact ⟨hguard.1, hguard.2, rfl⟩
  | loop =>
      simp only [Step, stepOf, step] at h
      split_ifs at h with hguard
      exact ⟨hguard, performs_of_eq h⟩
  | inside l =>
      simp only [Step, stepOf, step] at h
      split_ifs at h with hguard
      exact ⟨hguard.1, hguard.2, performs_of_eq h⟩
  | threadReturns =>
      simp only [Step, stepOf, step] at h
      split_ifs at h with hguard
      obtain ⟨rfl, -⟩ := Traced.mk.inj (Option.some.inj h)
      exact ⟨hguard.1, hguard.2, rfl⟩

/-! ## When `quit()` is lost -/

/-- `quit()` has returned, and the loop thread is in `poll` all the same, with nothing to
end its loop. -/
def QuitLost (s : EventLoopThread α) : Prop :=
  (s.owner = .joining ∨ s.owner = .joined) ∧ s.loop.phase = .polling ∧ s.loop.quit = false

instance (s : EventLoopThread α) : Decidable s.QuitLost := inferInstanceAs (Decidable (_ ∧ _))

/-- `quit_` is set, and the loop will see it: `loop()` has started. -/
structure Stopping (s : EventLoopThread α) : Prop where
  quit : s.loop.quit = true
  threadFunc : s.threadFunc = .looping ∨ s.threadFunc = .returned

/-- Inside `loop()` nothing clears `quit_`. -/
theorem quit_inside {loop loop' : EventLoop α} {l : EventLoop.Label α}
    (h : EventLoop.Step loop l es loop') (hinside : Inside l) : loop'.quit = loop.quit := by
  have hcases := EventLoop.step_cases h
  cases l with
  | queueInLoop th f =>
      obtain ⟨-, heq⟩ := hcases
      have hval : loop' = (loop.queueInLoop th f).val := congrArg Traced.val heq
      rw [hval, EventLoop.queueInLoop_val]
      split_ifs <;> rfl
  | wakeup th =>
      obtain ⟨-, -, rfl⟩ := hcases
      rw [EventLoop.wakeup_frame]
  | quit th => exact absurd hinside id
  | quitWakeup th => exact absurd hinside id
  | loop => exact absurd hinside id
  | test =>
      obtain ⟨-, -, ⟨-, rfl⟩ | ⟨-, rfl⟩⟩ := hcases
      · rfl
      · rfl
  | poll wakeup =>
      obtain ⟨-, -, -, rfl⟩ := hcases
      rfl
  | handleWakeup =>
      obtain ⟨-, -, rfl⟩ := hcases
      rfl
  | swap =>
      obtain ⟨-, -, rfl⟩ := hcases
      rfl
  | run =>
      obtain ⟨f, rest, -, -, -, -, rfl⟩ := hcases
      rfl
  | finish =>
      obtain ⟨-, -, -, -, rfl⟩ := hcases
      rfl

theorem Stopping.step (h : Stopping s) {l : Label α} (hstep : Step s l es t)
    (howner : s.owner ≠ .constructed) : Stopping t ∧ t.owner ≠ .constructed := by
  have hcases := step_cases hstep
  obtain ⟨hquit, hthread⟩ := h
  cases l with
  | startLoop => exact absurd hcases.1 howner
  | construct =>
      obtain ⟨hentered, -⟩ := hcases
      rw [hentered] at hthread
      simp at hthread
  | publish =>
      obtain ⟨hconstructed, -⟩ := hcases
      rw [hconstructed] at hthread
      simp at hthread
  | startLoopReturns =>
      obtain ⟨-, -, rfl⟩ := hcases
      exact ⟨⟨hquit, hthread⟩, by simp⟩
  | quit =>
      obtain ⟨-, loop, hloop, rfl⟩ := hcases
      obtain ⟨-, -, ⟨-, rfl⟩ | ⟨-, rfl⟩⟩ := EventLoop.step_cases hloop
      · exact ⟨⟨rfl, hthread⟩, by simp⟩
      · exact ⟨⟨rfl, hthread⟩, by simp⟩
  | quitReturns =>
      obtain ⟨-, loop, hloop, rfl⟩ := hcases
      obtain ⟨-, -, rfl⟩ := EventLoop.step_cases hloop
      refine ⟨⟨?_, hthread⟩, by simp⟩
      rw [EventLoop.wakeup_frame]
      exact hquit
  | join =>
      obtain ⟨-, -, rfl⟩ := hcases
      exact ⟨⟨hquit, hthread⟩, by simp⟩
  | loop =>
      -- `threadFunc` calls `loop()` only once.
      obtain ⟨hpublished, -⟩ := hcases
      rw [hpublished] at hthread
      simp at hthread
  | inside l =>
      obtain ⟨hinside, -, loop, hloop, rfl⟩ := hcases
      exact ⟨⟨(quit_inside hloop hinside).trans hquit, hthread⟩, howner⟩
  | threadReturns =>
      obtain ⟨-, -, rfl⟩ := hcases
      exact ⟨⟨hquit, Or.inr rfl⟩, howner⟩

theorem Stopping.run (h : Stopping s) (howner : s.owner ≠ .constructed) {ls : List (Label α)}
    (hrun : Run Step s ls es t) : Stopping t :=
  (hrun.invariant (I := fun s => Stopping s ∧ s.owner ≠ .constructed) ⟨h, howner⟩
    (fun _ _ _ _ ⟨hstopping, howner⟩ hstep => hstopping.step hstep howner)).1

/-- What holds before `loop()` is entered. -/
structure Launched (s : EventLoopThread α) : Prop where
  published : s.owner ≠ .constructed → s.owner ≠ .starting →
    s.threadFunc = .published ∨ s.threadFunc = .looping ∨ s.threadFunc = .returned
  constructed : s.threadFunc = .constructed → s.loop = .create
  /-- No step has been taken that is one of the loop thread itself. -/
  idle : s.threadFunc = .published → s.loop.phase = .outside ∧ Thread.loop ∉ s.loop.waking ∧
    s.loop.callingPendingFunctors = false

/-- The steps of other threads leave an idle loop idle. -/
theorem idle_inside {loop loop' : EventLoop α} {l : EventLoop.Label α}
    (h : EventLoop.Step loop l es loop') (hinside : Inside l)
    (hidle : loop.phase = .outside ∧ Thread.loop ∉ loop.waking ∧
      loop.callingPendingFunctors = false) :
    loop'.phase = .outside ∧ Thread.loop ∉ loop'.waking ∧
      loop'.callingPendingFunctors = false := by
  obtain ⟨hphase, hwaking, hcalling⟩ := hidle
  have hcases := EventLoop.step_cases h
  cases l with
  | queueInLoop th f =>
      obtain ⟨-, heq⟩ := hcases
      have hval : loop' = (loop.queueInLoop th f).val := congrArg Traced.val heq
      rw [hval, EventLoop.queueInLoop_val]
      split_ifs with hwake
      · refine ⟨hphase, ?_, hcalling⟩
        have hother : th ≠ .loop := hwake.resolve_right (by simp [hcalling])
        simpa [hwaking] using Ne.symm hother
      · exact ⟨hphase, hwaking, hcalling⟩
  | wakeup th =>
      obtain ⟨-, -, rfl⟩ := hcases
      rw [EventLoop.wakeup_frame]
      exact ⟨hphase, fun hmem => hwaking (List.mem_of_mem_erase hmem), hcalling⟩
  | quit th => exact absurd hinside id
  | quitWakeup th => exact absurd hinside id
  | loop => exact absurd hinside id
  | test => exact absurd (hphase.symm.trans hcases.1) (by simp)
  | poll wakeup => exact absurd (hphase.symm.trans hcases.1) (by simp)
  | handleWakeup => exact absurd (hphase.symm.trans hcases.1) (by simp)
  | swap => exact absurd (hphase.symm.trans hcases.1) (by simp)
  | run =>
      obtain ⟨f, rest, -, hfunctors, -⟩ := hcases
      exact absurd (hphase.symm.trans hfunctors) (by simp)
  | finish => exact absurd (hphase.symm.trans hcases.1) (by simp)

/-- The owner's own steps do not touch what the loop thread does. -/
theorem idle_quit {loop loop' : EventLoop α}
    (h : EventLoop.Step loop (.quit ownerThread) es loop' ∨
      EventLoop.Step loop (.quitWakeup ownerThread) es loop') :
    loop'.phase = loop.phase ∧ loop'.waking = loop.waking ∧
      loop'.callingPendingFunctors = loop.callingPendingFunctors := by
  rcases h with h | h
  · obtain ⟨-, -, ⟨-, rfl⟩ | ⟨-, rfl⟩⟩ := EventLoop.step_cases h
    · exact ⟨rfl, rfl, rfl⟩
    · exact ⟨rfl, rfl, rfl⟩
  · obtain ⟨-, -, rfl⟩ := EventLoop.step_cases h
    rw [EventLoop.wakeup_frame]
    exact ⟨rfl, rfl, rfl⟩

theorem Launched.step (h : Launched s) {l : Label α} (hstep : Step s l es t) : Launched t := by
  have hcases := step_cases hstep
  obtain ⟨hpublished, hconstructed, hidle⟩ := h
  cases l with
  | startLoop =>
      obtain ⟨-, rfl⟩ := hcases
      exact ⟨fun _ hstarting => absurd rfl hstarting, by simp, by simp⟩
  | construct =>
      obtain ⟨hentered, rfl⟩ := hcases
      refine ⟨fun hconstructed hstarting => ?_, fun _ => rfl, by simp⟩
      have hthread := hpublished hconstructed hstarting
      rw [hentered] at hthread
      simp at hthread
  | publish =>
      obtain ⟨hbuilt, rfl⟩ := hcases
      have hloop := hconstructed hbuilt
      exact ⟨fun _ _ => Or.inl rfl, by simp, fun _ => by simp [hloop, EventLoop.create]⟩
  | startLoopReturns =>
      obtain ⟨-, hthread, rfl⟩ := hcases
      exact ⟨fun _ _ => hthread, hconstructed, hidle⟩
  | quit =>
      obtain ⟨howner, loop, hloop, rfl⟩ := hcases
      have hthread := hpublished (by simp [howner]) (by simp [howner])
      obtain ⟨hphase, hwaking, hcalling⟩ := idle_quit (Or.inl hloop)
      refine ⟨fun _ _ => hthread, fun hbuilt => ?_, fun hpub => ?_⟩
      · simp [show s.threadFunc = .constructed from hbuilt] at hthread
      · exact hphase ▸ hwaking ▸ hcalling ▸ hidle hpub
  | quitReturns =>
      obtain ⟨howner, loop, hloop, rfl⟩ := hcases
      have hthread := hpublished (by simp [howner]) (by simp [howner])
      obtain ⟨hphase, hwaking, hcalling⟩ := idle_quit (Or.inr hloop)
      refine ⟨fun _ _ => hthread, fun hbuilt => ?_, fun hpub => ?_⟩
      · simp [show s.threadFunc = .constructed from hbuilt] at hthread
      · exact hphase ▸ hwaking ▸ hcalling ▸ hidle hpub
  | join =>
      obtain ⟨howner, -, rfl⟩ := hcases
      exact ⟨fun _ _ => hpublished (by simp [howner]) (by simp [howner]), hconstructed, hidle⟩
  | loop =>
      obtain ⟨-, loop, -, rfl⟩ := hcases
      exact ⟨fun _ _ => Or.inr (Or.inl rfl), by simp, by simp⟩
  | inside l =>
      obtain ⟨hinside, hthread, loop, hloop, rfl⟩ := hcases
      refine ⟨hpublished, fun hbuilt => ?_, fun hpub => idle_inside hloop hinside (hidle hpub)⟩
      simp [show s.threadFunc = .constructed from hbuilt] at hthread
  | threadReturns =>
      obtain ⟨-, -, rfl⟩ := hcases
      exact ⟨fun _ _ => Or.inr (Or.inr rfl), by simp, by simp⟩

theorem launched_of_run {ls : List (Label α)} (h : Run Step create ls es s) : Launched s :=
  h.invariant (I := Launched) ⟨by simp [create], by simp [create], by simp [create]⟩
    (fun _ _ _ _ hs hstep => hs.step hstep)

/-- A `quit()` before `loop()` is followed by a run in which the loop clears `quit_` and
goes to `poll`. -/
theorem quitLost_of_published (hpublished : s.threadFunc = .published)
    (howner : s.owner = .quitting)
    (hquitting : ownerThread ∈ s.loop.quitting) (hphase : s.loop.phase = .outside)
    (hwaking : Thread.loop ∉ s.loop.waking) :
    ∃ es t, Run Step s [.quitReturns, .loop, .inside .test] es t ∧ t.QuitLost := by
  let a : EventLoop α :=
    { s.loop.wakeup with quitting := s.loop.wakeup.quitting.erase ownerThread }
  let b : EventLoop α := { a with looping := true, quit := false, phase := .testing }
  have ha : a = { s.loop with
      counter := s.loop.wakeup.counter, quitting := s.loop.quitting.erase ownerThread } := by
    show { s.loop.wakeup with quitting := s.loop.wakeup.quitting.erase ownerThread } = _
    rw [EventLoop.wakeup_frame]
  have hreturns : Step s .quitReturns [] { s with owner := .joining, loop := a } := by
    simp only [Step, stepOf, step, if_pos howner, perform, EventLoop.step, if_pos hquitting]
    rw [ha, EventLoop.wakeup_frame]
    rfl
  have hloop : Step { s with owner := .joining, loop := a } .loop
      (Traced.check (Event.loopingFailed : Event α) (a.looping = false)).trace
      { s with owner := .joining, threadFunc := .looping, loop := b } := by
    have hguard : a.phase = .outside ∧ Thread.loop ∉ a.waking := by
      rw [ha]
      exact ⟨hphase, hwaking⟩
    simp only [Step, stepOf, step, if_pos hpublished, perform, EventLoop.step, if_pos hguard]
    simp [bind, pure, b]
  have htest : Step { s with owner := .joining, threadFunc := .looping, loop := b }
      (.inside .test) []
      { s with
        owner := .joining
        threadFunc := .looping
        loop := { b with phase := .polling } } := rfl
  exact ⟨_, _, .cons hreturns (.cons hloop (.single htest)), Or.inl rfl, rfl, rfl⟩

/-- **When `quit()` is lost**: after the destructor has called `quit()`, the loop thread is
never in `poll` with `quit_` cleared once `quit()` has returned, exactly if `loop()` had been
entered. -/
theorem quit_not_lost_iff {ls : List (Label α)} {es' : List (Event α)}
    (h : Run Step create ls es s) (hquit : Step s .quit es' t) :
    (∀ ls' es'' u, Run Step t ls' es'' u → ¬u.QuitLost) ↔ s.threadFunc ≠ .published := by
  have hlaunched := launched_of_run h
  obtain ⟨howner, loop, hloop, rfl⟩ := step_cases hquit
  have hstored := EventLoop.step_cases hloop
  constructor
  · intro hnever hpublished
    obtain ⟨hphase, hwaking, -⟩ := hlaunched.idle hpublished
    obtain ⟨-, -, ⟨-, rfl⟩ | ⟨hloop, -⟩⟩ := hstored
    · obtain ⟨es'', u, hrun, hlost⟩ := quitLost_of_published
        (s := { s with
          owner := .quitting
          loop := { s.loop with quit := true, quitting := ownerThread :: s.loop.quitting } })
        hpublished rfl (List.mem_cons_self ..) hphase hwaking
      exact hnever _ es'' u hrun hlost
    · simp [ownerThread] at hloop
  · intro hentered ls' es'' u hrun hlost
    have hthread := hlaunched.published (by simp [howner]) (by simp [howner])
    have hstopping : Stopping { s with owner := .quitting, loop } := by
      refine ⟨?_, hthread.resolve_left hentered⟩
      obtain ⟨-, -, ⟨-, rfl⟩ | ⟨-, rfl⟩⟩ := hstored
      · rfl
      · rfl
    have hstill := (hstopping.run (by simp) hrun).quit
    rw [hlost.2.2] at hstill
    simp at hstill

/-- The owner destroys the object after the loop thread has reached `poll`. -/
def polled : List (Label Nat) :=
  [.startLoop, .construct, .publish, .startLoopReturns, .loop, .inside .test]

theorem quit_not_lost_iff_polled :
    ∃ es s es' t, Run Step (create : EventLoopThread Nat) polled es s ∧ Step s .quit es' t ∧
      ((∀ ls' es'' u, Run Step t ls' es'' u → ¬u.QuitLost) ↔ s.threadFunc ≠ .published) := by
  obtain ⟨es, s, hrun, hquit⟩ : ∃ es s, Run Step (create : EventLoopThread Nat) polled es s ∧
      (step s .quit).isSome = true := Run.exists_of_exec _ (by decide +kernel)
  obtain ⟨x, hx⟩ := Option.isSome_iff_exists.mp hquit
  have hstep : Step s .quit x.trace x.val := hx
  exact ⟨es, s, x.trace, x.val, hrun, hstep, quit_not_lost_iff hrun hstep⟩

/-- The owner destroys the object as soon as `startLoop()` has returned. -/
def destroyedEarly : List (Label Nat) :=
  [.startLoop, .construct, .publish, .startLoopReturns, .quit, .quitReturns, .loop, .inside .test]

/-- `quit()` has returned, and the loop thread enters `poll` with `quit_` cleared. -/
theorem quitLost_destroyedEarly :
    ∃ es t, Run Step (create : EventLoopThread Nat) destroyedEarly es t ∧ t.QuitLost :=
  Run.exists_of_exec _ (by decide +kernel)

end EventLoopThread
end Chaonet
