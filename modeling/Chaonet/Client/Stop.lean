import Chaonet.Client.ConnectorLoop

/-!
# Stopping a connector

A `ConnectorSession` is a connector whose member functions are called in any order.  Other
threads call `start()` and `stop()` as well; `startInLoop` and the cancel of the retry timer are
then queued.  `restart()` is called on the loop thread only.

`connect_` is all that `stop()` leaves behind, and every way on looks at it: no socket is made, no
retry is scheduled and nothing is handed over.  A socket that is being connected is closed when
its event comes, provided that the connector still knows of it.  `restart()` makes it forget such
a socket, and a run without that is `RestartSafe` (`stop_effective`).
-/

namespace Chaonet

open Foundation

/-- The functors of a connector. -/
inductive ConnectorSession.Functor
  | resetChannel
  | startInLoop
  | cancel (timerId : Option Nat)
deriving DecidableEq

structure ConnectorSession where
  connector : Connector
  iteration : Iteration Unit ConnectorSession.Functor

namespace ConnectorSession

open Connector (Event Connecting Handled Tried)

/-- The functors a member passed to `queueInLoop`. -/
def queuedBy (es : List Event) : List Functor :=
  es.filterMap fun
    | .queuedReset => some .resetChannel
    | _ => none

/-- Let a member of the connector take effect. -/
def perform (s : ConnectorSession) (x : Traced Event Connector) :
    Traced Event ConnectorSession :=
  ⟨{ s with connector := x.val, iteration := s.iteration.push (queuedBy x.trace) }, x.trace⟩

/-- Run a functor; `a` is what an attempt of `startInLoop` comes to. -/
def execute (s : ConnectorSession) (a : Attempt) : Functor → Traced Event ConnectorSession
  | .resetChannel => pure { s with connector := s.connector.resetChannel }
  | .startInLoop => s.perform (s.connector.startInLoop a)
  | .cancel timerId =>
      let timers := s.connector.timers.cancel timerId
      pure { s with connector := { s.connector with timers } }

inductive Label
  /-- `start()` on the loop thread, and on another one. -/
  | start (a : Attempt)
  | startElsewhere
  | restart (a : Attempt)
  | stop
  | stopElsewhere
  | tick (micros : Nat)
  /-- `poll` finds the channel with these `revents`. -/
  | activate (revents : EventMask)
  | wake
  | handleEvent (status : SocketStatus)
  /-- `TimerQueue::handleRead` collects its batch. -/
  | expire
  | runTimer (t : Shot ClientTimer) (a : Attempt)
  | swap
  | runFunctor (a : Attempt)
  | finish
deriving DecidableEq, Repr

/-- Move on in the iteration, when no timer of a batch is left to run. -/
def proceed (s : ConnectorSession) (moved : Option (Iteration Unit Functor)) :
    Option (Traced Event ConnectorSession) :=
  if s.connector.timers.expired = [] then
    moved.map fun iteration => pure { s with iteration }
  else none

/-- `stop()` on the loop thread. -/
def stopped (s : ConnectorSession) : ConnectorSession := { s with connector := s.connector.stop }

/-- The enabled steps. -/
def step (s : ConnectorSession) : Label → Option (Traced Event ConnectorSession)
  | .start a => some (s.perform (s.connector.start a))
  | .startElsewhere =>
      some (pure { s with
        connector := { s.connector with connect_ := true }
        iteration := s.iteration.push [.startInLoop] })
  | .restart a => some (s.perform (s.connector.restart a))
  | .stop => some (pure s.stopped)
  | .stopElsewhere =>
      some (pure { s with
        connector := { s.connector with connect_ := false }
        iteration := s.iteration.push [.cancel s.connector.timerId] })
  | .tick micros =>
      let timers := s.connector.timers.tick micros
      some (pure { s with connector := { s.connector with timers } })
  | .activate revents =>
      match s.connector.channel with
      | none => none
      | some channel =>
          if s.connector.poller.epollSet channel.fd ≠ none then
            (s.iteration.activate ()).map fun iteration =>
              let channel := some { channel with revents }
              pure { s with connector := { s.connector with channel }, iteration }
          else none
  | .wake => s.proceed (s.iteration.wake s.connector.timers.clock)
  | .handleEvent status =>
      if s.connector.timers.expired = [] then
        s.iteration.next.map fun r =>
          { s with iteration := r.2 }.perform (s.connector.handleEvent status)
      else none
  | .expire =>
      if s.iteration.phase = .handling ∧ s.connector.timers.expired = [] then
        let timers := s.connector.timers.handleRead
        some (pure { s with connector := { s.connector with timers } })
      else none
  | .runTimer t a =>
      if s.iteration.phase = .handling ∧ t ∈ s.connector.timers.expired then
        let connector := { s.connector with timers := s.connector.timers.run t }
        match t.callback with
        | .startInLoop => some (s.perform (connector.startInLoop a))
        | .removeConnector => some (pure { s with connector })
      else none
  | .swap => s.proceed s.iteration.swap
  | .runFunctor a =>
      s.iteration.nextFunctor.map fun r => { s with iteration := r.2 }.execute a r.1
  | .finish => s.proceed s.iteration.finish

def Step : ConnectorSession → Label → List Event → ConnectorSession → Prop := stepOf step

/-- A new connector in a new loop. -/
def create (clock numCreated : Nat) : ConnectorSession :=
  { connector := .create .create (.create clock numCreated)
    iteration := .create clock }

variable {s t : ConnectorSession} {es past : List Event}

theorem proceed_eq_some {moved : Option (Iteration Unit Functor)}
    (h : s.proceed moved = some ⟨t, es⟩) :
    ∃ iteration, moved = some iteration ∧ es = [] ∧ t = { s with iteration } := by
  unfold proceed at h
  split_ifs at h
  obtain ⟨iteration, hmoved, heq⟩ := Option.map_eq_some_iff.mp h
  obtain ⟨rfl, rfl⟩ := Traced.mk.inj heq
  exact ⟨iteration, hmoved, rfl, rfl⟩

/-- What each step does, as one proposition. -/
theorem step_cases {l : Label} (h : Step s l es t) :
    match l with
    | .start a => ⟨t, es⟩ = s.perform (s.connector.start a)
    | .startElsewhere => es = [] ∧ t = { s with
        connector := { s.connector with connect_ := true }
        iteration := s.iteration.push [.startInLoop] }
    | .restart a => ⟨t, es⟩ = s.perform (s.connector.restart a)
    | .stop => es = [] ∧ t = s.stopped
    | .stopElsewhere => es = [] ∧ t = { s with
        connector := { s.connector with connect_ := false }
        iteration := s.iteration.push [.cancel s.connector.timerId] }
    | .tick micros => es = [] ∧ t = { s with
        connector := { s.connector with timers := s.connector.timers.tick micros } }
    | .activate revents => ∃ channel iteration, s.connector.channel = some channel ∧
        s.connector.poller.epollSet channel.fd ≠ none ∧
        s.iteration.activate () = some iteration ∧ es = [] ∧
        t = { s with
          connector := { s.connector with channel := some { channel with revents } }
          iteration }
    | .wake => ∃ iteration, s.iteration.wake s.connector.timers.clock = some iteration ∧
        es = [] ∧ t = { s with iteration }
    | .handleEvent status => ∃ iteration, s.iteration.next = some ((), iteration) ∧
        ⟨t, es⟩ = { s with iteration }.perform (s.connector.handleEvent status)
    | .expire => es = [] ∧ t = { s with
        connector := { s.connector with timers := s.connector.timers.handleRead } }
    | .runTimer timer a =>
        let connector := { s.connector with timers := s.connector.timers.run timer }
        ⟨t, es⟩ = s.perform (connector.startInLoop a) ∨ es = [] ∧ t = { s with connector }
    | .swap => ∃ iteration, s.iteration.swap = some iteration ∧ es = [] ∧
        t = { s with iteration }
    | .runFunctor a => ∃ f iteration, s.iteration.nextFunctor = some (f, iteration) ∧
        ⟨t, es⟩ = { s with iteration }.execute a f
    | .finish => ∃ iteration, s.iteration.finish = some iteration ∧ es = [] ∧
        t = { s with iteration } := by
  cases l with
  | start a => exact (Option.some.inj h).symm
  | startElsewhere =>
      obtain ⟨rfl, rfl⟩ := Traced.mk.inj (Option.some.inj h)
      exact ⟨rfl, rfl⟩
  | restart a => exact (Option.some.inj h).symm
  | stop =>
      obtain ⟨rfl, rfl⟩ := Traced.mk.inj (Option.some.inj h)
      exact ⟨rfl, rfl⟩
  | stopElsewhere =>
      obtain ⟨rfl, rfl⟩ := Traced.mk.inj (Option.some.inj h)
      exact ⟨rfl, rfl⟩
  | tick micros =>
      obtain ⟨rfl, rfl⟩ := Traced.mk.inj (Option.some.inj h)
      exact ⟨rfl, rfl⟩
  | activate revents =>
      simp only [Step, stepOf, step] at h
      cases hchannel : s.connector.channel with
      | none => simp [hchannel] at h
      | some channel =>
          simp only [hchannel] at h
          split_ifs at h with hset
          obtain ⟨iteration, hiteration, heq⟩ := Option.map_eq_some_iff.mp h
          obtain ⟨rfl, rfl⟩ := Traced.mk.inj heq
          exact ⟨channel, iteration, rfl, hset, hiteration, rfl, rfl⟩
  | wake => exact proceed_eq_some h
  | handleEvent status =>
      simp only [Step, stepOf, step] at h
      split_ifs at h
      obtain ⟨⟨⟨⟩, iteration⟩, hiteration, heq⟩ := Option.map_eq_some_iff.mp h
      exact ⟨iteration, hiteration, heq.symm⟩
  | expire =>
      simp only [Step, stepOf, step] at h
      split_ifs at h
      obtain ⟨rfl, rfl⟩ := Traced.mk.inj (Option.some.inj h)
      exact ⟨rfl, rfl⟩
  | runTimer timer a =>
      simp only [Step, stepOf, step] at h
      split_ifs at h
      cases hcallback : timer.callback with
      | startInLoop =>
          simp only [hcallback, Option.some.injEq] at h
          exact Or.inl h.symm
      | removeConnector =>
          simp only [hcallback] at h
          obtain ⟨rfl, rfl⟩ := Traced.mk.inj (Option.some.inj h)
          exact Or.inr ⟨rfl, rfl⟩
  | swap => exact proceed_eq_some h
  | runFunctor a =>
      obtain ⟨⟨f, iteration⟩, hiteration, heq⟩ := Option.map_eq_some_iff.mp h
      exact ⟨f, iteration, hiteration, heq.symm⟩
  | finish => exact proceed_eq_some h

/-! ## The attempt that is being made -/

/-- How many `resetChannel` functors are queued. -/
def resets (s : ConnectorSession) : Nat := s.iteration.queue.queued.count .resetChannel

/-- Either an attempt is being made, whose channel is registered, or no channel is
registered, and the last one waits for its `resetChannel`. -/
inductive Situation (s : ConnectorSession) : Prop
  | trying (channel : Channel)
      (attempt : s.connector.Connecting
        (Function.update (fun _ => none) channel.fd (some channel)) channel)
      (resets : s.resets = 0)
  | resting (holds : s.connector.poller.Holds fun _ => none)
      (state : s.connector.state ≠ .kConnecting)
      (resets : s.resets = s.connector.channel.toList.length)
      (active : s.iteration.active = [])

structure Orderly (s : ConnectorSession) : Prop where
  turn : s.iteration.InTurn
  situation : Situation s

theorem orderly_create (clock numCreated : Nat) : Orderly (create clock numCreated) :=
  ⟨.create clock, .resting .create (by simp [create, Connector.create]) rfl rfl⟩

/-- What leaves the channel alone. -/
theorem Orderly.keep (h : Orderly s) (hturn : t.iteration.InTurn)
    (hpoller : t.connector.poller = s.connector.poller)
    (hchannel : t.connector.channel = s.connector.channel)
    (hstate : t.connector.state = s.connector.state) (hresets : t.resets = s.resets)
    (hactive : s.iteration.active = [] → t.iteration.active = []) : Orderly t := by
  refine ⟨hturn, ?_⟩
  cases h.situation with
  | trying channel attempt hnone =>
      refine .trying channel ⟨?_, hstate.trans attempt.state, hchannel.trans attempt.current,
        attempt.known⟩ (hresets.trans hnone)
      rw [hpoller]
      exact attempt.holds
  | resting hholds hrest hreset hidle =>
      refine .resting (hpoller ▸ hholds) (hstate ▸ hrest) ?_ (hactive hidle)
      rw [hresets, hchannel]
      exact hreset

/-- An attempt by a connector that is not making one. -/
theorem Orderly.connect (h : Orderly s) (hstate : s.connector.state = .kDisconnected) {a : Attempt}
    (hsound : ∀ e, .failed e ∉ (s.connector.connect a).trace) :
    Orderly (s.perform (s.connector.connect a)).val := by
  have hne : s.connector.state ≠ .kConnecting := by simp [hstate]
  have hfree (hprogress : a.savedErrno.progress = .connecting) : s.connector.channel = none := by
    by_contra hsome
    apply hsound .connectingNoChannel
    simp [Connector.connect, hprogress, Connector.connecting, Traced.mem_check_trace, hsome]
  cases h.situation with
  | trying channel attempt _ => exact absurd attempt.state hne
  | resting hholds _ hreset hidle =>
      have htried := Connector.connect_spec hholds (a := a) fun hprogress => ⟨hfree hprogress, rfl⟩
      generalize s.connector.connect a = x at htried
      cases htried with
      | connecting poller channel hprogress hfd _ hafter =>
          rw [hfree hprogress] at hreset
          refine ⟨h.turn.push _, .trying channel ⟨?_, rfl, rfl, by simp⟩ ?_⟩
          · rw [hfd]
            exact hafter
          · simpa [perform, queuedBy, resets] using hreset
      | retried _ =>
          refine h.keep (h.turn.push _) ?_ ?_ ?_ ?_ fun hnone => hnone
          · simp [perform]
          · simp [perform]
          · simp [perform, hstate]
          · simp [perform, queuedBy, resets]
      | closed _ =>
          refine h.keep (h.turn.push _) rfl rfl rfl ?_ fun hnone => hnone
          simp [perform, queuedBy, resets]

/-- Without `connect_`, `startInLoop` fails or does nothing. -/
theorem startInLoop_off {c : Connector} (hconnect : c.connect_ = false) (a : Attempt) :
    (c.startInLoop a).val = c ∧ ∀ e ∈ (c.startInLoop a).trace, ∃ x, e = .failed x := by
  constructor
  · simp [Connector.startInLoop, hconnect]
  · intro e he
    simp only [Connector.startInLoop, hconnect, Traced.bind_trace, Bool.false_eq_true, if_false,
      Traced.pure_trace, List.append_nil] at he
    exact ⟨_, (Traced.mem_check_trace.mp he).2⟩

/-- `startInLoop` makes an attempt if none is being made, or fails. -/
theorem Orderly.startInLoop (h : Orderly s) {a : Attempt}
    (hsound : (∀ e, .failed e ∉ (s.connector.startInLoop a).trace) ∨ s.connector.connect_ = false) :
    Orderly (s.perform (s.connector.startInLoop a)).val := by
  cases hconnect : s.connector.connect_ with
  | false =>
      obtain ⟨hval, hfails⟩ := startInLoop_off hconnect a
      have hqueued : queuedBy (s.connector.startInLoop a).trace = [] := by
        refine List.filterMap_eq_nil_iff.mpr fun e he => ?_
        obtain ⟨x, rfl⟩ := hfails e he
        rfl
      refine h.keep (h.turn.push _) ?_ ?_ ?_ ?_ fun hnone => hnone
      all_goals simp [perform, hval, hqueued]
  | true =>
      replace hsound := hsound.resolve_right (by simp [hconnect])
      have hstate : s.connector.state = .kDisconnected := by
        by_contra hstate
        apply hsound .startInLoopDisconnected
        simp [Connector.startInLoop, Traced.mem_check_trace, hstate]
      rw [Connector.startInLoop_connect hstate hconnect] at hsound ⊢
      exact h.connect hstate hsound

/-- An event ends the attempt or changes nothing. -/
theorem Orderly.handleEvent (h : Orderly s) {iteration : Iteration Unit Functor}
    (hnext : s.iteration.next = some ((), iteration)) (status : SocketStatus) :
    Orderly ({ s with iteration }.perform (s.connector.handleEvent status)).val ∧
      ∃ channel poller, s.connector.Connecting
        (Function.update (fun _ => none) channel.fd (some channel)) channel ∧
        Handled s.connector channel
          { s.connector with poller, channel := some (Connector.removed channel) }
          (s.connector.handleEvent status) := by
  obtain ⟨hturn, hqueue⟩ := h.turn.next hnext
  obtain ⟨-, hactive, -⟩ := Iteration.next_eq_some.mp hnext
  have hlast : iteration.active = [] :=
    List.eq_nil_iff_forall_not_mem.mpr fun _ hu => h.turn.next_fresh hnext hu
  cases h.situation with
  | resting _ _ _ hidle => simp [hidle] at hactive
  | trying channel attempt hnone =>
      obtain ⟨poller, hholds, hhandled⟩ := Connector.handleEvent_spec attempt status
      refine ⟨?_, channel, poller, attempt, hhandled⟩
      rw [Function.update_idem, Function.update_eq_self_iff.mpr rfl] at hholds
      have hnone : iteration.queue.queued.count .resetChannel = 0 := by rw [hqueue]; exact hnone
      generalize s.connector.handleEvent status = x at hhandled
      cases hhandled with
      | goesOn =>
          refine ⟨hturn.push _, .trying channel attempt ?_⟩
          simpa [perform, queuedBy, resets] using hnone
      | failed =>
          refine ⟨hturn.push _, .resting ?_ ?_ ?_ hlast⟩
          · simpa [perform] using hholds
          · simp [perform]
          · simp [perform, queuedBy, resets, hnone]
      | handedOver _ | abandoned _ =>
          refine ⟨hturn.push _, .resting hholds ?_ ?_ hlast⟩
          · simp [perform]
          · simp [perform, queuedBy, resets, hnone]

/-- What the connector does not see. -/
theorem Orderly.proceed (h : Orderly s) {iteration : Iteration Unit Functor}
    (hturn : iteration.InTurn) (hqueue : iteration.queue.queued = s.iteration.queue.queued)
    (hactive : s.iteration.active = [] → iteration.active = []) :
    Orderly { s with iteration } :=
  h.keep hturn rfl rfl rfl (by simp [resets, hqueue]) hactive

/-- The next functor is run. -/
theorem Orderly.execute (h : Orderly s) {f : Functor} {iteration : Iteration Unit Functor}
    (hnext : s.iteration.nextFunctor = some (f, iteration)) {a : Attempt}
    (hsound : (∀ e, .failed e ∉ ({ s with iteration }.execute a f).trace) ∨
      s.connector.connect_ = false) :
    Orderly ({ s with iteration }.execute a f).val := by
  obtain ⟨hturn, hqueue⟩ := h.turn.nextFunctor hnext
  obtain ⟨-, rest, -, hiteration⟩ := Iteration.nextFunctor_eq_some.mp hnext
  have hactive (hidle : s.iteration.active = []) : iteration.active = [] := by
    rw [hiteration]
    exact hidle
  cases f with
  | resetChannel =>
      cases h.situation with
      | trying channel attempt hnone => simp [resets, hqueue] at hnone
      | resting hholds hstate hreset hidle =>
          refine ⟨hturn, .resting hholds hstate ?_ (hactive hidle)⟩
          cases hchannel : s.connector.channel with
          | none => simp [resets, hqueue, hchannel] at hreset
          | some channel => simpa [resets, hqueue, hchannel, ConnectorSession.execute,
              Connector.resetChannel] using hreset
  | startInLoop =>
      have hkept : Orderly { s with iteration } :=
        h.keep hturn rfl rfl rfl (by simp [resets, hqueue]) hactive
      exact hkept.startInLoop hsound
  | cancel timerId =>
      refine h.keep hturn rfl rfl rfl ?_ hactive
      simp [resets, hqueue, ConnectorSession.execute]

/-! ## Runs -/

/-- `restart()` is called while no attempt is being made, as it is by the close callback of a
connection that the connector has made. -/
def RestartSafe (s : ConnectorSession) : Label → Prop
  | .restart _ => s.connector.state ≠ .kConnecting
  | _ => True

instance (s : ConnectorSession) : ∀ l, Decidable (s.RestartSafe l)
  | .restart _ => inferInstanceAs (Decidable (_ ≠ _))
  | .start _ | .startElsewhere | .stop | .stopElsewhere | .tick _ | .activate _ | .wake
  | .handleEvent _ | .expire | .runTimer _ _ | .swap | .runFunctor _ | .finish => .isTrue trivial

/-- Neither `start()` nor `restart()` is called. -/
def NotStarted (_ : ConnectorSession) : Label → Prop
  | .start _ | .startElsewhere | .restart _ => False
  | _ => True

instance (s : ConnectorSession) : ∀ l, Decidable (s.NotStarted l)
  | .start _ | .startElsewhere | .restart _ => .isFalse id
  | .stop | .stopElsewhere | .tick _ | .activate _ | .wake | .handleEvent _ | .expire
  | .runTimer _ _ | .swap | .runFunctor _ | .finish => .isTrue trivial

/-- A step in which no assertion fails, or which comes after `stop()`, keeps the order. -/
theorem Orderly.step (h : Orderly s) {l : Label} (hstep : Step s l es t) (hsafe : s.RestartSafe l)
    (hsound : (∀ e, .failed e ∉ es) ∨ s.connector.connect_ = false ∧ s.NotStarted l) :
    Orderly t := by
  have hcases := step_cases hstep
  cases l with
  | start a =>
      obtain ⟨rfl, rfl⟩ := Traced.mk.inj hcases
      let s' : ConnectorSession := { s with connector := { s.connector with connect_ := true } }
      have hs' : Orderly s' := h.keep h.turn rfl rfl rfl rfl fun hnone => hnone
      exact hs'.startInLoop (Or.inl (hsound.resolve_right fun hno => hno.2))
  | startElsewhere =>
      obtain ⟨-, rfl⟩ := hcases
      exact h.keep (h.turn.push _) rfl rfl rfl (by simp [resets]) fun hnone => hnone
  | restart a =>
      obtain ⟨rfl, rfl⟩ := Traced.mk.inj hcases
      let s' : ConnectorSession := { s with connector := { s.connector with
        state := .kDisconnected
        retryDelayMs := Connector.kInitRetryDelayMs
        connect_ := true } }
      have hs' : Orderly s' := by
        refine ⟨h.turn, ?_⟩
        cases h.situation with
        | trying channel attempt _ => exact absurd attempt.state hsafe
        | resting hholds _ hreset hidle => exact .resting hholds (by simp [s']) hreset hidle
      exact hs'.startInLoop (Or.inl (hsound.resolve_right fun hno => hno.2))
  | stop =>
      obtain ⟨-, rfl⟩ := hcases
      exact h.keep h.turn rfl rfl rfl rfl fun hnone => hnone
  | stopElsewhere =>
      obtain ⟨-, rfl⟩ := hcases
      exact h.keep (h.turn.push _) rfl rfl rfl (by simp [resets]) fun hnone => hnone
  | tick _ | expire =>
      obtain ⟨-, rfl⟩ := hcases
      exact h.keep h.turn rfl rfl rfl rfl fun hnone => hnone
  | activate revents =>
      obtain ⟨channel, iteration, hchannel, hset, hactivate, -, rfl⟩ := hcases
      obtain ⟨hturn, hqueue⟩ := h.turn.activate hactivate
      cases h.situation with
      | resting hholds _ _ _ => exact absurd (hholds.absent channel.fd rfl).2 hset
      | trying channel' attempt hnone =>
          obtain rfl : channel = channel' := Option.some.inj (hchannel.symm.trans attempt.current)
          have hholds := attempt.holds.revents attempt.known revents
          rw [Function.update_idem] at hholds
          refine ⟨hturn, .trying { channel with revents } ⟨hholds, attempt.state, rfl, by simp⟩ ?_⟩
          rw [← hnone, resets, resets, hqueue]
  | wake =>
      obtain ⟨iteration, hwake, -, rfl⟩ := hcases
      obtain ⟨hturn, hqueue⟩ := h.turn.wake hwake
      obtain ⟨-, rfl⟩ := Iteration.wake_eq_some.mp hwake
      exact h.proceed hturn rfl fun hidle => hidle
  | handleEvent status =>
      obtain ⟨iteration, hnext, heq⟩ := hcases
      obtain ⟨rfl, rfl⟩ := Traced.mk.inj heq
      exact (h.handleEvent hnext status).1
  | runTimer timer a =>
      have hrun : Orderly { s with
          connector := { s.connector with timers := s.connector.timers.run timer } } :=
        h.keep h.turn rfl rfl rfl rfl fun hnone => hnone
      rcases hcases with heq | ⟨-, rfl⟩
      · obtain ⟨rfl, rfl⟩ := Traced.mk.inj heq
        exact hrun.startInLoop (hsound.imp_right And.left)
      · exact hrun
  | swap =>
      obtain ⟨iteration, hswap, -, rfl⟩ := hcases
      obtain ⟨hturn, hqueue⟩ := h.turn.swap hswap
      obtain ⟨-, hidle, rfl⟩ := Iteration.swap_eq_some.mp hswap
      exact h.proceed hturn hqueue fun _ => hidle
  | runFunctor a =>
      obtain ⟨f, iteration, hnext, heq⟩ := hcases
      obtain ⟨rfl, rfl⟩ := Traced.mk.inj heq
      exact h.execute hnext (hsound.imp_right And.left)
  | finish =>
      obtain ⟨iteration, hfinish, -, rfl⟩ := hcases
      obtain ⟨hturn, hqueue⟩ := h.turn.finish hfinish
      obtain ⟨-, -, rfl⟩ := Iteration.finish_eq_some.mp hfinish
      exact h.proceed hturn hqueue fun hidle => hidle

theorem orderly_of_run {clock numCreated : Nat} {ls : List Label}
    (h : Run (restrict RestartSafe Step) (create clock numCreated) ls es s)
    (hfailed : ∀ a, .failed a ∉ es) : Orderly s := by
  refine h.history (I := fun past u => (∀ a, .failed a ∉ past) → Orderly u) []
    (fun _ => orderly_create clock numCreated) (fun past u l es' v hpast hstep hnone => ?_) hfailed
  obtain ⟨hsafe, hstep⟩ := hstep
  simp only [List.mem_append, not_or] at hnone
  exact (hpast fun a => (hnone a).1).step hstep hsafe (Or.inl fun a => (hnone a).2)

/-! ## After `stop()` -/

/-- What shows after `stop()` until state `t`, if an attempt was being made in state `s`. -/
structure Winding (s : ConnectorSession) (es : List Event) (t : ConnectorSession) : Prop where
  noSocket : ∀ fd, .socket fd ∉ es
  noNew : ∀ fd, .newConnectionCallback fd ∉ es
  noRetry : t.connector.timers.numCreated = s.connector.timers.numCreated
  closes : ∀ fd, (es.count (.close fd) : Int) =
    s.connector.beingConnected fd - t.connector.beingConnected fd

theorem Winding.trans {u : ConnectorSession} {es' : List Event} (h : Winding s es t)
    (h' : Winding t es' u) : Winding s (es ++ es') u := by
  constructor
  case noSocket => exact fun fd => by simp [h.noSocket fd, h'.noSocket fd]
  case noNew => exact fun fd => by simp [h.noNew fd, h'.noNew fd]
  case noRetry => exact h'.noRetry.trans h.noRetry
  case closes =>
    intro fd
    have hfirst := h.closes fd
    have hsecond := h'.closes fd
    rw [List.count_append]
    omega

/-- Steps that show no more than a failure, and leave the channel alone. -/
theorem winding_of_failed (hfailed : ∀ e ∈ es, ∃ a, e = .failed a)
    (hsame : t.connector.connectingSocket = s.connector.connectingSocket)
    (hcreated : t.connector.timers.numCreated = s.connector.timers.numCreated) :
    Winding s es t := by
  have hnone {e : Event} (he : ∀ a, e ≠ .failed a) : e ∉ es := fun hmem =>
    (hfailed e hmem).elim he
  refine ⟨fun fd => hnone (by simp), fun fd => hnone (by simp), hcreated, fun fd => ?_⟩
  rw [List.count_eq_zero_of_not_mem (hnone (by simp)), Connector.beingConnected,
    Connector.beingConnected, hsame, Int.sub_self]
  rfl

theorem winding_startInLoop {c : Connector} (hoff : c.connect_ = false)
    (hsame : c.connectingSocket = s.connector.connectingSocket)
    (hcreated : c.timers.numCreated = s.connector.timers.numCreated) (a : Attempt)
    (iteration : Iteration Unit Functor) :
    (c.startInLoop a).val.connect_ = false ∧
      Winding s (c.startInLoop a).trace ⟨(c.startInLoop a).val, iteration⟩ := by
  obtain ⟨hval, hfails⟩ := startInLoop_off hoff a
  rw [hval]
  exact ⟨hoff, winding_of_failed hfails hsame hcreated⟩

/-- `stop()` has run, and nobody has started the connector again. -/
structure Stopped (s : ConnectorSession) : Prop where
  orderly : Orderly s
  off : s.connector.connect_ = false

theorem Orderly.stopped (h : Orderly s) : Stopped s.stopped :=
  ⟨h.keep h.turn rfl rfl rfl rfl fun hnone => hnone, rfl⟩

/-- Nothing is handed over, and no retry is scheduled. -/
theorem Stopped.handled (h : Stopped s) {channel : Channel} {poller : EPoller}
    (hattempt : s.connector.Connecting
      (Function.update (fun _ => none) channel.fd (some channel)) channel)
    {x : Traced Event Connector} (hhandled : Handled s.connector channel
      { s.connector with poller, channel := some (Connector.removed channel) } x) :
    Winding s x.trace (s.perform x).val ∧ x.val.connect_ = false := by
  have hclosed {t : ConnectorSession} (hstate : t.connector.state ≠ .kConnecting)
      (hcreated : t.connector.timers.numCreated = s.connector.timers.numCreated) :
      Winding s [.queuedReset, .close channel.fd] t := by
    refine ⟨by simp, by simp, hcreated, fun fd => ?_⟩
    rw [hattempt.beingConnected, Connector.beingConnected_of_ne hstate, Int.sub_zero]
    by_cases hfd : channel.fd = fd <;> simp [hfd]
  cases hhandled with
  | goesOn => exact ⟨winding_of_failed (by simp) rfl rfl, h.off⟩
  | failed =>
      rcases Connector.retry_timers { s.connector with
        poller, channel := some (Connector.removed channel) } channel.fd with
        ⟨hon, -⟩ | ⟨-, -, htimers⟩
      · exact absurd hon (by simp [h.off])
      · refine ⟨hclosed (by simp [perform]) ?_, by simp [h.off]⟩
        simp [perform, htimers]
  | handedOver hon => exact absurd hon (by simp [h.off])
  | abandoned _ => exact ⟨hclosed (by simp [perform]) rfl, h.off⟩

/-- Every step after `stop()`. -/
theorem Stopped.step (h : Stopped s) {l : Label} (hstep : Step s l es t) (hl : s.NotStarted l) :
    Stopped t ∧ Winding s es t := by
  have hsafe : s.RestartSafe l := by
    cases l with
    | restart a => exact absurd hl id
    | start _ | startElsewhere | stop | stopElsewhere | tick _ | activate _ | wake
    | handleEvent _ | expire | runTimer _ _ | swap | runFunctor _ | finish => trivial
  have horderly := h.orderly.step hstep hsafe (Or.inr ⟨h.off, hl⟩)
  suffices hkept : t.connector.connect_ = false ∧ Winding s es t from
    ⟨⟨horderly, hkept.1⟩, hkept.2⟩
  have hcases := step_cases hstep
  cases l with
  | start _ | startElsewhere | restart _ => exact absurd hl id
  | stop =>
      obtain ⟨rfl, rfl⟩ := hcases
      exact ⟨rfl, winding_of_failed (by simp) rfl rfl⟩
  | stopElsewhere =>
      obtain ⟨rfl, rfl⟩ := hcases
      exact ⟨rfl, winding_of_failed (by simp) rfl rfl⟩
  | tick _ | expire =>
      obtain ⟨rfl, rfl⟩ := hcases
      exact ⟨h.off, winding_of_failed (by simp) rfl rfl⟩
  | activate revents =>
      obtain ⟨channel, iteration, hchannel, -, -, rfl, rfl⟩ := hcases
      refine ⟨h.off, winding_of_failed (by simp) ?_ rfl⟩
      simp [Connector.connectingSocket, hchannel]
  | wake | swap | finish =>
      obtain ⟨iteration, -, rfl, rfl⟩ := hcases
      exact ⟨h.off, winding_of_failed (by simp) rfl rfl⟩
  | handleEvent status =>
      obtain ⟨iteration, hnext, heq⟩ := hcases
      obtain ⟨rfl, rfl⟩ := Traced.mk.inj heq
      obtain ⟨-, channel, poller, hattempt, hhandled⟩ := h.orderly.handleEvent hnext status
      obtain ⟨hwinding, hoff⟩ := h.handled hattempt hhandled
      exact ⟨hoff, hwinding.noSocket, hwinding.noNew, hwinding.noRetry, hwinding.closes⟩
  | runTimer timer a =>
      rcases hcases with heq | ⟨rfl, rfl⟩
      · obtain ⟨rfl, rfl⟩ := Traced.mk.inj heq
        exact winding_startInLoop (c := { s.connector with
          timers := s.connector.timers.run timer }) h.off rfl rfl a _
      · exact ⟨h.off, winding_of_failed (by simp) rfl rfl⟩
  | runFunctor a =>
      obtain ⟨f, iteration, hnext, heq⟩ := hcases
      obtain ⟨rfl, rfl⟩ := Traced.mk.inj heq
      cases f with
      | resetChannel =>
          refine ⟨h.off, winding_of_failed (by simp) ?_ rfl⟩
          cases h.orderly.situation with
          | trying channel attempt hnone =>
              simp [resets, (h.orderly.turn.nextFunctor hnext).2] at hnone
          | resting _ hstate _ _ =>
              simp [Connector.resetChannel, Connector.connectingSocket, hstate]
      | startInLoop => exact winding_startInLoop h.off rfl rfl a _
      | cancel timerId => exact ⟨h.off, winding_of_failed (by simp) rfl rfl⟩

theorem Stopped.run (h : Stopped s) {ls : List Label}
    (hrun : Run (restrict NotStarted Step) s ls es t) : Stopped t ∧ Winding s es t := by
  refine hrun.history (I := fun past u => Stopped u ∧ Winding s past u) []
    ⟨h, winding_of_failed (by simp) rfl rfl⟩ ?_
  rintro past u l es' v ⟨hstopped, hpast⟩ ⟨hl, hstep⟩
  obtain ⟨hnext, hwinding⟩ := hstopped.step hstep hl
  exact ⟨hnext, hpast.trans hwinding⟩

/-- In this step the event comes that completes the attempt on `fd`: the channel of the connector
calls `handleWrite` or `handleError`. -/
def Completes (s : ConnectorSession) (fd : Int) : Label → Prop
  | .handleEvent _ => ∃ channel ∈ s.connector.channel, channel.fd = fd ∧
      (.errorCallback ∈ channel.handleEvent ∨ .writeCallback ∈ channel.handleEvent)
  | _ => False

instance (s : ConnectorSession) (fd : Int) (status : SocketStatus) :
    Decidable (s.Completes fd (.handleEvent status)) :=
  inferInstanceAs (Decidable (∃ channel ∈ _, _ ∧ _))

/-- What `stop()` promises when it is called in this state. -/
structure StopEffective (s : ConnectorSession) : Prop where
  noSocket : ∀ ls es t, Run (restrict NotStarted Step) s.stopped ls es t → ∀ fd, .socket fd ∉ es
  noRetry : ∀ ls es t, Run (restrict NotStarted Step) s.stopped ls es t →
    t.connector.timers.numCreated = s.connector.timers.numCreated
  noNew : ∀ ls es t, Run (restrict NotStarted Step) s.stopped ls es t →
    ∀ fd, .newConnectionCallback fd ∉ es
  closedOnce : ∀ ls es t l es' u ls' es'' v fd, Run (restrict NotStarted Step) s.stopped ls es t →
    t.Completes fd l → Step t l es' u → Run (restrict NotStarted Step) u ls' es'' v →
    (es ++ es' ++ es'').count (.close fd) = 1

/-- An attempt that completes has its socket closed in this step. -/
theorem Stopped.completes (h : Stopped s) {l : Label} {fd : Int} (hl : s.Completes fd l)
    (hstep : Step s l es t) : Stopped t ∧ Winding s es t ∧
      s.connector.beingConnected fd = 1 ∧ t.connector.beingConnected fd = 0 := by
  cases l with
  | handleEvent status =>
      obtain ⟨hnext, hwinding⟩ := h.step hstep trivial
      refine ⟨hnext, hwinding, ?_⟩
      obtain ⟨iteration, hiteration, heq⟩ := step_cases hstep
      obtain ⟨rfl, rfl⟩ := Traced.mk.inj heq
      obtain ⟨-, channel, poller, hattempt, -⟩ := h.orderly.handleEvent hiteration status
      obtain ⟨channel', hchannel, rfl, hcalls⟩ := hl
      obtain rfl : channel = channel' := Option.some.inj (hattempt.current.symm.trans hchannel)
      refine ⟨by simp [hattempt.beingConnected], ?_⟩
      exact Connector.beingConnected_of_ne (Connector.handleEvent_ends hattempt status hcalls) _
  | start _ | startElsewhere | restart _ | stop | stopElsewhere | tick _ | activate _ | wake
  | expire | runTimer _ _ | swap | runFunctor _ | finish => exact absurd hl id

theorem Orderly.stopEffective (h : Orderly s) : StopEffective s := by
  constructor
  case noSocket => exact fun ls es t hrun => (h.stopped.run hrun).2.noSocket
  case noRetry => exact fun ls es t hrun => (h.stopped.run hrun).2.noRetry
  case noNew => exact fun ls es t hrun => (h.stopped.run hrun).2.noNew
  case closedOnce =>
    intro ls es t l es' u ls' es'' v fd hbefore hl hstep hafter
    obtain ⟨ht, hfirst⟩ := h.stopped.run hbefore
    obtain ⟨hu, hends, hone, hzero⟩ := ht.completes hl hstep
    obtain ⟨-, hlast⟩ := hu.run hafter
    have hbefore := hfirst.closes fd
    have hnow := hends.closes fd
    have hafter := hlast.closes fd
    have hle := Connector.beingConnected_le s.stopped.connector fd
    have hpos := Connector.beingConnected_nonneg v.connector fd
    rw [List.count_append, List.count_append]
    omega

/-- **`stop()` is effective** in every state that a run reaches in which no assertion has failed
and `restart()` was called while no attempt was being made. -/
theorem stop_effective {clock numCreated : Nat} {ls : List Label}
    (h : Run (restrict RestartSafe Step) (create clock numCreated) ls es s)
    (hfailed : ∀ a, .failed a ∉ es) : StopEffective s :=
  (orderly_of_run h hfailed).stopEffective

/-- A connection is handed over, and the connector is restarted.  Another thread stops it and
starts it again while the new attempt is being made. -/
def restarted : List Label :=
  [.start ⟨7, .EINPROGRESS, 1⟩, .activate POLLOUT, .wake, .handleEvent ⟨0, false⟩, .swap,
    .runFunctor ⟨0, .zero, 0⟩, .finish, .wake, .restart ⟨8, .EINPROGRESS, 2⟩, .stopElsewhere,
    .startElsewhere]

theorem stop_effective_restarted :
    ∃ es s, Run (restrict RestartSafe Step) (create 0 0) restarted es s ∧
      s.connector.connectingSocket = some 8 ∧ StopEffective s := by
  obtain ⟨es, s, hrun, hshown, hsocket⟩ : ∃ es s,
      Run (restrict RestartSafe Step) (create 0 0) restarted es s ∧
        es = [.socket 7, .queuedReset, .newConnectionCallback 7, .socket 8] ∧
        s.connector.connectingSocket = some 8 := Run.exists_of_exec_guarded _ (by decide +kernel)
  exact ⟨es, s, hrun, hsocket, stop_effective hrun (by simp [hshown])⟩

/-- The connector is restarted while it makes an attempt, and the new attempt fails at once.  There
is another timer in the loop: when `stop()` erases the last one, `TimerQueue::cancelInLoop` fails
its assertion `itErase != activeTimers_.end()`. -/
def forgotten : List Label := [.start ⟨7, .EINPROGRESS, 1⟩, .restart ⟨8, .EAGAIN, 2⟩]

/-- No assertion fails, but the first socket is not closed when its attempt completes. -/
theorem not_stopEffective_forgotten :
    ∃ es s, Run Step (create 0 0) forgotten es s ∧ (∀ a, .failed a ∉ es) ∧ ¬StopEffective s := by
  obtain ⟨es, s, hrun, hshown, hcompletes⟩ : ∃ es s, Run Step (create 0 0) forgotten es s ∧
      es = [.socket 7, .socket 8, .close 8] ∧
      (exec (guarded NotStarted step) s.stopped [.activate POLLOUT, .wake]).any (fun x =>
        x.trace = [] ∧ x.val.Completes 7 (.handleEvent ⟨0, false⟩) ∧
          (step x.val (.handleEvent ⟨0, false⟩)).any (fun y => y.trace = []) = true) = true :=
    Run.exists_of_exec _ (by decide +kernel)
  obtain ⟨es', t, hlater, rfl, hcalls, hstep⟩ : ∃ es' t,
      Run (restrict NotStarted Step) s.stopped [.activate POLLOUT, .wake] es' t ∧ es' = [] ∧
        t.Completes 7 (.handleEvent ⟨0, false⟩) ∧
        (step t (.handleEvent ⟨0, false⟩)).any (fun y => y.trace = []) = true :=
    Run.exists_of_exec_guarded _ hcompletes
  obtain ⟨⟨u, es''⟩, hevent, hquiet⟩ := (Option.any_eq_true _ _).mp hstep
  obtain rfl : es'' = [] := of_decide_eq_true hquiet
  refine ⟨es, s, hrun, by simp [hshown], fun heffective => ?_⟩
  have honce := heffective.closedOnce _ _ _ _ _ _ _ _ _ 7 hlater hcalls hevent (.nil u)
  simp at honce

end ConnectorSession
end Chaonet
