import Chaonet.Client.Connector
import Chaonet.Foundation.Run
import Chaonet.Reactor.Iteration

/-!
# A connector in its loop

`ConnectorLoop` is a connector with the part of its event loop that concerns it.  The user
calls `start()` and `stop()` in turn, at any point on the loop thread; the loop polls, lets
the channel handle its event, runs expired timers and pending functors.

Not every such run respects the assertions of the class: `stop()` changes neither `state_`
nor `channel_`, and takes no timer out of a batch that is being run.  `Permitted` is what
`start()` and the retry timer must find, and then there is one attempt at a time
(`one_attempt_at_a_time`).
-/

namespace Chaonet

open Foundation

/-- The functor a connector queues. -/
inductive ConnectorFunctor
  | resetChannel
deriving DecidableEq, Repr

structure ConnectorLoop where
  connector : Connector
  iteration : Iteration Unit ConnectorFunctor
  /-- Whether the last public call was `start()`. -/
  started : Bool

namespace ConnectorLoop

open Connector (Event Sound Accounted ledger)

/-- The functors a member passed to `queueInLoop`. -/
def queuedBy (es : List Event) : List ConnectorFunctor :=
  es.filterMap fun
    | .queuedReset => some .resetChannel
    | _ => none

/-- Let a member of the connector take effect. -/
def perform (s : ConnectorLoop) (x : Traced Event Connector) : Traced Event ConnectorLoop :=
  ⟨{ s with connector := x.val, iteration := s.iteration.push (queuedBy x.trace) }, x.trace⟩

inductive Label
  | start (a : Attempt)
  | stop
  | tick (micros : Nat)
  /-- `poll` finds the channel with these `revents`. -/
  | activate (revents : EventMask)
  | wake
  | handleEvent (status : SocketStatus)
  /-- `TimerQueue::handleRead` collects its batch. -/
  | expire
  | runTimer (t : Shot ClientTimer) (a : Attempt)
  | swap
  | runFunctor
  | finish
deriving DecidableEq, Repr

/-- Move on in the iteration, when no timer of a batch is left to run. -/
def proceed (s : ConnectorLoop) (moved : Option (Iteration Unit ConnectorFunctor)) :
    Option (Traced Event ConnectorLoop) :=
  if s.connector.timers.expired = [] then
    moved.map fun iteration => pure { s with iteration }
  else none

/-- The enabled steps. -/
def step (s : ConnectorLoop) : Label → Option (Traced Event ConnectorLoop)
  | .start a =>
      if s.started = false then some ({ s with started := true }.perform (s.connector.start a))
      else none
  | .stop =>
      if s.started = true then
        some (pure { s with connector := s.connector.stop, started := false })
      else none
  | .tick micros =>
      let timers := s.connector.timers.tick micros
      some (pure { s with connector := { s.connector with timers } })
  | .activate revents =>
      match s.connector.channel with
      | none => none
      | some channel =>
          if s.connector.poller.epollSet channel.fd ≠ none then
            (s.iteration.activate ()).map fun iteration =>
              let channel := some { channel with revents }
              pure { s with connector := { s.connector with channel }, iteration }
          else none
  | .wake => s.proceed (s.iteration.wake s.connector.timers.clock)
  | .handleEvent status =>
      if s.connector.timers.expired = [] then
        s.iteration.next.map fun r =>
          { s with iteration := r.2 }.perform (s.connector.handleEvent status)
      else none
  | .expire =>
      if s.iteration.phase = .handling ∧ s.connector.timers.expired = [] then
        let timers := s.connector.timers.handleRead
        some (pure { s with connector := { s.connector with timers } })
      else none
  | .runTimer t a =>
      if s.iteration.phase = .handling ∧ t ∈ s.connector.timers.expired then
        let connector := { s.connector with timers := s.connector.timers.run t }
        match t.callback with
        | .startInLoop => some (s.perform (connector.startInLoop a))
        | .removeConnector => some (pure { s with connector })
      else none
  | .swap => s.proceed s.iteration.swap
  | .runFunctor =>
      s.iteration.nextFunctor.map fun r =>
        match r.1 with
        | .resetChannel =>
            pure { s with connector := s.connector.resetChannel, iteration := r.2 }
  | .finish => s.proceed s.iteration.finish

def Step : ConnectorLoop → Label → List Event → ConnectorLoop → Prop := stepOf step

/-- A new connector in a new loop. -/
def start (clock numCreated : Nat) : ConnectorLoop :=
  { connector := .create .create (.create clock numCreated)
    iteration := .create clock
    started := false }

/-- What `start()` and a retry timer must find: `start()` comes after an attempt that is
over, and can be followed by no retry timer of the running batch; an attempt that goes on finds
the channel of the last one destroyed. -/
def Permitted (s : ConnectorLoop) : Label → Prop
  | .start a =>
      s.connector.state = .kDisconnected ∧
        (a.savedErrno.progress = .connecting → s.connector.channel = none) ∧
        (a.savedErrno.progress ≠ .close → s.connector.timers.expired = [])
  | .runTimer _ a =>
      s.connector.connect_ = true → a.savedErrno.progress = .connecting →
        s.connector.channel = none
  | _ => True

instance (s : ConnectorLoop) : ∀ l, Decidable (s.Permitted l)
  | .start _ => inferInstanceAs (Decidable (_ ∧ _ ∧ _))
  | .runTimer _ _ => inferInstanceAs (Decidable (_ → _ → _))
  | .stop | .tick _ | .activate _ | .wake | .handleEvent _ | .expire | .swap | .runFunctor
  | .finish => .isTrue trivial

theorem proceed_eq_some {s t : ConnectorLoop} {es : List Event}
    {moved : Option (Iteration Unit ConnectorFunctor)} (h : s.proceed moved = some ⟨t, es⟩) :
    ∃ iteration, moved = some iteration ∧ es = [] ∧ t = { s with iteration } := by
  unfold proceed at h
  split_ifs at h
  obtain ⟨iteration, hmoved, heq⟩ := Option.map_eq_some_iff.mp h
  obtain ⟨rfl, rfl⟩ := Traced.mk.inj heq
  exact ⟨iteration, hmoved, rfl, rfl⟩

/-- What each step does, as one proposition. -/
theorem step_cases {s t : ConnectorLoop} {l : Label} {es : List Event} (h : Step s l es t) :
    match l with
    | .start a => s.started = false ∧
        ⟨t, es⟩ = { s with started := true }.perform (s.connector.start a)
    | .stop => es = [] ∧ t = { s with connector := s.connector.stop, started := false }
    | .tick micros => es = [] ∧ t = { s with
        connector := { s.connector with timers := s.connector.timers.tick micros } }
    | .activate revents => ∃ channel iteration, s.connector.channel = some channel ∧
        s.connector.poller.epollSet channel.fd ≠ none ∧
        s.iteration.activate () = some iteration ∧ es = [] ∧
        t = { s with
          connector := { s.connector with channel := some { channel with revents } }
          iteration }
    | .wake => ∃ iteration, s.iteration.wake s.connector.timers.clock = some iteration ∧
        es = [] ∧ t = { s with iteration }
    | .handleEvent status => ∃ iteration, s.iteration.next = some ((), iteration) ∧
        ⟨t, es⟩ = { s with iteration }.perform (s.connector.handleEvent status)
    | .expire => s.connector.timers.expired = [] ∧ es = [] ∧ t = { s with
        connector := { s.connector with timers := s.connector.timers.handleRead } }
    | .runTimer timer a => timer ∈ s.connector.timers.expired ∧
        let connector := { s.connector with timers := s.connector.timers.run timer }
        ⟨t, es⟩ = s.perform (connector.startInLoop a) ∨ es = [] ∧ t = { s with connector }
    | .swap => ∃ iteration, s.iteration.swap = some iteration ∧ es = [] ∧
        t = { s with iteration }
    | .runFunctor => ∃ iteration, s.iteration.nextFunctor = some (.resetChannel, iteration) ∧
        es = [] ∧ t = { s with connector := s.connector.resetChannel, iteration }
    | .finish => ∃ iteration, s.iteration.finish = some iteration ∧ es = [] ∧
        t = { s with iteration } := by
  cases l with
  | start a =>
      simp only [Step, stepOf, step] at h
      split_ifs at h with hguard
      exact ⟨hguard, (Option.some.inj h).symm⟩
  | stop =>
      simp only [Step, stepOf, step] at h
      split_ifs at h with hguard
      obtain ⟨rfl, rfl⟩ := Traced.mk.inj (Option.some.inj h)
      exact ⟨rfl, rfl⟩
  | tick micros =>
      obtain ⟨rfl, rfl⟩ := Traced.mk.inj (Option.some.inj h)
      exact ⟨rfl, rfl⟩
  | activate revents =>
      simp only [Step, stepOf, step] at h
      cases hchannel : s.connector.channel with
      | none => simp [hchannel] at h
      | some channel =>
          simp only [hchannel] at h
          split_ifs at h with hset
          obtain ⟨iteration, hiteration, heq⟩ := Option.map_eq_some_iff.mp h
          obtain ⟨rfl, rfl⟩ := Traced.mk.inj heq
          exact ⟨channel, iteration, rfl, hset, hiteration, rfl, rfl⟩
  | wake => exact proceed_eq_some h
  | handleEvent status =>
      simp only [Step, stepOf, step] at h
      split_ifs at h
      obtain ⟨⟨⟨⟩, iteration⟩, hiteration, heq⟩ := Option.map_eq_some_iff.mp h
      exact ⟨iteration, hiteration, heq.symm⟩
  | expire =>
      simp only [Step, stepOf, step] at h
      split_ifs at h with hguard
      obtain ⟨rfl, rfl⟩ := Traced.mk.inj (Option.some.inj h)
      exact ⟨hguard.2, rfl, rfl⟩
  | runTimer timer a =>
      simp only [Step, stepOf, step] at h
      split_ifs at h with hguard
      refine ⟨hguard.2, ?_⟩
      cases hcallback : timer.callback with
      | startInLoop =>
          simp only [hcallback, Option.some.injEq] at h
          exact Or.inl h.symm
      | removeConnector =>
          simp only [hcallback] at h
          obtain ⟨rfl, rfl⟩ := Traced.mk.inj (Option.some.inj h)
          exact Or.inr ⟨rfl, rfl⟩
  | swap => exact proceed_eq_some h
  | runFunctor =>
      obtain ⟨⟨⟨⟩, iteration⟩, hiteration, heq⟩ := Option.map_eq_some_iff.mp h
      obtain ⟨rfl, rfl⟩ := Traced.mk.inj heq
      exact ⟨iteration, hiteration, rfl, rfl⟩
  | finish => exact proceed_eq_some h

/-! ## One attempt at a time -/

/-- Either an attempt is being made, whose channel is registered, or no channel is
registered, and the last one waits for its `resetChannel`. -/
inductive Situation (s : ConnectorLoop) : Prop
  | trying (channel : Channel)
      (attempt : s.connector.Connecting
        (Function.update (fun _ => none) channel.fd (some channel)) channel)
      (queued : s.iteration.queue.queued = [])
      (waiting : s.connector.timers.waiting = [])
  | resting (holds : s.connector.poller.Holds fun _ => none)
      (state : s.connector.state ≠ .kConnecting)
      (queued : s.iteration.queue.queued =
        s.connector.channel.toList.map fun _ => .resetChannel)
      (active : s.iteration.active = [])
      (waiting : s.connector.state = .kConnected → s.connector.timers.waiting = [])

structure Orderly (s : ConnectorLoop) : Prop where
  turn : s.iteration.InTurn
  situation : Situation s
  /-- There is one retry timer at most, and `timerId_` names it. -/
  one : s.connector.timers.waiting.length ≤ 1
  named : ∀ t ∈ s.connector.timers.scheduled, s.connector.timerId = some t.sequence
  stopped : s.started = false →
    s.connector.connect_ = false ∧ s.connector.timers.scheduled = []

theorem orderly_start (clock numCreated : Nat) : Orderly (start clock numCreated) := by
  refine ⟨.create clock, .resting .create ?_ rfl rfl fun _ => rfl, ?_, ?_, fun _ => ⟨rfl, rfl⟩⟩
  · simp [start, Connector.create]
  · simp [start, Connector.create, OneShots.create, OneShots.waiting]
  · simp [start, Connector.create, OneShots.create]

variable {s t : ConnectorLoop}

/-- A try of `connect()` by a connector that is started and has no other attempt. -/
theorem connect_orderly (h : Orderly s) {a : Attempt} (hstarted : s.started = true)
    (hstate : s.connector.state = .kDisconnected)
    (hnone : a.savedErrno.progress = .connecting → s.connector.channel = none)
    (hwaiting : a.savedErrno.progress ≠ .close → s.connector.timers.waiting = []) :
    Orderly (s.perform (s.connector.connect a)).val ∧
      Accounted s.connector (s.connector.connect a) := by
  have hne : s.connector.state ≠ .kConnecting := by simp [hstate]
  cases h.situation with
  | trying channel attempt _ _ => exact absurd attempt.state hne
  | resting hholds _ hqueued hactive _ =>
      have htried := Connector.connect_spec hholds
        (a := a) (fun hprogress => ⟨hnone hprogress, rfl⟩)
      refine ⟨?_, htried.accounted hne⟩
      generalize s.connector.connect a = x at htried
      cases htried with
      | connecting poller channel hprogress hfd hindex hafter =>
          have hempty := hwaiting (by simp [hprogress])
          have hqueue : s.iteration.queue.queued = [] := by simpa [hnone hprogress] using hqueued
          have hattempt : Connector.Connecting { s.connector with
              state := .kConnecting, poller, channel := some channel }
              (Function.update (fun _ => none) channel.fd (some channel)) channel :=
            ⟨by rw [hfd]; exact hafter, rfl, rfl, by simp⟩
          refine ⟨h.turn.push _, .trying channel hattempt ?_ hempty, h.one, h.named, ?_⟩
          · simpa [perform, queuedBy] using hqueue
          · exact fun hstop => by simp [perform, hstarted] at hstop
      | retried hprogress =>
          obtain ⟨hone, hnamed⟩ :=
            Connector.retry_waiting (hwaiting (by simp [hprogress])) a.sockfd
          refine ⟨h.turn.push _, .resting ?_ ?_ ?_ hactive ?_, hone, hnamed, ?_⟩
          · simpa [perform] using hholds
          · simp [perform]
          · simpa [perform, queuedBy] using hqueued
          · exact fun hconnected => by simp [perform] at hconnected
          · exact fun hstop => by simp [perform, hstarted] at hstop
      | closed hprogress =>
          refine ⟨h.turn.push _, .resting hholds hne ?_ hactive ?_, h.one, h.named, h.stopped⟩
          · simpa [perform, queuedBy] using hqueued
          · exact fun hconnected => by simp [perform, hstate] at hconnected

/-- An event ends the attempt or changes nothing. -/
theorem handleEvent_orderly (h : Orderly s) {iteration : Iteration Unit ConnectorFunctor}
    (hnext : s.iteration.next = some ((), iteration)) (status : SocketStatus) :
    Orderly ({ s with iteration }.perform (s.connector.handleEvent status)).val ∧
      Accounted s.connector (s.connector.handleEvent status) := by
  obtain ⟨hturn, hqueue⟩ := h.turn.next hnext
  obtain ⟨-, hactive, -⟩ := Iteration.next_eq_some.mp hnext
  have hlast : iteration.active = [] :=
    List.eq_nil_iff_forall_not_mem.mpr fun _ hu => h.turn.next_fresh hnext hu
  cases h.situation with
  | resting _ _ _ hidle _ => simp [hidle] at hactive
  | trying channel attempt hqueued hwaiting =>
      obtain ⟨poller, hholds, hhandled⟩ := Connector.handleEvent_spec attempt status
      refine ⟨?_, hhandled.accounted attempt⟩
      rw [Function.update_idem, Function.update_eq_self_iff.mpr rfl] at hholds
      have hfinished : ({ s with iteration } : ConnectorLoop).iteration.queue.queued ++
          [ConnectorFunctor.resetChannel] = [.resetChannel] := by
        simp [hqueue, hqueued]
      generalize s.connector.handleEvent status = x at hhandled
      cases hhandled with
      | goesOn =>
          refine ⟨hturn.push _, .trying channel attempt ?_ hwaiting, h.one, h.named, h.stopped⟩
          simpa [perform, queuedBy, hqueue] using hqueued
      | failed =>
          obtain ⟨hone, hnamed⟩ := Connector.retry_waiting (c := { s.connector with
            poller, channel := some (Connector.removed channel) }) hwaiting channel.fd
          refine ⟨hturn.push _, .resting ?_ ?_ ?_ hlast ?_, hone, hnamed, ?_⟩
          · simpa [perform] using hholds
          · simp [perform]
          · simpa [perform, queuedBy] using hfinished
          · exact fun hconnected => by simp [perform] at hconnected
          · intro hstop
            obtain ⟨hconnect, hscheduled⟩ := h.stopped hstop
            refine ⟨by simpa [perform] using hconnect, ?_⟩
            simpa [perform, Connector.retry, hconnect] using hscheduled
      | handedOver =>
          refine ⟨hturn.push _, .resting hholds ?_ ?_ hlast fun _ => hwaiting, h.one, h.named,
            h.stopped⟩
          · simp [perform]
          · simpa [perform, queuedBy] using hfinished
      | abandoned =>
          refine ⟨hturn.push _, .resting hholds ?_ ?_ hlast fun _ => hwaiting, h.one, h.named,
            h.stopped⟩
          · simp [perform]
          · simpa [perform, queuedBy] using hfinished

/-- What the connector does not see: the iteration goes on, with the same functors. -/
theorem orderly_proceed (h : Orderly s) {iteration : Iteration Unit ConnectorFunctor}
    (hturn : iteration.InTurn) (hqueue : iteration.queue.queued = s.iteration.queue.queued)
    (hactive : s.iteration.active = [] → iteration.active = []) :
    Orderly { s with iteration } := by
  refine ⟨hturn, ?_, h.one, h.named, h.stopped⟩
  cases h.situation with
  | trying channel attempt hqueued hwaiting =>
      exact .trying channel attempt (hqueue.trans hqueued) hwaiting
  | resting hholds hstate hqueued hidle hwaiting =>
      exact .resting hholds hstate (hqueue.trans hqueued) (hactive hidle) hwaiting

/-- Timers go away, or from the schedule into the batch. -/
theorem orderly_timers (h : Orderly s) (timers : OneShots ClientTimer)
    (hwaiting : timers.waiting.length ≤ s.connector.timers.waiting.length)
    (hscheduled : ∀ t ∈ timers.scheduled, t ∈ s.connector.timers.scheduled) :
    Orderly { s with connector := { s.connector with timers } } := by
  have hempty (hnone : s.connector.timers.waiting = []) : timers.waiting = [] := by
    rw [hnone] at hwaiting
    exact List.length_eq_zero_iff.mp (Nat.le_zero.mp hwaiting)
  refine ⟨h.turn, ?_, Nat.le_trans hwaiting h.one, fun t ht => h.named t (hscheduled t ht), ?_⟩
  · cases h.situation with
    | trying channel attempt hqueued hnone =>
        exact .trying channel ⟨attempt.holds, attempt.state, attempt.current, attempt.known⟩
          hqueued (hempty hnone)
    | resting hholds hstate hqueued hidle hnone =>
        exact .resting hholds hstate hqueued hidle fun hconnected => hempty (hnone hconnected)
  · intro hstop
    obtain ⟨hconnect, hnone⟩ := h.stopped hstop
    refine ⟨hconnect, List.eq_nil_iff_forall_not_mem.mpr fun t ht => ?_⟩
    simpa [hnone] using hscheduled t ht

/-- What a step shows is accounted for. -/
def StepAccounted (s t : ConnectorLoop) (es : List Event) : Prop :=
  Accounted s.connector ⟨t.connector, es⟩

theorem stepAccounted_nil
    (h : t.connector.connectingSocket = s.connector.connectingSocket) : StepAccounted s t [] := by
  refine ⟨Connector.sound_nil, fun fd => ?_⟩
  simp [Connector.beingConnected, h]

/-- A step that meets the condition keeps the order. -/
theorem orderly_step {l : Label} {es : List Event} (h : Orderly s) (hpermitted : s.Permitted l)
    (hstep : Step s l es t) : Orderly t ∧ StepAccounted s t es := by
  have hcases := step_cases hstep
  cases l with
  | start a =>
      obtain ⟨hstarted, heq⟩ := hcases
      obtain ⟨hstate, hnone, hexpired⟩ := hpermitted
      obtain ⟨-, hscheduled⟩ := h.stopped hstarted
      -- `connect_` is set before `startInLoop` runs.
      let s' : ConnectorLoop :=
        { s with connector := { s.connector with connect_ := true }, started := true }
      have hs' : Orderly s' := by
        refine ⟨h.turn, ?_, h.one, h.named, fun hstop => by simp [s'] at hstop⟩
        cases h.situation with
        | trying channel attempt _ _ => exact absurd attempt.state (by simp [hstate])
        | resting hholds hne hqueued hidle hwaiting =>
            exact .resting hholds hne hqueued hidle hwaiting
      have hresult := connect_orderly hs' (a := a) rfl hstate hnone
        (fun hprogress => OneShots.waiting_eq_nil.mpr ⟨hscheduled, hexpired hprogress⟩)
      have hstart : s.connector.start a = s'.connector.connect a :=
        Connector.startInLoop_connect (c := { s.connector with connect_ := true }) hstate rfl a
      rw [hstart] at heq
      obtain ⟨rfl, rfl⟩ := Traced.mk.inj heq
      exact ⟨hresult.1, hresult.2.sound, hresult.2.ledger⟩
  | stop =>
      obtain ⟨rfl, rfl⟩ := hcases
      have htimers := orderly_timers h (s.connector.timers.cancel s.connector.timerId)
        (OneShots.waiting_cancel_sublist _ _).length_le (fun t ht => List.mem_of_mem_filter ht)
      refine ⟨⟨htimers.turn, ?_, htimers.one, htimers.named, fun _ => ⟨rfl, ?_⟩⟩,
        stepAccounted_nil rfl⟩
      · cases htimers.situation with
        | trying channel attempt hqueued hnone =>
            exact .trying channel ⟨attempt.holds, attempt.state, attempt.current, attempt.known⟩
              hqueued hnone
        | resting hholds hstate hqueued hidle hnone =>
            exact .resting hholds hstate hqueued hidle hnone
      · exact OneShots.scheduled_cancel h.named
  | tick micros =>
      obtain ⟨rfl, rfl⟩ := hcases
      exact ⟨orderly_timers h _ (Nat.le_refl _) (fun _ ht => ht), stepAccounted_nil rfl⟩
  | activate revents =>
      obtain ⟨channel, iteration, hchannel, hset, hactivate, rfl, rfl⟩ := hcases
      obtain ⟨hturn, hqueue⟩ := h.turn.activate hactivate
      cases h.situation with
      | resting hholds _ _ _ _ => exact absurd (hholds.absent channel.fd rfl).2 hset
      | trying channel' attempt hqueued hwaiting =>
          obtain rfl : channel = channel' := Option.some.inj (hchannel.symm.trans attempt.current)
          have hholds := attempt.holds.revents attempt.known revents
          rw [Function.update_idem] at hholds
          refine ⟨⟨hturn, .trying { channel with revents } ⟨hholds, attempt.state, rfl, by simp⟩ ?_
            hwaiting, h.one, h.named, h.stopped⟩, stepAccounted_nil ?_⟩
          · rw [← hqueued, ← hqueue]
          · simp [Connector.connectingSocket, attempt.state, attempt.current]
  | wake =>
      obtain ⟨iteration, hwake, rfl, rfl⟩ := hcases
      obtain ⟨hturn, hqueue⟩ := h.turn.wake hwake
      obtain ⟨-, rfl⟩ := Iteration.wake_eq_some.mp hwake
      exact ⟨orderly_proceed h hturn (by rw [hqueue]) (fun hidle => hidle), stepAccounted_nil rfl⟩
  | handleEvent status =>
      obtain ⟨iteration, hnext, heq⟩ := hcases
      obtain ⟨rfl, rfl⟩ := Traced.mk.inj heq
      exact handleEvent_orderly h hnext status
  | expire =>
      obtain ⟨hexpired, rfl, rfl⟩ := hcases
      refine ⟨orderly_timers h _ (Nat.le_of_eq (OneShots.waiting_handleRead hexpired).length_eq) ?_,
        stepAccounted_nil rfl⟩
      exact fun t ht => List.mem_of_mem_filter ht
  | runTimer timer a =>
      obtain ⟨hexpired, hresult⟩ := hcases
      have hone := h.one
      have hperm := (OneShots.waiting_run hexpired).length_eq
      rw [List.length_cons] at hperm
      have hempty : (s.connector.timers.run timer).waiting = [] :=
        List.length_eq_zero_iff.mp (by omega)
      have hrun := orderly_timers h (s.connector.timers.run timer)
        (by omega) (fun _ ht => ht)
      -- The timer is there, so nothing is being tried and nothing is connected.
      have hstate : s.connector.state = .kDisconnected := by
        cases h.situation with
        | trying _ _ _ hwaiting => simp [hwaiting] at hperm
        | resting _ hne _ _ hwaiting =>
            cases hstate : s.connector.state with
            | kDisconnected => rfl
            | kConnecting => exact absurd hstate hne
            | kConnected => simp [hwaiting hstate] at hperm
      rcases hresult with heq | ⟨rfl, rfl⟩
      · cases hconnect : s.connector.connect_ with
        | false =>
            rw [Connector.startInLoop_idle (c := { s.connector with
              timers := s.connector.timers.run timer }) hstate hconnect] at heq
            obtain ⟨rfl, rfl⟩ := Traced.mk.inj heq
            refine ⟨?_, stepAccounted_nil rfl⟩
            simpa [perform, queuedBy] using hrun
        | true =>
            rw [Connector.startInLoop_connect (c := { s.connector with
              timers := s.connector.timers.run timer }) hstate hconnect] at heq
            have hstarted : s.started = true := by
              by_contra hstop
              have := (h.stopped (by simpa using hstop)).1
              simp [hconnect] at this
            have hkept := connect_orderly hrun (a := a) hstarted hstate (hpermitted hconnect)
              (fun _ => hempty)
            obtain ⟨rfl, rfl⟩ := Traced.mk.inj heq
            exact ⟨hkept.1, hkept.2.sound, hkept.2.ledger⟩
      · exact ⟨hrun, stepAccounted_nil rfl⟩
  | swap =>
      obtain ⟨iteration, hswap, rfl, rfl⟩ := hcases
      obtain ⟨hturn, hqueue⟩ := h.turn.swap hswap
      obtain ⟨-, hidle, rfl⟩ := Iteration.swap_eq_some.mp hswap
      exact ⟨orderly_proceed h hturn hqueue (fun _ => hidle), stepAccounted_nil rfl⟩
  | runFunctor =>
      obtain ⟨iteration, hrun, rfl, rfl⟩ := hcases
      obtain ⟨hturn, hqueue⟩ := h.turn.nextFunctor hrun
      obtain ⟨-, rest, -, rfl⟩ := Iteration.nextFunctor_eq_some.mp hrun
      cases h.situation with
      | trying channel attempt hqueued _ => simp [hqueued] at hqueue
      | resting hholds hstate hqueued hidle hwaiting =>
          rw [hqueue] at hqueued
          refine ⟨⟨hturn, .resting hholds hstate ?_ hidle hwaiting, h.one, h.named, h.stopped⟩,
            stepAccounted_nil ?_⟩
          · cases hchannel : s.connector.channel with
            | none => simp [hchannel] at hqueued
            | some channel => simpa [hchannel, Connector.resetChannel] using hqueued
          · simp [Connector.connectingSocket, Connector.resetChannel, hstate]
  | finish =>
      obtain ⟨iteration, hfinish, rfl, rfl⟩ := hcases
      obtain ⟨hturn, hqueue⟩ := h.turn.finish hfinish
      obtain ⟨-, -, rfl⟩ := Iteration.finish_eq_some.mp hfinish
      exact ⟨orderly_proceed h hturn hqueue (fun hidle => hidle), stepAccounted_nil rfl⟩

/-- One attempt at a time: in a run that meets the condition no assertion of the connector
fails, every socket it has made is closed or handed over once, except the one that is being
connected, and what is registered in the poller is `channel_`. -/
theorem one_attempt_at_a_time {clock numCreated : Nat} {ls : List Label} {es : List Event}
    (h : Run (restrict Permitted Step) (start clock numCreated) ls es t) :
    (∀ a, .failed a ∉ es) ∧
      (∀ fd, ledger es fd = if t.connector.connectingSocket = some fd then 1 else 0) ∧
      ∀ fd ptr, t.connector.poller.channels fd = some ptr →
        ∃ channel, t.connector.channel = some channel ∧ channel.fd = fd ∧ channel.ptr = ptr := by
  have hkept : Orderly t ∧ StepAccounted (start clock numCreated) t ([] ++ es) := by
    refine h.history (I := fun past u => Orderly u ∧ StepAccounted (start clock numCreated) u past)
      [] ⟨orderly_start clock numCreated, stepAccounted_nil rfl⟩ ?_
    rintro past s l es' u ⟨horderly, hpast⟩ ⟨hpermitted, hstep⟩
    obtain ⟨hnext, haccounted⟩ := orderly_step horderly hpermitted hstep
    refine ⟨hnext, Connector.sound_append.mpr ⟨hpast.sound, haccounted.sound⟩, fun fd => ?_⟩
    have hbefore : ledger past fd = s.connector.beingConnected fd -
        (start clock numCreated).connector.beingConnected fd := hpast.ledger fd
    have hnow : ledger es' fd = u.connector.beingConnected fd - s.connector.beingConnected fd :=
      haccounted.ledger fd
    rw [Connector.ledger_append, hbefore, hnow]
    show _ = u.connector.beingConnected fd - (start clock numCreated).connector.beingConnected fd
    omega
  obtain ⟨horderly, haccounted⟩ := hkept
  rw [List.nil_append] at haccounted
  refine ⟨haccounted.sound.1, fun fd => ?_, fun fd ptr hptr => ?_⟩
  · have hledger := haccounted.ledger fd
    rwa [Connector.beingConnected_of_ne (c := (start clock numCreated).connector)
      (by simp [start, Connector.create]), Int.sub_zero] at hledger
  · cases horderly.situation with
    | resting hholds _ _ _ _ =>
        obtain ⟨channel, hchannel, -⟩ := hholds.channels hptr
        simp at hchannel
    | trying channel attempt _ _ =>
        obtain ⟨channel', hchannel, rfl⟩ := attempt.holds.channels hptr
        obtain ⟨rfl, -⟩ := attempt.holds.known fd channel' hchannel
        refine ⟨channel', ?_, rfl, rfl⟩
        by_cases hfd : channel'.fd = channel.fd
        · rw [hfd, Function.update_self] at hchannel
          exact attempt.current.trans hchannel
        · rw [Function.update_of_ne hfd] at hchannel
          simp at hchannel

/-- An attempt fails, is repeated after half a second, and is stopped and started again
once it is over. -/
def retried : List Label :=
  [.start ⟨7, .EINPROGRESS, 1⟩, .activate POLLERR, .wake, .handleEvent ⟨111, false⟩, .swap,
    .runFunctor, .finish, .tick 600000, .wake, .expire,
    .runTimer ⟨0, 500000, .startInLoop⟩ ⟨7, .ENETUNREACH, 1⟩, .stop, .start ⟨8, .EINPROGRESS, 2⟩,
    .swap, .finish]

theorem one_attempt_at_a_time_retried :
    ∃ es t, Run (restrict Permitted Step) (start 0 0) retried es t ∧
      t.connector.connectingSocket = some 8 ∧ (∀ a, .failed a ∉ es) ∧
      (∀ fd, ledger es fd = if t.connector.connectingSocket = some fd then 1 else 0) ∧
      ∀ fd ptr, t.connector.poller.channels fd = some ptr →
        ∃ channel, t.connector.channel = some channel ∧ channel.fd = fd ∧ channel.ptr = ptr := by
  obtain ⟨es, t, hrun, hsocket⟩ : ∃ es t,
      Run (restrict Permitted Step) (start 0 0) retried es t ∧
        t.connector.connectingSocket = some 8 := Run.exists_of_exec_guarded _ (by decide +kernel)
  obtain ⟨hfailed, hledger, hchannels⟩ := one_attempt_at_a_time hrun
  exact ⟨es, t, hrun, hsocket, hfailed, hledger, hchannels⟩

/-- Stopping and starting again while the socket is being connected fails an assertion. -/
theorem started_while_connecting :
    ∃ es t, Run Step (start 0 0)
      [.start ⟨7, .EINPROGRESS, 1⟩, .stop, .start ⟨8, .EINPROGRESS, 2⟩] es t ∧
      .failed .startInLoopDisconnected ∈ es := Run.exists_of_exec _ (by decide +kernel)

end ConnectorLoop
end Chaonet
