import Chaonet.Client.RetryTimers
import Chaonet.Server.Destruction

/-!
# Destroying a client

`ClientRemains` is what is left in the loop of a client after `~TcpClient`: its connections, and
the connector for as long as something holds it.  A step calls members of these, or finds that
they have been destroyed.

The destructor closes no connection and stops no attempt, and it cancels one retry timer: the one
that `timerId_` names.  So a channel outlives its owner where a connection is up or an attempt is
being made, and the timer of another retry may find the connector gone.  Nowhere else
(`clean_of_destroyable`).
-/

namespace Chaonet

open Foundation

/-- The connection that a functor holds. -/
def ClientFunctor.conn : ClientFunctor → Option Nat
  | .resetChannel => none
  | .connectionDestroyed i | .user i _ => some i

/-- The loop of a client that has been destroyed; of the client only the connector is still
read. -/
structure ClientRemains where
  loop : ClientLoop
  /-- Whether the connector is still held. -/
  connectorHeld : Bool

namespace ClientRemains

inductive Event
  | client (e : ClientLoop.Event)
  /-- The assertion `!channel_` of `~Connector` has failed. -/
  | channelLeft
  /-- A member of an object that has been destroyed is called. -/
  | dangling
  /-- The assertion `itErase != activeTimers_.end()` of `TimerQueue::cancelInLoop` has failed. -/
  | eraseAtEnd
deriving DecidableEq, Repr

/-- Failed assertions, and calls of what has been destroyed, such as the client. -/
def Event.isFailure : Event → Bool
  | .client (.connector (.newConnectionCallback _)) | .channelLeft | .dangling | .eraseAtEnd => true
  | .client e => e.isFailure

/-- Whether the owner of a channel is held: a connection by the running `handleClose` and by
functors. -/
def Held (s : ClientRemains) : ClientChannel → Prop
  | .connector => s.connectorHeld = true
  | .connection i => s.loop.closing = some i ∨
      ∃ f ∈ s.loop.iteration.queue.queued, f.conn = some i

instance (s : ClientRemains) : ∀ o, Decidable (s.Held o)
  | .connector => inferInstanceAs (Decidable (_ = _))
  | .connection _ => inferInstanceAs (Decidable (_ ∨ _))

/-! ## Destructors -/

/-- `loop_->cancel(timerId_)` finds the timer and erases it.  `last` says that nothing is behind it
in `activeTimers_`, where the timers of the whole loop are, in the order of their addresses. -/
def checkErase (connector : Connector) (last : Bool) : Traced Event Unit :=
  Traced.check .eraseAtEnd (connector.RetryActive → last = false)

/-- `~Connector`. -/
def destroyConnector (s : ClientRemains) (last : Bool) : Traced Event ClientRemains := do
  let connector := s.loop.connector
  checkErase connector last
  let timers := connector.timers.cancel connector.timerId
  Traced.check .channelLeft (connector.channel = none)
  pure ⟨s.loop.setConnector { connector with timers }, false⟩

/-- `~TcpClient` on the loop thread.  A connection is told to call `detail::removeConnection`
instead of the client; without one, the connector is held by a timer. -/
def destroy (s : ClientLoop) (last : Bool) : Traced Event ClientRemains :=
  match s.client.connection with
  | some _ => destroyConnector ⟨s, true⟩ last
  | none => do
      checkErase s.connector last
      let connector := s.connector.stop
      -- One second, in microseconds.
      let timers := (connector.timers.runAfter (1000 * 1000) .removeConnector).1
      pure ⟨s.setConnector { connector with timers }, true⟩

/-! ## Steps -/

/-- `detail::removeConnection`; the `connection_` of the client is not read any more. -/
def removeConnection (s : ClientRemains) (i : Nat) : ClientRemains :=
  { s with loop := { s.loop with
    closing := none
    client := { s.loop.client with connection := none }
    iteration := s.loop.iteration.push [.connectionDestroyed i] } }

/-- The owner of the member that a step calls, unless it is held by what calls it. -/
def owner (s : ClientRemains) : ClientLoop.Label → Option ClientChannel
  | .activate o _ => some o
  | .handleEvent _ _ => s.loop.iteration.next.map Prod.fst
  | .callback _ => s.loop.handling.head?.map fun r => .connection r.1
  | .runTimer _ _ => some .connector
  | .runFunctor =>
      match s.loop.iteration.nextFunctor with
      | some (.resetChannel, _) => some .connector
      | _ => none
  | _ => none

/-- Let a step of the loop take effect, if the owner is held. -/
def perform (s : ClientRemains) (owner : Option ClientChannel)
    (x : Traced ClientLoop.Event ClientLoop) : Traced Event ClientRemains :=
  if ∀ o ∈ owner, s.Held o then ⟨{ s with loop := x.val }, x.trace.map .client⟩
  else ⟨s, [.dangling]⟩

/-- The enabled steps of a program that has not been ended. -/
def advance (s : ClientRemains) (l : ClientLoop.Label) : Option (Traced Event ClientRemains) :=
  match l with
  -- Nobody can call the client any more.
  | .call _ => none
  -- `closeCallback_` was replaced by `~TcpClient`.
  | .closeCallback _ => s.loop.closing.map fun i => pure (s.removeConnection i)
  | .runTimer t _ =>
      -- The timers of a batch run in the order of their expirations.
      if ∀ t' ∈ s.loop.timers.expired, t.expiration ≤ t'.expiration then
        match t.callback with
        | .startInLoop => (s.loop.advance l).map (s.perform (s.owner l))
        -- The timer held the connector, which goes with it.  Nothing need be behind `timerId_`.
        | .removeConnector =>
            (s.loop.advance l).map fun x => { s with loop := x.val }.destroyConnector true
      else none
  | l => (s.loop.advance l).map (s.perform (s.owner l))

/-- A step ends with the first failure. -/
def untilFailure (x : Traced Event ClientRemains) : Traced Event ClientRemains :=
  match x.trace.findIdx? Event.isFailure with
  | none => x
  | some n =>
      ⟨{ x.val with loop := { x.val.loop with aborted := true } }, x.trace.take (n + 1)⟩

def step (s : ClientRemains) (l : ClientLoop.Label) : Option (Traced Event ClientRemains) :=
  if s.loop.aborted = true then none else (s.advance l).map untilFailure

def Step : ClientRemains → ClientLoop.Label → List Event → ClientRemains → Prop := stepOf step

/-! ## What is registered -/

/-- The channel of an owner. -/
def channel? (s : ClientRemains) : ClientChannel → Option Channel
  | .connector => s.loop.connector.channel
  | .connection i => s.loop.conns[i]?.map TcpConnection.channel

/-- Every channel in the map of the poller is that of an owner that is held. -/
def Clean (s : ClientRemains) : Prop :=
  ∀ fd ptr, s.loop.poller.channels fd = some ptr →
    ∃ o ch, s.Held o ∧ s.channel? o = some ch ∧ ch.fd = fd ∧ ch.ptr = ptr

/-- When a client can be destroyed: no connection is up, no attempt is being made, and its timers
come to nothing. -/
structure Destroyable (s : ClientLoop) (last : Bool) : Prop where
  /-- There is no connection, or it has just been closed and is about to call `closeCallback_`. -/
  down : s.client.connection = s.closing
  resting : s.connector.state ≠ .kConnecting
  /-- `resetChannel` has run, or does so before anything is handled. -/
  reset : s.connector.channel = none ∨ s.iteration.phase = .functors
  /-- There is a timer behind `timerId_`, if that is cancelled. -/
  erased : s.connector.RetryActive → last = false
  /-- Every retry that is not cancelled comes while the connector is still held, and finds it
  disconnected. -/
  retries : ∀ t ∈ s.timers.waiting, t ∈ s.timers.expired ∨ s.connector.timerId ≠ some t.sequence →
    s.client.connection = none ∧ s.connector.state = .kDisconnected ∧
      t.expiration < s.timers.clock + 1000 * 1000

instance (s : ClientLoop) (last : Bool) : Decidable (Destroyable s last) :=
  decidable_of_iff
    (s.client.connection = s.closing ∧ s.connector.state ≠ .kConnecting ∧
      (s.connector.channel = none ∨ s.iteration.phase = .functors) ∧
      (s.connector.RetryActive → last = false) ∧
      ∀ t ∈ s.timers.waiting, t ∈ s.timers.expired ∨ s.connector.timerId ≠ some t.sequence →
        s.client.connection = none ∧ s.connector.state = .kDisconnected ∧
          t.expiration < s.timers.clock + 1000 * 1000)
    ⟨fun ⟨hdown, hresting, hreset, herased, hretries⟩ =>
      ⟨hdown, hresting, hreset, herased, hretries⟩,
    fun ⟨hdown, hresting, hreset, herased, hretries⟩ =>
      ⟨hdown, hresting, hreset, herased, hretries⟩⟩

/-- What is left is at rest: no connection is up, no attempt is being made or will be, and the
timers find what they call. -/
structure Quiet (s : ClientRemains) : Prop where
  owns : ∃ registered, s.loop.Owns registered
  down : s.loop.client.connection = s.loop.closing
  resting : s.loop.connector.state ≠ .kConnecting
  stopped : s.connectorHeld = true → s.loop.connector.connect_ = false
  reset : s.loop.connector.channel ≠ none →
    s.connectorHeld = true ∧ s.loop.iteration.phase = .functors
  inOrder : s.loop.timers.InOrder
  cancelled : ¬s.loop.connector.RetryActive
  /-- A retry comes while the connector is held, and finds it disconnected. -/
  retries : ∀ t ∈ s.loop.timers.waiting, t.callback = .startInLoop →
    s.connectorHeld = true ∧ s.loop.connector.state = .kDisconnected
  /-- No retry is behind the timer that holds the connector. -/
  before : ∀ t ∈ s.loop.timers.waiting, t.callback = .startInLoop →
    ∀ r ∈ s.loop.timers.waiting, r.callback = .removeConnector → t.expiration < r.expiration

/-- A step that fails nothing, and leaves everything at rest. -/
def Safe (x : Traced Event ClientRemains) : Prop :=
  Quiet x.val ∧ ∀ e ∈ x.trace, e.isFailure = false

variable {s t : ClientRemains} {i : Nat} {c : TcpConnection} {registered : Int → Option Channel}

theorem Quiet.not_up (h : Quiet s) (howns : s.loop.Owns registered)
    (hi : s.loop.numbered i = some c) : ¬c.Up := by
  intro hup
  obtain ⟨hconnection, hclosing, -⟩ := (howns.stages i c hi).index_of_up hup
  have hdown := h.down
  rw [hconnection, hclosing] at hdown
  simp at hdown

/-- A connection that has not been destroyed waits for a call that ends it. -/
theorem Quiet.held (h : Quiet s) (howns : s.loop.Owns registered)
    (hi : s.loop.numbered i = some c) (hindex : c.channel.index ≠ kNew) :
    s.Held (.connection i) := by
  refine ((howns.stages i c hi).waits hindex (h.not_up howns hi)).imp_right fun hqueued => ?_
  refine ⟨.connectionDestroyed i, List.count_pos_iff.mp ?_, rfl⟩
  show 0 < s.loop.queuedCount _
  omega

/-- **What is left is clean.**  A channel that is registered is that of a connection which is still
held. -/
theorem Quiet.clean (h : Quiet s) : s.Clean := by
  obtain ⟨registered, howns⟩ := h.owns
  intro fd ptr hptr
  obtain ⟨ch, hregistered, rfl⟩ := howns.hosting.holds.channels hptr
  rcases howns.owned fd ch hregistered with hsocket | ⟨i, c, hi, hindex, rfl⟩
  · rw [Connector.connectingSocket, if_neg h.resting] at hsocket
    simp at hsocket
  · have hknown := howns.hosting.known i c hi hindex
    obtain rfl : ch = c.channel := Option.some.inj (hregistered.symm.trans hknown)
    refine ⟨.connection i, c.channel, h.held howns hi hindex, ?_, rfl, rfl⟩
    exact congrArg (Option.map TcpConnection.channel) hi

/-! ## What the steps keep -/

/-- A connector of which at most the channel has been destroyed; the poller is that of the loop. -/
structure Rests (c c' : Connector) : Prop where
  state : c'.state = c.state
  connect_ : c'.connect_ = c.connect_
  channel : c'.channel ≠ none → c.channel ≠ none
  timers : c'.timers = c.timers
  timerId : c'.timerId = c.timerId

theorem Rests.refl (c : Connector) : Rests c c := ⟨rfl, rfl, id, rfl, rfl⟩

/-- The loop has done a step that does not concern the connector. -/
theorem Quiet.moved (h : Quiet s) {loop : ClientLoop} (howns : ∃ registered, loop.Owns registered)
    (hconnection : loop.client.connection = s.loop.client.connection)
    (hclosing : loop.closing = s.loop.closing) (hrests : Rests s.loop.connector loop.connector)
    (hphase : loop.connector.channel ≠ none → s.loop.iteration.phase = .functors →
      loop.iteration.phase = .functors) :
    Quiet { s with loop } := by
  have htimers : loop.timers = s.loop.timers := hrests.timers
  constructor
  case owns => exact howns
  case down => exact hconnection.trans (h.down.trans hclosing.symm)
  case resting => exact hrests.state.trans_ne h.resting
  case stopped => exact fun hheld => hrests.connect_.trans (h.stopped hheld)
  case reset =>
    intro hchannel
    obtain ⟨hheld, hbefore⟩ := h.reset (hrests.channel hchannel)
    exact ⟨hheld, hphase hchannel hbefore⟩
  case inOrder => exact htimers ▸ h.inOrder
  case cancelled =>
    rw [Connector.RetryActive, hrests.timers, hrests.timerId]
    exact h.cancelled
  case retries =>
    rw [htimers, hrests.state]
    exact h.retries
  case before =>
    rw [htimers]
    exact h.before

/-- Timers go away, or from the schedule into the batch. -/
theorem Quiet.timed (h : Quiet s) {timers : OneShots ClientTimer} (hinOrder : timers.InOrder)
    (hscheduled : timers.scheduled ⊆ s.loop.timers.scheduled)
    (hwaiting : timers.waiting ⊆ s.loop.timers.waiting) :
    Quiet { s with loop := s.loop.setConnector { s.loop.connector with timers } } := by
  obtain ⟨registered, howns⟩ := h.owns
  constructor
  case owns =>
    exact ⟨registered, howns.switched s.loop.client.retry_ s.loop.client.connect_
      s.loop.connector.connect_ s.loop.called timers⟩
  case down => exact h.down
  case resting => exact h.resting
  case stopped => exact h.stopped
  case reset => exact h.reset
  case inOrder => exact hinOrder
  case cancelled =>
    rintro ⟨t, ht, hid⟩
    exact h.cancelled ⟨t, hscheduled ht, hid⟩
  case retries => exact fun t ht => h.retries t (hwaiting ht)
  case before => exact fun t ht hretry r hr => h.before t (hwaiting ht) hretry r (hwaiting hr)

/-- The connector is let go of, when no retry is left and its channel has been reset. -/
theorem Quiet.released (h : Quiet s)
    (hdone : ∀ t ∈ s.loop.timers.waiting, t.callback ≠ .startInLoop)
    (hreset : s.loop.connector.channel = none) (last : Bool) : Safe (s.destroyConnector last) := by
  have htimed := h.timed (h.inOrder.cancel s.loop.connector.timerId)
    (fun _ ht => List.mem_of_mem_filter ht) (OneShots.waiting_cancel_sublist _ _).subset
  have hnone (t) (ht : t ∈ (s.loop.timers.cancel s.loop.connector.timerId).waiting) :
      t.callback ≠ .startInLoop := hdone t ((OneShots.waiting_cancel_sublist _ _).subset ht)
  refine ⟨⟨htimed.owns, htimed.down, htimed.resting, fun hheld => absurd hheld Bool.false_ne_true,
    fun hchannel => absurd hreset hchannel, htimed.inOrder, htimed.cancelled,
    fun t ht hretry => absurd hretry (hnone t ht),
    fun t ht hretry => absurd hretry (hnone t ht)⟩, fun e he => ?_⟩
  simp [destroyConnector, checkErase, h.cancelled, hreset] at he

/-- The connection that was closed is dropped. -/
theorem Quiet.removed (h : Quiet s) (hclosing : s.loop.closing = some i) :
    Quiet (s.removeConnection i) := by
  obtain ⟨registered, howns⟩ := h.owns
  exact ⟨⟨registered, (howns.removed hclosing).1⟩, rfl, h.resting, h.stopped, h.reset, h.inOrder,
    h.cancelled, h.retries, h.before⟩

/-- A step of the loop, whose owner is held. -/
theorem Safe.perform {owner : Option ClientChannel} {x : Traced ClientLoop.Event ClientLoop}
    (hheld : ∀ o ∈ owner, s.Held o) (hx : Quiet { s with loop := x.val })
    (hsound : ∀ e ∈ x.trace, (Event.client e).isFailure = false) : Safe (s.perform owner x) := by
  have heq : s.perform owner x = ⟨{ s with loop := x.val }, x.trace.map .client⟩ := if_pos hheld
  rw [heq]
  refine ⟨hx, fun e he => ?_⟩
  obtain ⟨e', he', rfl⟩ := List.mem_map.mp he
  exact hsound e' he'

/-- A step that shows nothing. -/
theorem Safe.silent {owner : Option ClientChannel} {loop : ClientLoop}
    (hheld : ∀ o ∈ owner, s.Held o) (h : Quiet { s with loop }) :
    Safe (s.perform owner (pure loop)) :=
  .perform hheld h fun _ he => absurd he List.not_mem_nil

/-- A retry of a connector that has been stopped does not make an attempt. -/
theorem Quiet.startInLoop (h : Quiet s) {timer : Shot ClientTimer}
    (htimer : timer ∈ s.loop.timers.waiting) (hretry : timer.callback = .startInLoop)
    (a : Attempt) :
    Safe (s.perform (some .connector)
      (s.loop.performConnector
        ({ s.loop.connector with timers := s.loop.timers.run timer }.startInLoop a))) := by
  obtain ⟨hheld, hstate⟩ := h.retries timer htimer hretry
  have hidle : s.loop.performConnector
      ({ s.loop.connector with timers := s.loop.timers.run timer }.startInLoop a) =
      pure (s.loop.setConnector { s.loop.connector with timers := s.loop.timers.run timer }) := by
    rw [Connector.startInLoop_idle (c := { s.loop.connector with
      timers := s.loop.timers.run timer }) hstate (h.stopped hheld)]
    simp [ClientLoop.performConnector, ClientLoop.queuedByConnector, ClientLoop.setConnector, pure]
  rw [hidle]
  refine .silent (fun o ho => ?_) (h.timed (h.inOrder.run timer) (fun _ ht => ht)
    (OneShots.waiting_run_subset _ timer))
  rw [← Option.some.inj ho]
  exact hheld

/-- The timer that has held the connector has run. -/
theorem Quiet.removeConnector (h : Quiet s) {timer : Shot ClientTimer}
    (hphase : s.loop.iteration.phase = .handling) (htimer : timer ∈ s.loop.timers.expired)
    (hrelease : timer.callback = .removeConnector)
    (hfirst : ∀ t ∈ s.loop.timers.expired, timer.expiration ≤ t.expiration) :
    Safe (destroyConnector { s with loop := s.loop.setConnector { s.loop.connector with
      timers := s.loop.timers.run timer } } true) := by
  have hrun := h.timed (h.inOrder.run timer) (fun _ ht => ht)
    (OneShots.waiting_run_subset _ timer)
  refine hrun.released (fun t ht hretry => ?_) ?_ true
  · have hwaiting := OneShots.waiting_run_subset _ timer t ht
    have hbefore := h.before t hwaiting hretry timer (OneShots.mem_waiting.mpr (.inr htimer))
      hrelease
    have hexpired := h.inOrder.expired_of_lt hwaiting htimer hbefore
    exact absurd (hfirst t hexpired) (Nat.not_le.mpr hbefore)
  · by_contra hchannel
    exact absurd (hphase.symm.trans (h.reset hchannel).2) (by decide)

/-- A functor leaves the connector at rest. -/
theorem rests_invoke (s : ClientLoop) (f : ClientFunctor) :
    (s.invoke f).val.client.connection = s.client.connection ∧
      Rests s.connector (s.invoke f).val.connector ∧
      (s.invoke f).val.iteration.phase = s.iteration.phase ∧
      ∀ e ∈ (s.invoke f).trace, (Event.client e).isFailure = false := by
  cases f with
  | resetChannel =>
      exact ⟨rfl, ⟨rfl, rfl, fun hchannel => absurd rfl hchannel, rfl, rfl⟩, rfl,
        fun _ he => absurd he List.not_mem_nil⟩
  | connectionDestroyed i =>
      cases hconn : s.conn? i with
      | none =>
          have hnothing : s.invoke (.connectionDestroyed i) = pure s := by
            simp [ClientLoop.invoke, ClientLoop.callConn, hconn]
          rw [hnothing]
          exact ⟨rfl, .refl _, rfl, fun _ he => absurd he List.not_mem_nil⟩
      | some c =>
          have hcalled : s.invoke (.connectionDestroyed i) =
              s.performConn i c.connectionDestroyed := by
            simp [ClientLoop.invoke, ClientLoop.callConn, hconn]
          rw [hcalled]
          refine ⟨rfl, ⟨rfl, rfl, id, rfl, rfl⟩, rfl, fun e he => ?_⟩
          obtain ⟨e', -, rfl⟩ := List.mem_map.mp he
          rfl
  | user i f => exact ⟨rfl, .refl _, rfl, fun _ he => absurd he List.not_mem_nil⟩

/-- `resetChannel` is queued only for a channel that is there. -/
theorem channel_of_resetChannel {s : ClientLoop} (howns : s.Owns registered)
    {iteration : Iteration ClientChannel ClientFunctor}
    (hnext : s.iteration.nextFunctor = some (.resetChannel, iteration)) :
    s.connector.channel ≠ none := by
  have hqueued := (howns.turn.nextFunctor hnext).2
  intro hnone
  have hzero : s.queuedCount .resetChannel = 0 := by
    cases howns.attempting with
    | trying channel attempt _ _ resets => exact resets
    | resting _ _ resets _ => rwa [if_pos hnone] at resets
  rw [ClientLoop.queuedCount, hqueued, List.count_cons_self] at hzero
  exact absurd hzero (Nat.succ_ne_zero _)

/-- A step of the iteration. -/
theorem Quiet.proceeds (h : Quiet s) {iteration : Iteration ClientChannel ClientFunctor}
    (howns : { s.loop with iteration }.Owns registered)
    (hphase : s.loop.iteration.phase = .functors → iteration.phase = .polling) :
    Safe (s.perform none (pure { s.loop with iteration })) := by
  refine .silent (fun o ho => absurd ho (Option.not_mem_none o))
    (h.moved ⟨registered, howns⟩ rfl rfl (.refl _) ?_)
  intro hchannel hfunctors
  -- Before the next poll the channel has been reset.
  cases howns.attempting with
  | trying channel attempt _ _ _ => exact absurd attempt.state h.resting
  | resting _ _ _ polled => exact absurd (hphase hfunctors) (polled hchannel)

/-- Callbacks that are left may still run, for a connection that is down. -/
theorem Quiet.callback (h : Quiet s) (howns : s.loop.Owns registered) {cb : ChannelCallback}
    {handling : List (Nat × ChannelCallback)} (hhandling : s.loop.handling = (i, cb) :: handling)
    (input : TcpConnection.Input) :
    Safe (s.perform (s.owner (.callback input))
      ({ s.loop with handling }.callConn i fun c => c.handle input cb)) := by
  obtain ⟨c, heq, hafter⟩ :=
    howns.callback_down hhandling (fun c hi => h.not_up howns hi) input
  obtain ⟨d, rest, -, hdue⟩ := howns.due hhandling
  have hdown := (hdue.stage.resolve_left (h.not_up howns hdue.conn)).1
  have hheld := h.held howns hdue.conn (by rw [hdown.index]; decide)
  rw [heq]
  refine .perform (fun o ho => ?_) (h.moved ⟨registered, hafter⟩ rfl ?_ ⟨rfl, rfl, id, rfl, rfl⟩
    fun _ hphase => hphase) fun e he => ?_
  · simp only [owner, hhandling, List.head?_cons, Option.map_some, Option.mem_some_iff] at ho
    exact ho ▸ hheld
  · simp [ClientLoop.performConn]
  · simp [ClientLoop.performConn] at he

/-- A functor finds the object that it is bound to. -/
theorem Quiet.invoke (h : Quiet s) (howns : s.loop.Owns registered) {f : ClientFunctor}
    {iteration : Iteration ClientChannel ClientFunctor}
    (hnext : s.loop.iteration.nextFunctor = some (f, iteration)) :
    Safe (s.perform (s.owner .runFunctor) ({ s.loop with iteration }.invoke f)) := by
  obtain ⟨hafter, hclosing⟩ := howns.invoke hnext
  obtain ⟨hconnection, hrests, hphase, hsound⟩ := rests_invoke { s.loop with iteration } f
  have hkept : iteration.phase = s.loop.iteration.phase := by
    obtain ⟨-, rest, -, rfl⟩ := Iteration.nextFunctor_eq_some.mp hnext
    rfl
  refine .perform (fun o ho => ?_) (h.moved hafter hconnection hclosing hrests
    fun _ hfunctors => hphase.trans (hkept.trans hfunctors)) hsound
  cases f with
  | resetChannel =>
      simp only [owner, hnext, Option.mem_some_iff] at ho
      exact ho ▸ (h.reset (channel_of_resetChannel howns hnext)).1
  | connectionDestroyed i => simp [owner, hnext] at ho
  | user i f => simp [owner, hnext] at ho

/-- What a step does to what is left. -/
theorem Quiet.advance (h : Quiet s) {l : ClientLoop.Label} {x : Traced Event ClientRemains}
    (hx : s.advance l = some x) : Safe x := by
  obtain ⟨registered, howns⟩ := h.owns
  cases l with
  | call c => simp [ClientRemains.advance] at hx
  | closeCallback a =>
      obtain ⟨i, hclosing, rfl⟩ := Option.map_eq_some_iff.mp hx
      exact ⟨h.removed hclosing, fun _ he => absurd he List.not_mem_nil⟩
  | runTimer timer a =>
      simp only [ClientRemains.advance] at hx
      split_ifs at hx with hfirst
      cases hcallback : timer.callback with
      | startInLoop =>
          simp only [hcallback] at hx
          obtain ⟨y, hy, rfl⟩ := Option.map_eq_some_iff.mp hx
          simp only [ClientLoop.advance, hcallback] at hy
          split_ifs at hy with hguard
          obtain rfl := Option.some.inj hy
          exact h.startInLoop (OneShots.mem_waiting.mpr (.inr hguard.2)) hcallback a
      | removeConnector =>
          simp only [hcallback] at hx
          obtain ⟨y, hy, rfl⟩ := Option.map_eq_some_iff.mp hx
          simp only [ClientLoop.advance, hcallback] at hy
          split_ifs at hy with hguard
          obtain rfl := Option.some.inj hy
          exact h.removeConnector hguard.1 hguard.2 hcallback hfirst
  | tick micros =>
      obtain rfl := Option.some.inj hx
      exact .silent (fun o ho => absurd ho (Option.not_mem_none o))
        (h.timed (h.inOrder.tick micros) (fun _ ht => ht) fun _ ht => ht)
  | activate o revents =>
      obtain ⟨y, hy, rfl⟩ := Option.map_eq_some_iff.mp hx
      cases o with
      | connector =>
          obtain ⟨channel, iteration, hchannel, -, hstep, -⟩ := ClientLoop.advance_cases hy
          -- Poll finds the channel of the connector only while an attempt is being made.
          exact absurd (howns.activated revents hchannel hstep).1 h.resting
      | connection i =>
          obtain ⟨c, iteration, hi, hindex, -⟩ := ClientLoop.advance_cases hy
          -- Only the channel of a connection that is up is in the epoll set.
          exact absurd ((howns.stages i c hi).up_of_index hindex) (h.not_up howns hi)
  | wake =>
      obtain ⟨y, hy, rfl⟩ := Option.map_eq_some_iff.mp hx
      obtain ⟨hidle, iteration, hstep, rfl⟩ := ClientLoop.advance_cases hy
      refine h.proceeds (howns.proceeds hidle _ (Or.inl hstep)) fun hfunctors => ?_
      exact absurd ((Iteration.wake_eq_some.mp hstep).1.symm.trans hfunctors) (by decide)
  | handleEvent status ptr =>
      obtain ⟨y, hy, rfl⟩ := Option.map_eq_some_iff.mp hx
      obtain ⟨-, ⟨iteration, hnext, -⟩ | ⟨i, c, iteration, hnext, hi, -⟩⟩ :=
        ClientLoop.advance_cases hy
      · obtain ⟨-, -, hmem, -⟩ := howns.next hnext
        cases howns.attempting with
        | trying channel attempt _ _ _ => exact absurd attempt.state h.resting
        | resting _ hinactive _ _ => exact absurd hmem hinactive
      · obtain ⟨-, -, hmem, -⟩ := howns.next hnext
        obtain ⟨d, hd, hup, -⟩ := howns.active i hmem
        exact absurd hup (h.not_up howns hd)
  | callback input =>
      obtain ⟨y, hy, rfl⟩ := Option.map_eq_some_iff.mp hx
      obtain ⟨i, cb, handling, hhandling, -, rfl⟩ := ClientLoop.advance_cases hy
      exact h.callback howns hhandling input
  | expire =>
      obtain ⟨y, hy, rfl⟩ := Option.map_eq_some_iff.mp hx
      obtain ⟨-, -, rfl⟩ := ClientLoop.advance_cases hy
      exact .silent (fun o ho => absurd ho (Option.not_mem_none o))
        (h.timed (.handleRead _) (fun _ ht => List.mem_of_mem_filter ht)
          (OneShots.waiting_handleRead_subset _))
  | swap =>
      obtain ⟨y, hy, rfl⟩ := Option.map_eq_some_iff.mp hx
      obtain ⟨hidle, iteration, hstep, rfl⟩ := ClientLoop.advance_cases hy
      refine h.proceeds (howns.proceeds hidle 0 (Or.inr (Or.inl hstep))) fun hfunctors => ?_
      exact absurd ((Iteration.swap_eq_some.mp hstep).1.symm.trans hfunctors) (by decide)
  | runFunctor =>
      obtain ⟨y, hy, rfl⟩ := Option.map_eq_some_iff.mp hx
      obtain ⟨f, iteration, hnext, rfl⟩ := ClientLoop.advance_cases hy
      exact h.invoke howns hnext
  | finish =>
      obtain ⟨y, hy, rfl⟩ := Option.map_eq_some_iff.mp hx
      obtain ⟨hidle, iteration, hstep, rfl⟩ := ClientLoop.advance_cases hy
      refine h.proceeds (howns.proceeds hidle 0 (Or.inr (Or.inr hstep))) fun _ => ?_
      obtain ⟨-, -, rfl⟩ := Iteration.finish_eq_some.mp hstep
      rfl

theorem untilFailure_of_safe {x : Traced Event ClientRemains} (h : Safe x) :
    untilFailure x = x := by
  unfold ClientRemains.untilFailure
  rw [List.findIdx?_eq_none_iff.mpr h.2]

/-- The step lemma. -/
theorem Quiet.step (h : Quiet s) {l : ClientLoop.Label} {es : List Event}
    (hstep : Step s l es t) : Safe ⟨t, es⟩ := by
  simp only [Step, stepOf, ClientRemains.step] at hstep
  split_ifs at hstep
  obtain ⟨x, hx, heq⟩ := Option.map_eq_some_iff.mp hstep
  have hsafe := h.advance hx
  rw [untilFailure_of_safe hsafe] at heq
  exact heq ▸ hsafe

/-! ## The destructor -/

/-- What is left in the schedule of a client that can be destroyed. -/
theorem Destroyable.retry {s : ClientLoop} {last : Bool} (h : Destroyable s last)
    {t : Shot ClientTimer} (ht : t ∈ (s.timers.cancel s.connector.timerId).waiting) :
    s.client.connection = none ∧ s.connector.state = .kDisconnected ∧
      t.expiration < s.timers.clock + 1000 * 1000 := by
  refine h.retries t ((OneShots.waiting_cancel_sublist _ _).subset ht) ?_
  exact (OneShots.mem_waiting.mp ht).symm.imp_right fun hscheduled =>
    (OneShots.mem_scheduled_cancel.mp hscheduled).2

theorem safe_destroy {s : ClientLoop} (howns : s.Owns registered) (htimed : s.connector.Timed)
    {last : Bool} (h : Destroyable s last) : Safe (destroy s last) := by
  have hquiet (connect_ : Bool) (timers : OneShots ClientTimer) :
      ({ s with client := { s.client with connector := { s.connector with connect_, timers } } } :
        ClientLoop).Owns registered :=
    howns.switched s.client.retry_ s.client.connect_ connect_ s.called timers
  have herase : (checkErase s.connector last).trace = [] := Traced.check_trace_of h.erased
  have hinOrder := htimed.inOrder.cancel s.connector.timerId
  unfold destroy
  cases hconnection : s.client.connection with
  | some i =>
      have hnone (t) (ht : t ∈ (s.timers.cancel s.connector.timerId).waiting) : False :=
        Option.some_ne_none i (hconnection.symm.trans (h.retry ht).1)
      -- The connection is being closed, so that channels are being handled.
      have hreset : s.connector.channel = none := by
        refine h.reset.resolve_right fun hfunctors => ?_
        have hclosing := (howns.settled (by rw [hfunctors]; decide)).2
        rw [← h.down, hconnection] at hclosing
        exact Option.some_ne_none i hclosing
      refine ⟨⟨⟨registered, hquiet _ _⟩, h.down, h.resting,
        fun hheld => absurd hheld Bool.false_ne_true, fun hchannel => absurd hreset hchannel,
        hinOrder, s.connector.not_retryActive_cancel, fun t ht => (hnone t ht).elim,
        fun t ht => (hnone t ht).elim⟩, fun e he => ?_⟩
      simp [destroyConnector, herase, hreset] at he
  | none =>
      -- The timer that holds the connector is the only one that is new.
      have hcases {t : Shot ClientTimer}
          (ht : t ∈ ((s.timers.cancel s.connector.timerId).runAfter (1000 * 1000)
            .removeConnector).1.waiting) :
          t ∈ (s.timers.cancel s.connector.timerId).waiting ∨
            t = ⟨s.timers.numCreated, s.timers.clock + 1000 * 1000, .removeConnector⟩ := by
        rcases OneShots.mem_waiting.mp ht with hscheduled | hexpired
        · rcases List.mem_append.mp hscheduled with hbefore | hnew
          · exact .inl (OneShots.mem_waiting.mpr (.inl hbefore))
          · exact .inr (List.mem_singleton.mp hnew)
        · exact .inl (OneShots.mem_waiting.mpr (.inr hexpired))
      have hretry {t : Shot ClientTimer}
          (ht : t ∈ (s.timers.cancel s.connector.timerId).waiting) : t.callback = .startInLoop :=
        htimed.retries t ((OneShots.waiting_cancel_sublist _ _).subset ht)
      refine ⟨?_, fun e he => by simp [herase] at he⟩
      constructor
      case owns => exact ⟨registered, hquiet _ _⟩
      case down => exact h.down
      case resting => exact h.resting
      case stopped => exact fun _ => rfl
      case reset => exact fun hchannel => ⟨rfl, h.reset.resolve_left hchannel⟩
      case inOrder => exact hinOrder.runAfter _ _
      case cancelled =>
        rintro ⟨t, ht, hid⟩
        rcases List.mem_append.mp ht with hbefore | hnew
        · exact (OneShots.mem_scheduled_cancel.mp hbefore).2 hid
        · rw [List.mem_singleton.mp hnew] at hid
          exact absurd (htimed.made _ hid) (Nat.lt_irrefl _)
      case retries =>
        intro t ht hcallback
        rcases hcases ht with hbefore | rfl
        · exact ⟨rfl, (h.retry hbefore).2.1⟩
        · exact absurd hcallback ClientTimer.noConfusion
      case before =>
        intro t ht hcallback r hr hrelease
        rcases hcases ht with hbefore | rfl
        · rcases hcases hr with hother | rfl
          · exact absurd ((hretry hother).symm.trans hrelease) (by decide)
          · exact (h.retry hbefore).2.2
        · exact absurd hcallback ClientTimer.noConfusion

/-- **Nothing outlives its owner**, and nothing that has been destroyed is called, where a client
is destroyed that can be. -/
theorem clean_of_destroyable {s : ClientLoop} (howns : s.Owns registered)
    (htimed : s.connector.Timed) {last : Bool} (h : Destroyable s last)
    {ls : List ClientLoop.Label} {es : List Event}
    (hrun : Run Step (untilFailure (destroy s last)).val ls es t) :
    t.Clean ∧ ∀ e ∈ (destroy s last).trace ++ es, e.isFailure = false := by
  have hsafe := safe_destroy howns htimed h
  rw [untilFailure_of_safe hsafe] at hrun
  have hrest := hrun.history (I := fun past u => Quiet u ∧ ∀ e ∈ past, Event.isFailure e = false)
    (destroy s last).trace hsafe fun past u l es' v hbefore hstep => by
      obtain ⟨hquiet, hsound⟩ := hbefore.1.step hstep
      refine ⟨hquiet, fun e he => ?_⟩
      rcases List.mem_append.mp he with hpast | hnow
      · exact hbefore.2 e hpast
      · exact hsound e hnow
  exact ⟨hrest.1.clean, hrest.2⟩

/-- A channel that is registered needs something that holds its owner. -/
theorem not_clean (hconnector : s.connectorHeld = false) (hclosing : s.loop.closing = none)
    (hqueue : s.loop.iteration.queue.queued = []) {fd : Int} {ptr : ChannelPtr}
    (hchannel : s.loop.poller.channels fd = some ptr) : ¬s.Clean := by
  intro hclean
  obtain ⟨o, ch, hheld, -⟩ := hclean fd ptr hchannel
  cases o with
  | connector => exact Bool.false_ne_true (hconnector.symm.trans hheld)
  | connection i =>
      rcases hheld with hcalled | ⟨f, hf, -⟩
      · simp [hclosing] at hcalled
      · simp [hqueue] at hf

/-- A client makes a connection. -/
def connected : List ClientLoop.Label :=
  [.call (.connect ⟨7, .EINPROGRESS, 1⟩), .activate .connector POLLOUT, .wake,
    .handleEvent ⟨0, false⟩ 2, .swap, .runFunctor, .finish]

/-- A second has passed since a client was destroyed, and its timer has run. -/
def released (sequence : Nat) : List ClientLoop.Label :=
  [.tick (1000 * 1000 + 1), .wake, .expire,
    .runTimer ⟨sequence, 1000 * 1000, .removeConnector⟩ ⟨8, .EAGAIN, 3⟩]

/-- `connect()` has been called four times, and each time the attempt is to be repeated. -/
def retriedOften : List ClientLoop.Label :=
  List.replicate 4 (.call (.connect ⟨7, .EAGAIN, 1⟩))

/-- The third retry of such a client comes after the connector has been destroyed. -/
def leftBehind : List ClientLoop.Label :=
  [.tick (1000 * 1000 + 1), .wake, .expire, .runTimer ⟨0, 500 * 1000, .startInLoop⟩ ⟨8, .EAGAIN, 3⟩,
    .runTimer ⟨1, 1000 * 1000, .startInLoop⟩ ⟨8, .EAGAIN, 3⟩,
    .runTimer ⟨4, 1000 * 1000, .removeConnector⟩ ⟨8, .EAGAIN, 3⟩, .swap, .finish,
    .tick (1000 * 1000), .wake, .expire,
    .runTimer ⟨2, 2000 * 1000, .startInLoop⟩ ⟨8, .EAGAIN, 3⟩]

end ClientRemains

/-! ## Servers and clients -/

end Chaonet
