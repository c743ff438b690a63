import Chaonet.Client.Ownership

/-!
# Reconnecting

A client whose `connect()` is called once, and which may be disconnected, stopped and set to
retry at any time, has one connection at most: a socket goes from the connector to a
connection, and the connector is restarted only by the close callback of that connection
(`at_most_one_connection`).

`Tied` is what `Ownership` says of a client (`Owns`), and what holds of its timers besides
(`Timed`).

Two things from outside are relied on.  The kernel returns no descriptor that is open, and an
iteration of the loop takes less than the first retry delay, so that no retry timer runs
before the `resetChannel` that was queued with it.
-/

namespace Chaonet

open Foundation

namespace ClientLoop

/-- The first retry delay, in microseconds. -/
def kInitRetryDelay : Nat := Connector.kInitRetryDelayMs * 1000

/-- `connect()` is called once, and every iteration is shorter than the first retry delay. -/
def Permitted (s : ClientLoop) : Label → Prop
  | .call (.connect a) => s.called = false ∧ s.Fresh a
  | .closeCallback a => s.Fresh a
  | .runTimer _ a => s.Fresh a
  | .tick micros => s.iteration.phase ≠ .polling →
      s.timers.clock + micros < s.iteration.began + kInitRetryDelay
  | _ => True

instance (s : ClientLoop) : ∀ l, Decidable (s.Permitted l)
  | .call (.connect _) => inferInstanceAs (Decidable (_ ∧ _))
  | .closeCallback a => inferInstanceAs (Decidable (s.Fresh a))
  | .runTimer _ a => inferInstanceAs (Decidable (s.Fresh a))
  | .tick _ => inferInstanceAs (Decidable (_ → _))
  | .call .disconnect | .call .stop | .call .enableRetry | .call (.send _ _ _)
  | .call (.shutdown _) | .activate _ _ | .wake | .handleEvent _ _ | .callback _
  | .expire | .swap | .runFunctor | .finish => .isTrue trivial

/-! ## The invariant -/

/-- The channel of an attempt that is over waits for its `resetChannel`: until then the loop
handles no event of a connection and runs no timer. -/
structure Pending (s : ClientLoop) : Prop where
  phase : s.iteration.phase ≠ .polling
  active : ∀ i, .connection i ∉ s.iteration.active
  handling : s.handling = []
  closing : s.closing = none
  expired : s.timers.expired = []
  later : ∀ t ∈ s.timers.scheduled, s.iteration.began + kInitRetryDelay ≤ t.expiration

/-- An attempt is being made, or none is. -/
inductive Mode (s : ClientLoop) (registered : Int → Option Channel) : Prop
  | trying (channel : Channel) (attempt : s.connector.Connecting registered channel)
      (apart : ∀ i c, s.numbered i = some c → c.channel.index ≠ kNew →
        c.channel.fd ≠ channel.fd)
      (connection : s.client.connection = none)
      (resets : s.queuedCount .resetChannel = 0)
      (waiting : s.timers.waiting = [])
  | resting (state : s.connector.state ≠ .kConnecting)
      (inactive : .connector ∉ s.iteration.active)
      (resets : s.queuedCount .resetChannel = if s.connector.channel = none then 0 else 1)
      (connected : s.connector.state = .kConnected → s.timers.waiting = [])
      (pending : s.connector.channel ≠ none → s.Pending)

structure Tied (s : ClientLoop) (registered : Int → Option Channel) : Prop where
  turn : s.iteration.InTurn
  hosting : TcpConnection.Hosting s.poller s.numbered registered
  owned : ∀ fd ch, registered fd = some ch → s.connector.connectingSocket = some fd ∨
    ∃ i c, s.numbered i = some c ∧ c.channel.index ≠ kNew ∧ c.channel.fd = fd
  mode : Mode s registered
  stages : ∀ i c, s.numbered i = some c → Stage s i c
  /-- The client has a connection only when the connector is done. -/
  connection : ∀ i, s.client.connection = some i →
    s.numbered i ≠ none ∧ s.connector.state = .kConnected
  closing : ∀ i, s.closing = some i → s.client.connection = some i
  handling : Handling s s.handling
  active : ∀ i, .connection i ∈ s.iteration.active → ∃ c, s.numbered i = some c ∧ c.Up ∧
    .closeCallback ∉ c.channel.handleEvent
  one : s.timers.waiting.length ≤ 1
  time : s.iteration.phase ≠ .polling → s.timers.clock < s.iteration.began + kInitRetryDelay
  batch : s.iteration.phase = .functors → .resetChannel ∉ s.iteration.queue.pending
  settled : s.iteration.phase ≠ .handling → s.handling = [] ∧ s.closing = none
  past : s.iteration.began ≤ s.timers.clock
  delay : Connector.kInitRetryDelayMs ≤ s.connector.retryDelayMs
  unborn : ∀ i, s.numbered i = none → s.queuedCount (.connectionDestroyed i) = 0
  uncalled : s.called = false → s.connector.state = .kDisconnected ∧
    s.connector.channel = none ∧ s.timers.waiting = []
  alive : s.aborted = false

/-- What holds of the timers: an attempt that is being made or has led to a connection leaves none
behind. -/
structure Timed (s : ClientLoop) : Prop where
  one : s.timers.waiting.length ≤ 1
  trying : s.connector.state = .kConnecting → s.timers.waiting = []
  connected : s.connector.state = .kConnected → s.timers.waiting = []
  pending : s.connector.state ≠ .kConnecting → s.connector.channel ≠ none → s.Pending
  time : s.iteration.phase ≠ .polling → s.timers.clock < s.iteration.began + kInitRetryDelay
  past : s.iteration.began ≤ s.timers.clock
  delay : Connector.kInitRetryDelayMs ≤ s.connector.retryDelayMs
  uncalled : s.called = false → s.connector.state = .kDisconnected ∧
    s.connector.channel = none ∧ s.timers.waiting = []
  alive : s.aborted = false

def Stable (s : ClientLoop) : Prop := ∃ registered, Tied s registered

variable {s t : ClientLoop} {registered : Int → Option Channel} {i : Nat} {c : TcpConnection}

theorem Tied.owns (h : Tied s registered) : Owns s registered := by
  refine { h with attempting := ?_ }
  cases h.mode with
  | trying channel attempt hapart hconnection hresets _ =>
      exact .trying channel attempt hapart hconnection hresets
  | resting hstate hinactive hresets _ hpending =>
      exact .resting hstate hinactive hresets fun hchannel => (hpending hchannel).phase

theorem Tied.timed (h : Tied s registered) : Timed s := by
  cases h.mode with
  | trying channel attempt _ _ _ hwaiting =>
      exact { h with
        trying := fun _ => hwaiting
        connected := fun _ => hwaiting
        pending := fun hstate => absurd attempt.state hstate }
  | resting hstate _ _ hconnected hpending =>
      exact { h with
        trying := fun hconnecting => absurd hconnecting hstate
        connected := hconnected
        pending := fun _ => hpending }

theorem Owns.tied (h : Owns s registered) (ht : Timed s) : Tied s registered := by
  refine { h, ht with mode := ?_ }
  cases h.attempting with
  | trying channel attempt hapart hconnection hresets =>
      exact .trying channel attempt hapart hconnection hresets (ht.trying attempt.state)
  | resting hstate hinactive hresets _ =>
      exact .resting hstate hinactive hresets ht.connected (ht.pending hstate)

theorem stable_start (clock numCreated : Nat) (writeComplete : Bool) :
    Stable (start clock numCreated writeComplete) := by
  refine ⟨fun _ => none, .create clock, ⟨.create, ?_, ?_⟩, ?_, .resting ?_ ?_ rfl ?_ ?_, ?_, ?_, ?_,
    .idle, ?_, ?_, ?_, ?_, ?_, ?_, ?_, ?_, fun _ => ⟨rfl, rfl, rfl⟩, rfl⟩ <;>
  simp [start, numbered, TcpClient.create, Connector.create, connector, Iteration.create, timers,
    OneShots.create, OneShots.waiting, queuedCount]

/-! ## What steps leave alone -/

/-- The iteration goes on. -/
theorem Timed.moved (h : Timed s) {iteration : Iteration ClientChannel ClientFunctor}
    (htime : iteration.phase ≠ .polling → s.timers.clock < iteration.began + kInitRetryDelay)
    (hpast : iteration.began ≤ s.timers.clock)
    (hpending : s.connector.state ≠ .kConnecting → s.connector.channel ≠ none → s.Pending →
      Pending { s with iteration }) : Timed { s with iteration } :=
  { h with
    time := htime
    past := hpast
    pending := fun hstate hchannel => hpending hstate hchannel (h.pending hstate hchannel) }

/-- Another functor of the batch is run. -/
theorem Timed.nextFunctor (h : Timed s) {f : ClientFunctor}
    {iteration : Iteration ClientChannel ClientFunctor}
    (hnext : s.iteration.nextFunctor = some (f, iteration)) : Timed { s with iteration } := by
  obtain ⟨-, rest, -, rfl⟩ := Iteration.nextFunctor_eq_some.mp hnext
  exact h.moved h.time h.past fun _ _ hp =>
    ⟨hp.phase, hp.active, hp.handling, hp.closing, hp.expired, hp.later⟩

/-- A member of a connection leaves the timers alone. -/
theorem Timed.performConn (h : Timed s) {x : Traced TcpConnection.Event TcpConnection}
    (hclosing : s.connector.channel ≠ none → (s.performConn i x).val.closing = s.closing) :
    Timed (s.performConn i x).val := by
  refine { h with pending := fun hstate hchannel => ?_ }
  have hp := h.pending hstate hchannel
  exact ⟨hp.phase, hp.active, hp.handling, (hclosing hchannel).trans hp.closing, hp.expired,
    hp.later⟩

/-! ## Members of a connection -/

/-- A connection that is up is kept up. -/
theorem Tied.keeps (h : Tied s registered) (hi : s.numbered i = some c) (hup : c.Up)
    {x : Traced TcpConnection.Event TcpConnection}
    (hx : TcpConnection.Keeps (c.on s.poller) registered x) :
    Tied (s.performConn i x).val (TcpConnection.entry registered c x.val) := by
  obtain ⟨howns, hclosing⟩ := h.owns.keeps hi hup hx
  exact howns.tied (h.timed.performConn fun _ => hclosing)

/-- A connection is closed by the last callback of its event that can do so. -/
theorem Tied.closes (h : Tied s registered) (hi : s.numbered i = some c) (hup : c.Up)
    {x : Traced TcpConnection.Event TcpConnection}
    (hx : TcpConnection.Closes (c.on s.poller) registered x)
    (hphase : s.iteration.phase = .handling) (hnone : s.connector.channel = none)
    (hinactive : .connection i ∉ s.iteration.active) {cbs : List ChannelCallback}
    (hhandling : s.handling = cbs.map fun cb => (i, cb)) (hnodup : cbs.Nodup)
    (hclose : .closeCallback ∉ cbs) (hread : .readCallback ∉ cbs) :
    Tied (s.performConn i x).val (TcpConnection.entry registered c x.val) :=
  (h.owns.closes hi hup hx hphase hinactive hhandling hnodup hclose hread).tied
    (h.timed.performConn fun hchannel => absurd hnone hchannel)

/-- Another functor of the batch is run. -/
theorem Tied.nextFunctor (h : Tied s registered) {f : ClientFunctor}
    {iteration : Iteration ClientChannel ClientFunctor}
    (hnext : s.iteration.nextFunctor = some (f, iteration))
    (hf : f ≠ .resetChannel ∧ ∀ i, f ≠ .connectionDestroyed i) :
    Tied { s with iteration } registered :=
  (h.owns.nextFunctor hnext hf).tied (h.timed.nextFunctor hnext)

/-- A connection that is down is destroyed. -/
theorem Tied.destroyed (h : Tied s registered)
    {iteration : Iteration ClientChannel ClientFunctor}
    (hnext : s.iteration.nextFunctor = some (.connectionDestroyed i, iteration))
    (hi : s.numbered i = some c) :
    let x := (c.on s.poller).connectionDestroyed
    Tied ({ s with iteration }.performConn i x).val
      (Function.update registered c.channel.fd none) ∧ x.val.channel.fd = c.channel.fd := by
  obtain ⟨howns, hfd, hclosing⟩ := h.owns.destroyed hnext hi
  exact ⟨howns.tied ((h.timed.nextFunctor hnext).performConn fun _ => hclosing), hfd⟩

/-- A member that does nothing. -/
theorem Tied.still (h : Tied s registered) (hi : s.numbered i = some c) :
    Tied (s.performConn i (pure (c.on s.poller))).val registered :=
  (h.owns.still hi).tied (h.timed.performConn fun _ => by simp [ClientLoop.performConn])

/-- Poll has found a connection. -/
theorem Tied.activatedConn (h : Tied s registered) (hi : s.numbered i = some c)
    (hindex : c.channel.index = kAdded) {revents : EventMask}
    (hdeliverable : CallbackSession.Deliverable c.channel revents)
    {iteration : Iteration ClientChannel ClientFunctor}
    (hstep : s.iteration.activate (.connection i) = some iteration) :
    Stable { s with
      conns := s.conns.set i { c with channel := { c.channel with revents } }
      iteration } := by
  obtain ⟨registered', howns⟩ := h.owns.activatedConn hi hindex hdeliverable hstep
  obtain ⟨hphase, -, rfl⟩ := Iteration.activate_eq_some.mp hstep
  exact ⟨registered', howns.tied { h.timed with
    pending := fun hstate hchannel => absurd hphase (h.timed.pending hstate hchannel).phase }⟩

/-- The callbacks that are left are others. -/
theorem Tied.handles (h : Tied s registered) {handling : List (Nat × ChannelCallback)}
    (hphase : s.iteration.phase = .handling) (hhandling : Handling s handling)
    (hnone : s.connector.channel ≠ none → s.connector.state = .kConnecting ∨ handling = []) :
    Tied { s with handling } registered := by
  refine (h.owns.handles hphase hhandling).tied { h.timed with
    pending := fun hstate hchannel => ?_ }
  have hp := h.timed.pending hstate hchannel
  exact ⟨hp.phase, hp.active, (hnone hchannel).resolve_left hstate, hp.closing, hp.expired,
    hp.later⟩

/-! ## Members of the connector -/

/-- The timers after an attempt, when no timer has waited. -/
theorem Timed.tried (h : Timed s) {a : Attempt} {x : Traced Connector.Event Connector}
    (hx : Connector.Tried s.connector registered a x) (hchannel : s.connector.channel = none)
    (hwaiting : s.timers.waiting = []) (hcalled : s.called = true) :
    Timed (s.performConnector x).val := by
  have huncalled (P : Prop) : s.called = false → P := by simp [hcalled]
  cases hx with
  | connecting poller channel hprogress hfd hindex hafter =>
      rw [performConnector_of_nil rfl]
      exact { h with
        trying := fun _ => hwaiting
        connected := fun _ => hwaiting
        pending := fun hstate => absurd rfl hstate
        uncalled := huncalled _ }
  | retried hprogress =>
      rw [performConnector_of_nil rfl]
      -- No timer waited, so that the one of the retry is the only one.
      obtain ⟨hone, -⟩ := Connector.retry_waiting (c := s.connector) hwaiting a.sockfd
      have hstate : (s.connector.retry a.sockfd).val.state = .kDisconnected := by simp
      have hclock := s.connector.retry_clock a.sockfd
      exact { h with
        one := hone
        trying := fun hc => absurd (hstate.symm.trans hc) (by decide)
        connected := fun hc => absurd (hstate.symm.trans hc) (by decide)
        pending := fun _ hne => absurd ((s.connector.retry_channel a.sockfd).trans hchannel) hne
        time := fun hphase => hclock.trans_lt (h.time hphase)
        past := h.past.trans hclock.ge
        delay := Connector.retry_delay h.delay a.sockfd
        uncalled := huncalled _ }
  | closed hprogress =>
      rw [performConnector_of_nil rfl]
      exact { h with
        pending := fun _ hne => absurd hchannel hne
        uncalled := huncalled _ }

/-- An attempt, when nothing else is under way. -/
theorem Tied.connect (h : Tied s registered) {a : Attempt}
    (hstate : s.connector.state = .kDisconnected) (hchannel : s.connector.channel = none)
    (hwaiting : s.timers.waiting = []) (hfresh : s.Fresh a) (hcalled : s.called = true) :
    Stable (s.performConnector (s.connector.connect a)).val ∧
      Connector.Accounted s.connector (s.connector.connect a) ∧
      ∀ sockfd, .newConnectionCallback sockfd ∉ (s.connector.connect a).trace := by
  obtain ⟨-, -, hfree⟩ := h.owns.free hstate hfresh
  have hne : s.connector.state ≠ .kConnecting := by simp [hstate]
  have htried := Connector.connect_spec (c := s.connector) h.hosting.holds
    (a := a) (fun _ => ⟨hchannel, hfree⟩)
  obtain ⟨registered', howns⟩ := h.owns.connect hstate hfresh fun _ => hchannel
  exact ⟨⟨registered', howns.tied (h.timed.tried htried hchannel hwaiting hcalled)⟩,
    htried.accounted hne, htried.noNew⟩

/-- The timer of a retry waits for the first delay at least. -/
theorem retry_later {c : Connector} {began : Nat} (hwaiting : c.timers.waiting = [])
    (hdelay : Connector.kInitRetryDelayMs ≤ c.retryDelayMs) (hpast : began ≤ c.timers.clock)
    (sockfd : Int) : (c.retry sockfd).val.timers.expired = [] ∧
      ∀ t ∈ (c.retry sockfd).val.timers.scheduled, began + kInitRetryDelay ≤ t.expiration := by
  obtain ⟨hscheduled, hexpired⟩ := OneShots.waiting_eq_nil.mp hwaiting
  rcases c.retry_timers sockfd with ⟨-, -, htimers⟩ | ⟨-, -, htimers⟩
  · rw [htimers]
    refine ⟨hexpired, fun t ht => ?_⟩
    obtain rfl : t = ⟨c.timers.numCreated, c.timers.clock + c.retryDelayMs * 1000,
        .startInLoop⟩ := by simpa [OneShots.runAfter, hscheduled] using ht
    -- The iteration began no later than now, and the delay is no shorter than the first one.
    exact Nat.add_le_add hpast (Nat.mul_le_mul_right 1000 hdelay)
  · rw [htimers]
    refine ⟨hexpired, fun t ht => ?_⟩
    rw [hscheduled] at ht
    simp at ht

/-- An attempt is over: its channel waits for `resetChannel`. -/
theorem Tied.ended (h : Tied s registered) {channel : Channel}
    (attempt : s.connector.Connecting registered channel) (hidle : s.Idle)
    (hphase : s.iteration.phase = .handling) (hinactive : .connector ∉ s.iteration.active)
    {c' : Connector} (hholds : c'.poller.Holds (Function.update registered channel.fd none))
    (hchannel : c'.channel ≠ none) (hstate : c'.state ≠ .kConnecting)
    (hconnected : c'.state = .kConnected → c'.timers.waiting = [])
    (hone : c'.timers.waiting.length ≤ 1) (hexpired : c'.timers.expired = [])
    (hlater : ∀ t ∈ c'.timers.scheduled, s.iteration.began + kInitRetryDelay ≤ t.expiration)
    (hclock : c'.timers.clock = s.timers.clock)
    (hdelay : Connector.kInitRetryDelayMs ≤ c'.retryDelayMs) :
    Tied { s.setConnector c' with iteration := s.iteration.push [.resetChannel] }
      (Function.update registered channel.fd none) := by
  refine (h.owns.over attempt hidle hphase hinactive hholds hchannel hstate).tied ?_
  obtain ⟨hhandling, hclosing, -⟩ := hidle
  have hactive := h.owns.inactive (h.owns.unconnected attempt)
  refine { h.timed with
    one := hone
    trying := fun hconnecting => absurd hconnecting hstate
    connected := hconnected
    pending := fun _ _ => ⟨?_, hactive, hhandling, hclosing, hexpired, hlater⟩
    time := fun hpolling => hclock.trans_lt (h.time hpolling)
    past := h.past.trans hclock.ge
    delay := hdelay
    uncalled := fun hcalled => ?_ }
  · show s.iteration.phase ≠ _
    simp [hphase]
  · exact absurd (attempt.state.symm.trans (h.uncalled hcalled).1) (by decide)

/-- A socket is handed over: a connection comes up. -/
theorem Tied.newConnection (h : Tied s registered) (hconnection : s.client.connection = none)
    (hconnected : s.connector.state = .kConnected) (hpending : s.Pending) {sockfd : Int}
    (hfree : registered sockfd = none)
    (hapart : ∀ i c, s.numbered i = some c → c.channel.index ≠ kNew → c.channel.fd ≠ sockfd)
    (ptr : ChannelPtr) :
    Stable (s.newConnection sockfd ptr).val ∧
      (s.newConnection sockfd ptr).trace =
        [.conn s.conns.length (.connectionCallback true)] ∧
      ∃ c : TcpConnection, (s.newConnection sockfd ptr).val.conns = s.conns ++ [c] ∧
        c.channel.fd = sockfd := by
  obtain ⟨x, hfd, hval, registered', howns⟩ := h.owns.newConnection hconnection hconnected
    hpending.handling hpending.closing hfree hapart ptr
  refine ⟨⟨registered', howns.tied ?_⟩, by rw [hval], x.val, by rw [hval], hfd⟩
  rw [hval]
  exact { h.timed with
    pending := fun _ _ => ⟨hpending.phase, hpending.active, hpending.handling, hpending.closing,
      hpending.expired, hpending.later⟩
    uncalled := fun hcalled =>
      absurd (hconnected.symm.trans (h.uncalled hcalled).1) (by decide) }

/-! ## Flags, timers and masks -/

/-- Flags and timers change, and no timer is added. -/
theorem Tied.switched (h : Tied s registered) (retry_ connect_ restarts called : Bool)
    (timers : OneShots ClientTimer) (hcalled : called = false → s.called = false)
    (hwaiting : timers.waiting.length ≤ s.timers.waiting.length)
    (htime : s.iteration.phase ≠ .polling →
      timers.clock < s.iteration.began + kInitRetryDelay)
    (hpast : s.iteration.began ≤ timers.clock)
    (hpending : s.Pending → timers.expired = [] ∧
      ∀ t ∈ timers.scheduled, s.iteration.began + kInitRetryDelay ≤ t.expiration) :
    Tied { s with
      client := { s.client with
        retry_
        connect_
        connector := { s.connector with connect_ := restarts, timers } }
      called } registered := by
  refine (h.owns.switched retry_ connect_ restarts called timers).tied ?_
  have hnone (hnil : s.timers.waiting = []) : timers.waiting = [] := by
    rw [hnil] at hwaiting
    exact List.length_eq_zero_iff.mp (Nat.le_zero.mp hwaiting)
  refine { h.timed with
    one := hwaiting.trans h.one
    trying := fun hstate => hnone (h.timed.trying hstate)
    connected := fun hstate => hnone (h.timed.connected hstate)
    pending := fun hstate hchannel => ?_
    time := htime
    past := hpast
    uncalled := fun hno => ?_ }
  · have hp := h.timed.pending hstate hchannel
    obtain ⟨hexpired, hlater⟩ := hpending hp
    exact ⟨hp.phase, hp.active, hp.handling, hp.closing, hexpired, hlater⟩
  · obtain ⟨hstate, hchannel, hnil⟩ := h.uncalled (hcalled hno)
    exact ⟨hstate, hchannel, hnone hnil⟩

/-- The mask that is set for the channel of an attempt. -/
theorem Tied.activated (h : Tied s registered) {channel : Channel} {revents : EventMask}
    {iteration : Iteration ClientChannel ClientFunctor}
    (hchannel : s.connector.channel = some channel)
    (hstep : s.iteration.activate .connector = some iteration) :
    Stable { s.setConnector { s.connector with channel := some { channel with revents } } with
      iteration } := by
  obtain ⟨hstate, registered', howns⟩ := h.owns.activated revents hchannel hstep
  obtain ⟨-, -, rfl⟩ := Iteration.activate_eq_some.mp hstep
  refine ⟨registered', howns.tied { h.timed with
    pending := fun hne => absurd hstate hne
    uncalled := fun hcalled => ?_ }⟩
  exact absurd (hstate.symm.trans (h.uncalled hcalled).1) (by decide)

/-! ## Connections that are dropped, and channels that are reset -/

/-- The client drops the connection that has told it that it is down. -/
theorem Tied.removed (h : Tied s registered) (hclosing : s.closing = some i) :
    Tied { s with
      closing := none
      client := { s.client with connection := none }
      iteration := s.iteration.push [.connectionDestroyed i] } registered ∧
    s.connector.state = .kConnected ∧ s.connector.channel = none ∧ s.timers.waiting = [] ∧
    s.called = true := by
  obtain ⟨howns, hconnected⟩ := h.owns.removed hclosing
  have hchannel : s.connector.channel = none := by
    by_contra hne
    have hnone := (h.timed.pending (by simp [hconnected]) hne).closing
    simp [hclosing] at hnone
  have hcalled : s.called = true := by
    by_contra hno
    have hstate := (h.uncalled (by simpa using hno)).1
    rw [hconnected] at hstate
    simp at hstate
  exact ⟨howns.tied { h.timed with pending := fun _ hne => absurd hchannel hne }, hconnected,
    hchannel, h.timed.connected hconnected, hcalled⟩

/-- `restart()` has reset the connector. -/
theorem Tied.restarted (h : Tied s registered) (hconnection : s.client.connection = none)
    (hstate : s.connector.state = .kConnected) (hchannel : s.connector.channel = none)
    (hwaiting : s.timers.waiting = []) (hcalled : s.called = true) :
    Tied (s.setConnector { s.connector with
      state := .kDisconnected
      retryDelayMs := Connector.kInitRetryDelayMs
      connect_ := true }) registered :=
  (h.owns.restarted hconnection hstate).tied { h.timed with
    trying := fun _ => hwaiting
    connected := fun _ => hwaiting
    pending := fun _ hne => absurd hchannel hne
    delay := Nat.le_refl _
    uncalled := fun hno => absurd (hcalled.symm.trans hno) (by decide) }

/-- The channel of an attempt that is over is destroyed. -/
theorem Tied.resetChannel (h : Tied s registered)
    {iteration : Iteration ClientChannel ClientFunctor}
    (hnext : s.iteration.nextFunctor = some (.resetChannel, iteration)) :
    Tied ({ s with iteration }.setConnector s.connector.resetChannel) registered ∧
      s.connector.state ≠ .kConnecting := by
  obtain ⟨howns, hstate⟩ := h.owns.resetChannel hnext
  refine ⟨howns.tied { h.timed.nextFunctor hnext with
    pending := fun _ hne => absurd rfl hne
    uncalled := fun hcalled => ?_ }, hstate⟩
  obtain ⟨hdisconnected, -, hwaiting⟩ := h.uncalled hcalled
  exact ⟨hdisconnected, rfl, hwaiting⟩

end ClientLoop
end Chaonet
