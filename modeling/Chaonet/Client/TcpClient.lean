import Chaonet.Client.Connector
import Chaonet.Connection.Stages
import Chaonet.Foundation.Run
import Chaonet.Reactor.Iteration

/-!
# TCP clients

`TcpClient` embeds the class of the same name, and `ClientLoop` is a client in its loop: with
the connections it has made, the iterations of the loop, and the callbacks of a connection
that are being run.  The connections are numbered as they are made; the poller of the loop is
that of the connector, and a connection has it while one of its members runs.

The user calls the client and its connections at any point on the loop thread.  A call from
inside a callback is a step between the callbacks; `closeCallback_` is a step of its own, so
that the user can call the client when it is told that a connection is down.  An assertion of
the connector or the client that fails is the last event of the run.
-/

namespace Chaonet

open Foundation

structure TcpClient where
  connector : Connector
  /-- Whether `writeCompleteCallback_` is set. -/
  writeCompleteCallback : Bool
  retry_ : Bool
  connect_ : Bool
  /-- The number of the connection in `connection_`. -/
  connection : Option Nat

/-- `TcpClient(loop, serverAddr, name)`, and whether a write callback is set. -/
def TcpClient.create (poller : EPoller) (timers : OneShots ClientTimer) (writeComplete : Bool) :
    TcpClient :=
  { connector := .create poller timers
    writeCompleteCallback := writeComplete
    retry_ := false
    connect_ := true
    connection := none }

/-- The channels of a loop that belong to a client. -/
inductive ClientChannel
  | connector
  | connection (i : Nat)
deriving DecidableEq, Repr

/-- The functors that are queued for a client. -/
inductive ClientFunctor
  | resetChannel
  | connectionDestroyed (i : Nat)
  | user (i : Nat) (f : UserFunctor)
deriving DecidableEq, Repr

structure ClientLoop where
  client : TcpClient
  /-- The connections, in the order in which `newConnection` has made them. -/
  conns : List TcpConnection
  iteration : Iteration ClientChannel ClientFunctor
  /-- The callbacks that are left of the event of a connection. -/
  handling : List (Nat × ChannelCallback)
  /-- The connection that is about to call `closeCallback_`. -/
  closing : Option Nat
  /-- Whether `connect()` has been called; the code does not have it. -/
  called : Bool
  /-- Whether an assertion has ended the program. -/
  aborted : Bool

namespace ClientLoop

inductive Event
  | connector (e : Connector.Event)
  | conn (i : Nat) (e : TcpConnection.Event)
  /-- The assertion `connection_ == conn` of `removeConnection` has failed. -/
  | removedOther
deriving DecidableEq, Repr

/-- Whether an event is a failed assertion of the connector or the client. -/
def Event.isFailure : Event → Bool
  | .connector (.failed _) | .connector .nullChannel | .removedOther => true
  | _ => false

def connector (s : ClientLoop) : Connector := s.client.connector

def poller (s : ClientLoop) : EPoller := s.client.connector.poller

def timers (s : ClientLoop) : OneShots ClientTimer := s.client.connector.timers

def setConnector (s : ClientLoop) (connector : Connector) : ClientLoop :=
  { s with client := { s.client with connector } }

/-- Connection `i`, as one of its members finds it. -/
def conn? (s : ClientLoop) (i : Nat) : Option TcpConnection :=
  s.conns[i]?.map fun c => c.on s.poller

/-! ## Members and what they lead to -/

/-- The functors a member of the connector passed to `queueInLoop`. -/
def queuedByConnector (es : List Connector.Event) : List ClientFunctor :=
  es.filterMap fun
    | .queuedReset => some .resetChannel
    | _ => none

/-- The functors a member of connection `i` passed to `queueInLoop`. -/
def queuedByConn (i : Nat) (es : List TcpConnection.Event) : List ClientFunctor :=
  es.filterMap fun
    | .queued f => some (.user i f)
    | _ => none

/-- Let a member of the connector take effect. -/
def performConnector (s : ClientLoop) (x : Traced Connector.Event Connector) :
    Traced Event ClientLoop :=
  ⟨{ s.setConnector x.val with iteration := s.iteration.push (queuedByConnector x.trace) },
    x.trace.map .connector⟩

/-- Let a member of connection `i` take effect. -/
def performConn (s : ClientLoop) (i : Nat) (x : Traced TcpConnection.Event TcpConnection) :
    Traced Event ClientLoop :=
  ⟨{ s.setConnector { s.connector with poller := x.val.poller } with
      conns := s.conns.set i x.val
      iteration := s.iteration.push (queuedByConn i x.trace)
      closing := if .closeCallback ∈ x.trace then some i else s.closing },
    x.trace.map (.conn i)⟩

/-- Call a member of connection `i`. -/
def callConn (s : ClientLoop) (i : Nat)
    (member : TcpConnection → Traced TcpConnection.Event TcpConnection) : Traced Event ClientLoop :=
  match s.conn? i with
  | none => pure s
  | some c => s.performConn i (member c)

/-- `newConnection(sockfd)`, where the channel of the connection gets the address `ptr`. -/
def newConnection (s : ClientLoop) (sockfd : Int) (ptr : ChannelPtr) : Traced Event ClientLoop :=
  let i := s.conns.length
  let c := TcpConnection.create (Channel.create ptr sockfd) s.poller
    s.client.writeCompleteCallback false
  { s with
    client := { s.client with connection := some i }
    conns := s.conns ++ [c] }.performConn i c.connectionEstablished

/-- The socket that a member of the connector handed to `newConnectionCallback_`; doing so
is the last thing it does. -/
def handedOver (es : List Connector.Event) : Option Int :=
  es.findSome? fun
    | .newConnectionCallback sockfd => some sockfd
    | _ => none

/-- The connector handles an event of its channel. -/
def handleConnector (s : ClientLoop) (status : SocketStatus) (ptr : ChannelPtr) :
    Traced Event ClientLoop := do
  -- `newConnection` is called from within, and nothing of the connector runs after it.
  let x := s.connector.handleEvent status
  let s ← s.performConnector x
  match handedOver x.trace with
  | none => pure s
  | some sockfd => s.newConnection sockfd ptr

def removeConnection (s : ClientLoop) (i : Nat) (a : Attempt) : Traced Event ClientLoop := do
  Traced.check .removedOther (s.client.connection = some i)
  let s := { s with
    client := { s.client with connection := none }
    iteration := s.iteration.push [.connectionDestroyed i] }
  if s.client.retry_ = true ∧ s.client.connect_ = true then
    s.performConnector (s.connector.restart a)
  else
    pure s

def connect (s : ClientLoop) (a : Attempt) : Traced Event ClientLoop :=
  let s := { s with client := { s.client with connect_ := true }, called := true }
  s.performConnector (s.connector.start a)

def disconnect (s : ClientLoop) : Traced Event ClientLoop :=
  let s := { s with client := { s.client with connect_ := false } }
  match s.client.connection with
  | none => pure s
  | some i => s.callConn i TcpConnection.shutdown

def stop (s : ClientLoop) : ClientLoop :=
  let s := { s with client := { s.client with connect_ := false } }
  s.setConnector s.connector.stop

/-- Run a functor. -/
def invoke (s : ClientLoop) : ClientFunctor → Traced Event ClientLoop
  | .resetChannel => pure (s.setConnector s.connector.resetChannel)
  | .connectionDestroyed i => s.callConn i TcpConnection.connectionDestroyed
  | .user _ _ => pure s

/-! ## Steps -/

/-- The public calls, made on the loop thread. -/
inductive Call
  | connect (a : Attempt)
  | disconnect
  | stop
  | enableRetry
  /-- `send` of a connection the user holds. -/
  | send (i : Nat) (message : Bytes) (r : WriteResult)
  /-- `shutdown` of a connection the user holds. -/
  | shutdown (i : Nat)
deriving DecidableEq, Repr

def call (s : ClientLoop) : Call → Traced Event ClientLoop
  | .connect a => s.connect a
  | .disconnect => s.disconnect
  | .stop => pure s.stop
  | .enableRetry => pure { s with client := { s.client with retry_ := true } }
  | .send i message r => s.callConn i fun c => c.send message r
  | .shutdown i => s.callConn i TcpConnection.shutdown

inductive Label
  | call (c : Call)
  | tick (micros : Nat)
  /-- `poll` finds the channel with these `revents`. -/
  | activate (o : ClientChannel) (revents : EventMask)
  | wake
  /-- The next active channel handles its event; `ptr` is the address of a new channel. -/
  | handleEvent (status : SocketStatus) (ptr : ChannelPtr)
  /-- The next callback of a connection. -/
  | callback (input : TcpConnection.Input)
  /-- `closeCallback_`; the connector may be restarted. -/
  | closeCallback (a : Attempt)
  /-- `TimerQueue::handleRead` collects its batch. -/
  | expire
  | runTimer (t : Shot ClientTimer) (a : Attempt)
  | swap
  | runFunctor
  | finish
deriving DecidableEq, Repr

/-- No callback of a connection and no timer of a batch is left to run. -/
def Idle (s : ClientLoop) : Prop :=
  s.handling = [] ∧ s.closing = none ∧ s.timers.expired = []

instance (s : ClientLoop) : Decidable s.Idle := inferInstanceAs (Decidable (_ ∧ _ ∧ _))

/-- Move on in the iteration. -/
def proceed (s : ClientLoop) (moved : Option (Iteration ClientChannel ClientFunctor)) :
    Option (Traced Event ClientLoop) :=
  if s.Idle then moved.map fun iteration => pure { s with iteration } else none

/-- `poll` returns only channels of the epoll set.  What it returns for a socket that is
connected is what the kernel delivers for one. -/
def activate (s : ClientLoop) (o : ClientChannel) (revents : EventMask) :
    Option (Traced Event ClientLoop) :=
  match o with
  | .connector =>
      match s.connector.channel with
      | none => none
      | some channel =>
          if s.poller.epollSet channel.fd ≠ none then
            (s.iteration.activate .connector).map fun iteration =>
              let channel := some { channel with revents }
              pure { s.setConnector { s.connector with channel } with iteration }
          else none
  | .connection i =>
      match s.conns[i]? with
      | none => none
      | some c =>
          if c.channel.index = kAdded ∧ s.poller.epollSet c.channel.fd ≠ none ∧
              CallbackSession.Deliverable c.channel revents then
            (s.iteration.activate (.connection i)).map fun iteration =>
              let c := { c with channel := { c.channel with revents } }
              pure { s with conns := s.conns.set i c, iteration }
          else none

/-- The next active channel handles its event. -/
def handleEvent (s : ClientLoop) (status : SocketStatus) (ptr : ChannelPtr) :
    Option (Traced Event ClientLoop) :=
  if s.Idle then
    match s.iteration.next with
    | none => none
    | some (.connector, iteration) => some ({ s with iteration }.handleConnector status ptr)
    | some (.connection i, iteration) =>
        match s.conns[i]? with
        | none => none
        | some c =>
            let handling := c.channel.handleEvent.map fun cb => (i, cb)
            some (pure { s with iteration, handling })
  else none

/-- The enabled steps of a program that has not been ended. -/
def advance (s : ClientLoop) : Label → Option (Traced Event ClientLoop)
  | .call c => some (s.call c)
  | .tick micros =>
      some (pure (s.setConnector { s.connector with timers := s.timers.tick micros }))
  | .activate o revents => s.activate o revents
  | .wake => s.proceed (s.iteration.wake s.timers.clock)
  | .handleEvent status ptr => s.handleEvent status ptr
  | .callback input =>
      match s.handling, s.closing with
      | (i, cb) :: handling, none =>
          some ({ s with handling }.callConn i fun c => c.handle input cb)
      | _, _ => none
  | .closeCallback a =>
      match s.closing with
      | none => none
      | some i => some ({ s with closing := none }.removeConnection i a)
  | .expire =>
      if s.iteration.phase = .handling ∧ s.Idle then
        some (pure (s.setConnector { s.connector with timers := s.timers.handleRead }))
      else none
  | .runTimer t a =>
      if s.iteration.phase = .handling ∧ t ∈ s.timers.expired then
        let connector := { s.connector with timers := s.timers.run t }
        match t.callback with
        | .startInLoop => some (s.performConnector (connector.startInLoop a))
        -- The timer of `~TcpClient` holds the connector and does nothing with it.
        | .removeConnector => some (pure (s.setConnector connector))
      else none
  | .swap => s.proceed s.iteration.swap
  | .runFunctor =>
      s.iteration.nextFunctor.map fun r => { s with iteration := r.2 }.invoke r.1
  | .finish => s.proceed s.iteration.finish

/-- A step ends with the first assertion that fails. -/
def untilFailure (x : Traced Event ClientLoop) : Traced Event ClientLoop :=
  match x.trace.findIdx? Event.isFailure with
  | none => x
  | some n => ⟨{ x.val with aborted := true }, x.trace.take (n + 1)⟩

def step (s : ClientLoop) (l : Label) : Option (Traced Event ClientLoop) :=
  if s.aborted = true then none else (s.advance l).map untilFailure

def Step : ClientLoop → Label → List Event → ClientLoop → Prop := stepOf step

/-- A new client in a new loop. -/
def start (clock numCreated : Nat) (writeComplete : Bool) : ClientLoop :=
  { client := .create .create (.create clock numCreated) writeComplete
    conns := []
    iteration := .create clock
    handling := []
    closing := none
    called := false
    aborted := false }

/-! ## What each step does -/

theorem proceed_eq_some {s : ClientLoop} {x : Traced Event ClientLoop}
    {moved : Option (Iteration ClientChannel ClientFunctor)} (h : s.proceed moved = some x) :
    s.Idle ∧ ∃ iteration, moved = some iteration ∧ x = pure { s with iteration } := by
  unfold proceed at h
  split_ifs at h with hidle
  obtain ⟨iteration, hmoved, rfl⟩ := Option.map_eq_some_iff.mp h
  exact ⟨hidle, iteration, hmoved, rfl⟩

/-- What each step does, as one proposition. -/
theorem advance_cases {s : ClientLoop} {l : Label} {x : Traced Event ClientLoop}
    (h : s.advance l = some x) :
    match l with
    | .call c => x = s.call c
    | .tick micros =>
        x = pure (s.setConnector { s.connector with timers := s.timers.tick micros })
    | .activate .connector revents => ∃ channel iteration, s.connector.channel = some channel ∧
        s.poller.epollSet channel.fd ≠ none ∧
        s.iteration.activate .connector = some iteration ∧
        x = pure { s.setConnector { s.connector with
          channel := some { channel with revents } } with iteration }
    | .activate (.connection i) revents => ∃ c iteration, s.conns[i]? = some c ∧
        c.channel.index = kAdded ∧ s.poller.epollSet c.channel.fd ≠ none ∧
        CallbackSession.Deliverable c.channel revents ∧
        s.iteration.activate (.connection i) = some iteration ∧
        x = pure { s with
          conns := s.conns.set i { c with channel := { c.channel with revents } }
          iteration }
    | .wake => s.Idle ∧ ∃ iteration, s.iteration.wake s.timers.clock = some iteration ∧
        x = pure { s with iteration }
    | .handleEvent status ptr => s.Idle ∧
        ((∃ iteration, s.iteration.next = some (.connector, iteration) ∧
          x = { s with iteration }.handleConnector status ptr) ∨
        ∃ i c iteration, s.iteration.next = some (.connection i, iteration) ∧
          s.conns[i]? = some c ∧
          x = pure { s with
            iteration
            handling := c.channel.handleEvent.map fun cb => (i, cb) })
    | .callback input => ∃ i cb handling, s.handling = (i, cb) :: handling ∧ s.closing = none ∧
        x = { s with handling }.callConn i fun c => c.handle input cb
    | .closeCallback a => ∃ i, s.closing = some i ∧
        x = { s with closing := none }.removeConnection i a
    | .expire => s.iteration.phase = .handling ∧ s.Idle ∧
        x = pure (s.setConnector { s.connector with timers := s.timers.handleRead })
    | .runTimer t a => s.iteration.phase = .handling ∧ t ∈ s.timers.expired ∧
        let connector := { s.connector with timers := s.timers.run t }
        x = s.performConnector (connector.startInLoop a) ∨ x = pure (s.setConnector connector)
    | .swap => s.Idle ∧ ∃ iteration, s.iteration.swap = some iteration ∧
        x = pure { s with iteration }
    | .runFunctor => ∃ f iteration, s.iteration.nextFunctor = some (f, iteration) ∧
        x = { s with iteration }.invoke f
    | .finish => s.Idle ∧ ∃ iteration, s.iteration.finish = some iteration ∧
        x = pure { s with iteration } := by
  cases l with
  | call c => exact (Option.some.inj h).symm
  | tick micros => exact (Option.some.inj h).symm
  | activate o revents =>
      cases o with
      | connector =>
          simp only [advance, activate] at h
          cases hchannel : s.connector.channel with
          | none => simp [hchannel] at h
          | some channel =>
              simp only [hchannel] at h
              split_ifs at h with hset
              obtain ⟨iteration, hiteration, rfl⟩ := Option.map_eq_some_iff.mp h
              exact ⟨channel, iteration, rfl, hset, hiteration, rfl⟩
      | connection i =>
          simp only [advance, activate] at h
          cases hc : s.conns[i]? with
          | none => simp [hc] at h
          | some c =>
              simp only [hc] at h
              split_ifs at h with hguard
              obtain ⟨iteration, hiteration, rfl⟩ := Option.map_eq_some_iff.mp h
              exact ⟨c, iteration, hc, hguard.1, hguard.2.1, hguard.2.2, hiteration, rfl⟩
  | wake => exact proceed_eq_some h
  | handleEvent status ptr =>
      simp only [advance, handleEvent] at h
      split_ifs at h with hidle
      refine ⟨hidle, ?_⟩
      cases hnext : s.iteration.next with
      | none => simp [hnext] at h
      | some r =>
          obtain ⟨o, iteration⟩ := r
          cases o with
          | connector =>
              simp only [hnext, Option.some.injEq] at h
              exact Or.inl ⟨iteration, rfl, h.symm⟩
          | connection i =>
              simp only [hnext] at h
              cases hc : s.conns[i]? with
              | none => simp [hc] at h
              | some c =>
                  simp only [hc, Option.some.injEq] at h
                  exact Or.inr ⟨i, c, iteration, rfl, hc, h.symm⟩
  | callback input =>
      simp only [advance] at h
      split at h
      · rename_i i cb handling hhandling hclosing
        exact ⟨i, cb, handling, hhandling, hclosing, (Option.some.inj h).symm⟩
      · simp at h
  | closeCallback a =>
      simp only [advance] at h
      cases hclosing : s.closing with
      | none => simp [hclosing] at h
      | some i =>
          simp only [hclosing, Option.some.injEq] at h
          exact ⟨i, rfl, h.symm⟩
  | expire =>
      simp only [advance] at h
      split_ifs at h with hguard
      exact ⟨hguard.1, hguard.2, (Option.some.inj h).symm⟩
  | runTimer t a =>
      simp only [advance] at h
      split_ifs at h with hguard
      refine ⟨hguard.1, hguard.2, ?_⟩
      cases hcallback : t.callback with
      | startInLoop =>
          simp only [hcallback, Option.some.injEq] at h
          exact Or.inl h.symm
      | removeConnector =>
          simp only [hcallback, Option.some.injEq] at h
          exact Or.inr h.symm
  | swap => exact proceed_eq_some h
  | runFunctor =>
      obtain ⟨⟨f, iteration⟩, hnext, rfl⟩ := Option.map_eq_some_iff.mp h
      exact ⟨f, iteration, hnext, rfl⟩
  | finish => exact proceed_eq_some h

/-- A step is what `advance` does, up to the first assertion that fails. -/
theorem step_cases {s t : ClientLoop} {l : Label} {es : List Event} (h : Step s l es t) :
    s.aborted = false ∧ ∃ x, s.advance l = some x ∧ ⟨t, es⟩ = untilFailure x := by
  simp only [Step, stepOf, step] at h
  split_ifs at h with haborted
  obtain ⟨x, hx, heq⟩ := Option.map_eq_some_iff.mp h
  exact ⟨by simpa using haborted, x, hx, heq.symm⟩

theorem untilFailure_of {x : Traced Event ClientLoop} (h : ∀ e ∈ x.trace, e.isFailure = false) :
    untilFailure x = x := by
  unfold untilFailure
  rw [List.findIdx?_eq_none_iff.mpr h]

theorem untilFailure_head {s : ClientLoop} {e : Event} {es : List Event} (h : e.isFailure = true) :
    untilFailure ⟨s, e :: es⟩ = ⟨{ s with aborted := true }, [e]⟩ := by
  simp [untilFailure, List.findIdx?_cons, h]

/-- Nothing is added where a step ends early. -/
theorem untilFailure_cases (x : Traced Event ClientLoop) :
    ((untilFailure x).val = x.val ∨ (untilFailure x).val = { x.val with aborted := true }) ∧
      ∀ e ∈ (untilFailure x).trace, e ∈ x.trace := by
  unfold untilFailure
  split
  · exact ⟨Or.inl rfl, fun e he => he⟩
  · exact ⟨Or.inr rfl, fun e he => List.mem_of_mem_take he⟩

end ClientLoop
end Chaonet
