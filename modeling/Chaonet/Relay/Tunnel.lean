import Chaonet.Connection.Stages
import Chaonet.Foundation.Run
import Chaonet.Reactor.Iteration

/-!
# Tunnels

`Tunnel` embeds the class of the same name, with the two connections that it relays between and the
loop that both are on.  `serverConn_` is the connection that the relay has accepted; `client_` makes
one connection, which becomes `clientConn_` until it is closed.  What the server of the relay does
with its connection (`onServerConnection`, `onServerMessage`) and `g_tunnels` are part of it.

The callbacks for the high-water mark and for a completed write are functors of the loop.  They hold
the tunnel by a weak pointer, so that they do nothing once the tunnel is gone (`Alive`); whoever
finds `clientConn_` null shows it as an event.

The connector of `client_` is left out but for what it does in the end, which is `newConnection`.
Both examples start the tunnel while channels are handled, `socks4a` from inside an event of the
connection.
-/

namespace Chaonet

open Foundation

/-- `Tunnel::ServerClient`. -/
inductive ServerClient
  | kServer
  | kClient
deriving DecidableEq, Repr

/-- The functors that are queued for a tunnel. -/
inductive TunnelFunctor
  | connectionDestroyed (which : ServerClient)
  /-- `onHighWaterMarkWeak` or `onWriteCompleteWeak`, with the connection that has queued it. -/
  | flow (which : ServerClient) (f : UserFunctor)
deriving DecidableEq, Repr

structure Tunnel where
  serverConn : TcpConnection
  /-- The connection that `client_` has made. -/
  made : Option TcpConnection
  /-- Whether `client_.connection_` is set. -/
  connection : Bool
  /-- Whether `client_` has the callbacks of the tunnel. -/
  callbacks : Bool
  /-- Whether `clientConn_` is set. -/
  clientConn : Bool
  /-- Whether the context of `serverConn_` is set. -/
  context : Bool
  /-- Whether `g_tunnels` has the tunnel. -/
  mapped : Bool
  poller : EPoller
  iteration : Iteration ServerClient TunnelFunctor
  /-- `functors` of `doPendingFunctors`. -/
  functors : List TunnelFunctor
  /-- The callbacks that are left of the event of a connection. -/
  handling : List (ServerClient × ChannelCallback)

namespace TcpConnection

/-- `setHighWaterMarkCallback(cb, 1024 * 1024)`. -/
def setHighWaterMarkCallback (c : TcpConnection) : TcpConnection :=
  { c with highWaterMark := 1024 * 1024, highWaterMarkCallback := true }

def setWriteCompleteCallback (c : TcpConnection) (cb : Bool) : TcpConnection :=
  { c with writeCompleteCallback := cb }

end TcpConnection

namespace TunnelFunctor

/-- The connection that the functor holds. -/
def which : TunnelFunctor → ServerClient
  | .connectionDestroyed which => which
  | .flow which _ => which

def isFlow : TunnelFunctor → Bool
  | .connectionDestroyed _ => false
  | .flow _ _ => true

end TunnelFunctor

namespace Tunnel

inductive Event
  | conn (which : ServerClient) (e : TcpConnection.Event)
  /-- `clientConn_` is used while it is null. -/
  | nullClient
  /-- The assertion of `onServerConnection` has failed. -/
  | unmapped
  /-- The assertion `connection_ == conn` of `removeConnection` has failed. -/
  | removedOther
deriving DecidableEq, Repr

/-- The tunnel after `setup()`. -/
def create (serverConn : TcpConnection) (iteration : Iteration ServerClient TunnelFunctor)
    (handling : List (ServerClient × ChannelCallback)) : Tunnel :=
  { serverConn := serverConn.setHighWaterMarkCallback
    made := none
    connection := false
    callbacks := true
    clientConn := false
    context := false
    mapped := true
    poller := serverConn.poller
    iteration
    functors := []
    handling }

/-! ## The connections -/

/-- A connection, as one of its members finds it. -/
def conn? (s : Tunnel) : ServerClient → Option TcpConnection
  | .kServer => some (s.serverConn.on s.poller)
  | .kClient => s.made.map fun c => c.on s.poller

def setConn (s : Tunnel) (which : ServerClient) (c : TcpConnection) : Tunnel :=
  match which with
  | .kServer => { s with serverConn := c, poller := c.poller }
  | .kClient => { s with made := some c, poller := c.poller }

/-- A setter of a connection. -/
def modify (s : Tunnel) (which : ServerClient) (f : TcpConnection → TcpConnection) : Tunnel :=
  match s.conn? which with
  | none => s
  | some c => s.setConn which (f c)

/-- The functors that a member of a connection passed to `queueInLoop`. -/
def queuedBy (which : ServerClient) (es : List TcpConnection.Event) : List TunnelFunctor :=
  es.filterMap fun
    | .queued f => some (.flow which f)
    | _ => none

/-- Let a member of a connection take effect. -/
def perform (s : Tunnel) (which : ServerClient) (x : Traced TcpConnection.Event TcpConnection) :
    Traced Event Tunnel :=
  ⟨{ s.setConn which x.val with iteration := s.iteration.push (queuedBy which x.trace) },
    x.trace.map (.conn which)⟩

/-- Call a member of a connection. -/
def call (s : Tunnel) (which : ServerClient)
    (member : TcpConnection → Traced TcpConnection.Event TcpConnection) : Traced Event Tunnel :=
  match s.conn? which with
  | none => pure s
  | some c => s.perform which (member c)

/-- `target->send(buf)` with the input buffer of `source`. -/
def sendBuffer (s : Tunnel) (source target : ServerClient) (r : WriteResult) :
    Traced Event Tunnel :=
  match s.conn? source, s.conn? target with
  | some c, some d =>
      if d.state = .kConnected then
        let (msg, inputBuffer) := c.inputBuffer.retrieveAsString
        (s.setConn source { c with inputBuffer }).call target fun d => d.sendInLoop msg r
      else pure s
  | _, _ => pure s

/-! ## The members of the tunnel -/

def teardown (s : Tunnel) : Traced Event Tunnel := do
  let s := { s with callbacks := false, context := false }
  let s ← s.call .kServer TcpConnection.shutdown
  pure { s with clientConn := false }

/-- `onClientConnection` for a connection that is up. -/
def onClientUp (s : Tunnel) (r : WriteResult) : Traced Event Tunnel := do
  let s := { s.modify .kClient TcpConnection.setHighWaterMarkCallback with context := true }
  let s ← s.call .kServer TcpConnection.startReadInLoop
  let s := { s with clientConn := true }
  if 0 < s.serverConn.inputBuffer.readableBytes then s.sendBuffer .kServer .kClient r else pure s

/-- Use `clientConn_`; nothing is said of what a null pointer leads to. -/
def useClient (s : Tunnel) (use : Tunnel → Traced Event Tunnel) : Traced Event Tunnel :=
  if s.clientConn = true then use s
  else do
    Traced.emit .nullClient
    pure s

/-- `outputBuffer()->readableBytes()`. -/
def outputBytes (s : Tunnel) (which : ServerClient) : Nat :=
  match s.conn? which with
  | none => 0
  | some c => c.outputBuffer.readableBytes

def onHighWaterMark (s : Tunnel) : ServerClient → Traced Event Tunnel
  | .kServer =>
      if 0 < s.outputBytes .kServer then
        s.useClient fun s => do
          let s ← s.call .kClient TcpConnection.stopReadInLoop
          pure (s.modify .kServer fun c => c.setWriteCompleteCallback true)
      else pure s
  | .kClient =>
      s.useClient fun s =>
        if 0 < s.outputBytes .kClient then do
          let s ← s.call .kServer TcpConnection.stopReadInLoop
          pure (s.modify .kClient fun c => c.setWriteCompleteCallback true)
        else pure s

def onWriteComplete (s : Tunnel) : ServerClient → Traced Event Tunnel
  | .kServer =>
      s.useClient fun s => do
        let s ← s.call .kClient TcpConnection.startReadInLoop
        pure (s.modify .kServer fun c => c.setWriteCompleteCallback false)
  | .kClient => do
      let s ← s.call .kServer TcpConnection.startReadInLoop
      s.useClient fun s => pure (s.modify .kClient fun c => c.setWriteCompleteCallback false)

/-! ## The callbacks of the connections -/

/-- `onServerMessage` or `onClientMessage`. -/
def onMessage (s : Tunnel) (r : WriteResult) : ServerClient → Traced Event Tunnel
  | .kServer => if s.context = true then s.sendBuffer .kServer .kClient r else pure s
  | .kClient => s.sendBuffer .kClient .kServer r

/-- `disconnect()`. -/
def disconnect (s : Tunnel) : Traced Event Tunnel :=
  if s.connection = true then s.call .kClient TcpConnection.shutdown else pure s

/-- `onServerConnection` or `onClientConnection` for a connection that is down. -/
def onDown (s : Tunnel) : ServerClient → Traced Event Tunnel
  | .kServer => do
      Traced.check .unmapped s.mapped
      if s.mapped = true then do
        let s ← s.disconnect
        pure { s with mapped := false }
      else pure s
  | .kClient => s.teardown

/-- `removeConnection` of the server of the relay or of `client_`, which does not retry. -/
def removeConnection (s : Tunnel) (which : ServerClient) : Traced Event Tunnel := do
  let s ← match which with
    | .kServer => pure s
    | .kClient => do
        Traced.check .removedOther s.connection
        pure { s with connection := false }
  pure { s with iteration := s.iteration.push [.connectionDestroyed which] }

/-- Let a member take effect that may call the callbacks, which is the last thing it does. -/
def react (s : Tunnel) (which : ServerClient) (x : Traced TcpConnection.Event TcpConnection)
    (r : WriteResult) : Traced Event Tunnel := do
  let s ← s.perform which x
  let s ← if .messageCallback ∈ x.trace then s.onMessage r which else pure s
  let s ← if .connectionCallback false ∈ x.trace then s.onDown which else pure s
  if .closeCallback ∈ x.trace then s.removeConnection which else pure s

/-- `newConnection(sockfd)` of `client_`, where the channel gets the address `ptr`. -/
def newConnection (s : Tunnel) (sockfd : Int) (ptr : ChannelPtr) (r : WriteResult) :
    Traced Event Tunnel := do
  let c := TcpConnection.create (Channel.create ptr sockfd) s.poller false false
  let s ← { s with made := some c, connection := true }.call .kClient
    TcpConnection.connectionEstablished
  s.onClientUp r

/-! ## The functors -/

/-- What holds the tunnel: `g_tunnels`, the callbacks of `client_`, and those of the connection of
`client_` as long as something holds that. -/
def Alive (s : Tunnel) : Prop :=
  s.mapped = true ∨ s.callbacks = true ∨ s.connection = true ∨ s.clientConn = true ∨
    s.context = true ∨ ∃ f ∈ s.functors ++ s.iteration.queue.queued, f.which = .kClient

instance (s : Tunnel) : Decidable s.Alive :=
  inferInstanceAs (Decidable (_ ∨ _ ∨ _ ∨ _ ∨ _ ∨ _))

/-- Run a functor. -/
def invoke (s : Tunnel) : TunnelFunctor → Traced Event Tunnel
  | .connectionDestroyed which =>
      match s.conn? which with
      | none => pure s
      | some c => s.react which c.connectionDestroyed (.error true)
  | .flow which f =>
      -- `wkTunnel.lock()`.
      if s.Alive then
        match f with
        | .highWaterMarkCallback _ => s.onHighWaterMark which
        | .writeCompleteCallback => s.onWriteComplete which
      else pure s

/-! ## Steps -/

inductive Label
  /-- `poll` finds the channel of a connection with these `revents`. -/
  | activate (which : ServerClient) (revents : EventMask)
  | wake
  /-- The next active channel handles its event. -/
  | handleEvent
  /-- The next callback of the event, with what `readv` and `::write` return in it. -/
  | callback (read : Option Bytes) (write : WriteResult)
  /-- The connector hands its socket over. -/
  | newConnection (sockfd : Int) (ptr : ChannelPtr) (write : WriteResult)
  | swap
  | runFunctor
  | finish
deriving DecidableEq, Repr

/-- What the callback of an event makes of a connection. -/
def handled (c : TcpConnection) (read : Option Bytes) (write : WriteResult)
    (cb : ChannelCallback) : Traced TcpConnection.Event TcpConnection :=
  -- The message callback takes its bytes itself.
  c.handle ⟨read, 0, write⟩ cb

def step (s : Tunnel) : Label → Option (Traced Event Tunnel)
  | .activate which revents =>
      match s.conn? which with
      | none => none
      | some c =>
          if c.channel.index = kAdded ∧ s.poller.epollSet c.channel.fd ≠ none ∧
              CallbackSession.Deliverable c.channel revents then
            (s.iteration.activate which).map fun iteration =>
              let c := { c with channel := { c.channel with revents } }
              pure { s.setConn which c with iteration }
          else none
  | .wake =>
      if s.handling = [] then
        (s.iteration.wake 0).map fun iteration => pure { s with iteration }
      else none
  | .handleEvent =>
      if s.handling = [] then
        match s.iteration.next with
        | none => none
        | some (which, iteration) =>
            (s.conn? which).map fun c =>
              pure { s with iteration, handling := c.channel.handleEvent.map fun cb => (which, cb) }
      else none
  | .callback read write =>
      match s.handling with
      | [] => none
      | (which, cb) :: handling =>
          (s.conn? which).map fun c =>
            { s with handling }.react which (handled c read write cb) write
  | .newConnection sockfd ptr write =>
      if s.iteration.phase = .handling ∧ s.handling = [] ∧ s.made.isNone ∧ s.callbacks = true ∧
          s.poller.channels sockfd = none then
        some (s.newConnection sockfd ptr write)
      else none
  | .swap =>
      if s.handling = [] then
        s.iteration.swap.map fun iteration =>
          pure { s with iteration, functors := iteration.queue.queued }
      else none
  | .runFunctor => s.iteration.nextFunctor.map fun r => { s with iteration := r.2 }.invoke r.1
  | .finish =>
      s.iteration.finish.map fun iteration => pure { s with iteration, functors := [] }

def Step : Tunnel → Label → List Event → Tunnel → Prop := stepOf step

/-- A tunnel that has just been set up: `serverConn_` is up, and nothing has been queued for it. -/
inductive Start : Tunnel → Prop
  | setup (c : TcpConnection) (iteration : Iteration ServerClient TunnelFunctor)
      (handling : List (ServerClient × ChannelCallback)) (state : c.state = .kConnected)
      (writeComplete : c.writeCompleteCallback = false) (tracks : c.poller.Tracks c.channel)
      (input : c.inputBuffer.Valid) (output : c.outputBuffer.Valid) (turn : iteration.InTurn)
      (phase : iteration.phase = .handling) (queue : iteration.queue = .empty)
      (active : ∀ which ∈ iteration.active, which = .kServer)
      (event : ∀ cb ∈ handling, cb.1 = .kServer) : Start (create c iteration handling)

end Tunnel
end Chaonet
