import Chaonet.Buffer.Model
import Chaonet.Reactor.EPoller

/-!
# TCP connections

`TcpConnection` embeds the class of the same name with the members that move its
state: the output path (`sendInLoop`, `handleWrite`), the life cycle
(`connectionEstablished`, `handleClose`, `connectionDestroyed`), shutting down, and
the read switch.  The poller of the connection's loop is the part of `loop_` that the
connection drives; it is a field here.

What leaves the object is an `Event`: bytes accepted by `::write`, the `FIN` of
`shutdownWrite`, functors handed to `queueInLoop`, user callbacks, and the assertions
that fail in the object, its buffers or its poller.
-/

namespace Chaonet

open Foundation

/-- `TcpConnection::StateE`. -/
inductive StateE
  | kConnecting
  | kConnected
  | kDisconnecting
  | kDisconnected
deriving DecidableEq, Repr

/-- The result of one `::write`: the kernel takes a number of bytes, at most as many as
were offered, or fails. -/
inductive WriteResult
  | count (n : Nat)
  /-- `EWOULDBLOCK` or a fatal error. -/
  | error (wouldBlock : Bool)
deriving DecidableEq, Repr

/-- The user callbacks a connection queues in its loop. -/
inductive UserFunctor
  | writeCompleteCallback
  | highWaterMarkCallback (len : Nat)
deriving DecidableEq, Repr

structure TcpConnection where
  state : StateE
  reading : Bool
  channel : Channel
  /-- `loop_->poller_`. -/
  poller : EPoller
  inputBuffer : Buffer
  outputBuffer : Buffer
  highWaterMark : Nat
  /-- Whether `writeCompleteCallback_` is set. -/
  writeCompleteCallback : Bool
  /-- Whether `highWaterMarkCallback_` is set. -/
  highWaterMarkCallback : Bool

namespace TcpConnection

/-- The assertions of the class, in source order. -/
inductive Assertion
  | sendInLoopNwrote
  | connectionEstablishedConnecting
  | handleCloseState
deriving DecidableEq, Repr

inductive Event
  /-- Bytes accepted by `::write`. -/
  | wrote (bytes : Bytes)
  /-- `socket_->shutdownWrite()`. -/
  | shutdownWrite
  /-- `loop_->queueInLoop`. -/
  | queued (f : UserFunctor)
  | connectionCallback (connected : Bool)
  | messageCallback
  | closeCallback
  | failed (a : Assertion)
  | buffer (a : Buffer.Assertion)
  | poller (e : EPoller.Event)
deriving DecidableEq, Repr

/-- `TcpConnection(...)` with the callbacks its owner has set. -/
def create (channel : Channel) (poller : EPoller) (writeComplete highWater : Bool) :
    TcpConnection :=
  { state := .kConnecting
    reading := true
    channel
    poller
    inputBuffer := Buffer.fresh
    outputBuffer := Buffer.fresh
    highWaterMark := 64 * 1024 * 1024
    writeCompleteCallback := writeComplete
    highWaterMarkCallback := highWater }

/-- `connected()`. -/
def connected (c : TcpConnection) : Bool := c.state = .kConnected

/-- `channel_->update()` after the interest set became that of `channel`. -/
def updateChannel (c : TcpConnection) (channel : Channel) : Traced Event TcpConnection := do
  let r ← (c.poller.updateChannel channel).lift .poller
  pure { c with poller := r.1, channel := r.2 }

/-- `loop_->removeChannel(channel_.get())`. -/
def removeChannel (c : TcpConnection) : Traced Event TcpConnection := do
  let r ← (c.poller.removeChannel c.channel).lift .poller
  pure { c with poller := r.1, channel := r.2 }

/-- `::write(fd, data, size)`: the return value, with the accepted bytes observed. -/
def write (r : WriteResult) (data : Bytes) : Traced Event Int :=
  match r with
  | .count n => do
      Traced.emit (.wrote (data.take n))
      pure (data.take n).length
  | .error _ => pure (-1)

/-- The fast path of `sendInLoop`: write at once when nothing is waiting.  The result
is the final value of `nwrote`. -/
def sendDirectly (c : TcpConnection) (message : Bytes) (r : WriteResult) : Traced Event Int :=
  if ¬c.channel.isWriting ∧ c.outputBuffer.readableBytes = 0 then do
    let nwrote ← write r message
    if 0 ≤ nwrote then do
      Traced.when (¬nwrote.toNat < message.length ∧ c.writeCompleteCallback = true)
        (Traced.emit (.queued .writeCompleteCallback))
      pure nwrote
    else
      -- Any failure counts as nothing written; only the log tells `EWOULDBLOCK` apart.
      pure 0
  else
    pure 0

/-- The slow path of `sendInLoop`: keep what was not written. -/
def sendLater (c : TcpConnection) (message : Bytes) (nwrote : Nat) :
    Traced Event TcpConnection := do
  let oldLen := c.outputBuffer.readableBytes
  let remaining := message.length - nwrote
  Traced.when (c.highWaterMark ≤ oldLen + remaining ∧ oldLen < c.highWaterMark ∧
      c.highWaterMarkCallback = true)
    (Traced.emit (.queued (.highWaterMarkCallback (oldLen + remaining))))
  let outputBuffer ← (c.outputBuffer.append (message.drop nwrote)).lift .buffer
  let c := { c with outputBuffer }
  if ¬c.channel.isWriting then
    c.updateChannel c.channel.enableWriting
  else
    pure c

def sendInLoop (c : TcpConnection) (message : Bytes) (r : WriteResult) :
    Traced Event TcpConnection := do
  let nwrote ← c.sendDirectly message r
  Traced.check (.failed .sendInLoopNwrote) (0 ≤ nwrote)
  if nwrote.toNat < message.length then
    c.sendLater message nwrote.toNat
  else
    pure c

def startReadInLoop (c : TcpConnection) : Traced Event TcpConnection :=
  if c.reading = false ∨ ¬c.channel.isReading then do
    let c ← c.updateChannel c.channel.enableReading
    pure { c with reading := true }
  else
    pure c

def stopReadInLoop (c : TcpConnection) : Traced Event TcpConnection :=
  if c.reading = true ∨ c.channel.isReading then do
    let c ← c.updateChannel c.channel.disableReading
    pure { c with reading := false }
  else
    pure c

def connectionEstablished (c : TcpConnection) : Traced Event TcpConnection := do
  Traced.check (.failed .connectionEstablishedConnecting) (c.state = .kConnecting)
  let c := { c with state := .kConnected }
  let c ← c.updateChannel c.channel.enableReading
  Traced.emit (.connectionCallback c.connected)
  pure c

def connectionDestroyed (c : TcpConnection) : Traced Event TcpConnection := do
  let c ←
    if c.state = .kConnected then do
      let c := { c with state := .kDisconnected }
      let c ← c.updateChannel c.channel.disableAll
      Traced.emit (.connectionCallback c.connected)
      pure c
    else
      pure c
  c.removeChannel

def shutdownInLoop (c : TcpConnection) : Traced Event Unit :=
  Traced.when (¬c.channel.isWriting) (Traced.emit .shutdownWrite)

def handleClose (c : TcpConnection) : Traced Event TcpConnection := do
  Traced.check (.failed .handleCloseState)
    (c.state = .kConnected ∨ c.state = .kDisconnecting)
  let c := { c with state := .kDisconnected }
  let c ← c.updateChannel c.channel.disableAll
  Traced.emit (.connectionCallback c.connected)
  Traced.emit .closeCallback
  pure c

/-- `handleRead`: `r` is what `readv` delivers, `none` for an error; `consumed` is the
number of bytes `messageCallback_` takes out of the input buffer. -/
def handleRead (c : TcpConnection) (r : Option Bytes) (consumed : Nat) :
    Traced Event TcpConnection := do
  let read ← (c.inputBuffer.readFd r).lift .buffer
  let c := { c with inputBuffer := read.2 }
  if 0 < read.1 then do
    Traced.emit .messageCallback
    let inputBuffer ←
      (c.inputBuffer.retrieve (min consumed c.inputBuffer.readableBytes)).lift .buffer
    pure { c with inputBuffer }
  else if read.1 = 0 then
    c.handleClose
  else
    -- `handleError` only reads and logs `SO_ERROR`.
    pure c

/-- The part of `handleWrite` that runs when the output buffer has drained. -/
def handleDrained (c : TcpConnection) : Traced Event TcpConnection := do
  let c ← c.updateChannel c.channel.disableWriting
  Traced.when (c.writeCompleteCallback = true) (Traced.emit (.queued .writeCompleteCallback))
  Traced.when (c.state = .kDisconnecting) c.shutdownInLoop
  pure c

def handleWrite (c : TcpConnection) (r : WriteResult) : Traced Event TcpConnection :=
  if c.channel.isWriting then do
    let n ← write r (segment c.outputBuffer.buffer c.outputBuffer.peek
      (c.outputBuffer.peek + c.outputBuffer.readableBytes))
    if 0 < n then do
      let outputBuffer ← (c.outputBuffer.retrieve n.toNat).lift .buffer
      let c := { c with outputBuffer }
      if c.outputBuffer.readableBytes = 0 then
        c.handleDrained
      else
        pure c
    else
      -- A write that fails is logged and tried again at the next write event.
      pure c
  else
    pure c

end TcpConnection
end Chaonet
