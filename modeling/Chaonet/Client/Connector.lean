import Chaonet.Reactor.Registry
import Chaonet.Timer.OneShots
import Mathlib

/-!
# Connectors

`Connector` embeds the class of the same name.  The poller of its loop and the timers of its
loop are fields, as they are what the connector changes of `loop_`.  The result of a system
call is a parameter: an `Attempt` is one round of `createNonblockingOrDie` and `::connect`,
a `SocketStatus` what is read of the socket once it is writable.

What leaves the object is an `Event`: sockets that are made, closed and handed to
`newConnectionCallback_`, the functor passed to `queueInLoop`, and what fails.
-/

namespace Chaonet

open Foundation

/-- `Connector::States`. -/
inductive States
  | kDisconnected
  | kConnecting
  | kConnected
deriving DecidableEq, Repr

/-- The values of `savedErrno` that `connect` tells apart. -/
inductive SavedErrno
  | zero
  | EINPROGRESS
  | EINTR
  | EISCONN
  | EAGAIN
  | EADDRINUSE
  | EADDRNOTAVAIL
  | ECONNABORTED
  | ENETUNREACH
  | EACCES
  | EPERM
  | EAFNOSUPPORT
  | EALREADY
  | EBADF
  | EFAULT
  | ENOTSOCK
  | other
deriving DecidableEq, Repr

/-- The three ways on from `::connect`. -/
inductive Progress
  | connecting
  | retry
  | close
deriving DecidableEq, Repr

/-- The `switch` of `connect`. -/
def SavedErrno.progress : SavedErrno → Progress
  | zero | EINPROGRESS | EINTR | EISCONN => .connecting
  | EAGAIN | EADDRINUSE | EADDRNOTAVAIL | ECONNABORTED | ENETUNREACH => .retry
  | EACCES | EPERM | EAFNOSUPPORT | EALREADY | EBADF | EFAULT | ENOTSOCK => .close
  | other => .close

/-- The results of one `connect()`, and the address of the channel it may make. -/
structure Attempt where
  sockfd : Int
  savedErrno : SavedErrno
  ptr : ChannelPtr
deriving DecidableEq, Repr

/-- What `getSocketError` and `isSelfConnect` return. -/
structure SocketStatus where
  err : Int
  selfConnect : Bool
deriving DecidableEq, Repr

/-- The timers made for a client; `removeConnector` has an empty body. -/
inductive ClientTimer
  | startInLoop
  | removeConnector
deriving DecidableEq, Repr

structure Connector where
  connect_ : Bool
  state : States
  channel : Option Channel
  retryDelayMs : Nat
  /-- The sequence of `timerId_`, unless it is the default one. -/
  timerId : Option Nat
  /-- `loop_->poller_`. -/
  poller : EPoller
  /-- `loop_->timerQueue_`. -/
  timers : OneShots ClientTimer

namespace Connector

def kMaxRetryDelayMs : Nat := 30 * 1000

def kInitRetryDelayMs : Nat := 500

/-- The assertions of the class, in source order. -/
inductive Assertion
  | startInLoopDisconnected
  | connectingNoChannel
  | handleWriteDisconnected
  | handleErrorConnecting
deriving DecidableEq, Repr

inductive Event
  /-- `createNonblockingOrDie` has returned this. -/
  | socket (sockfd : Int)
  | close (sockfd : Int)
  | newConnectionCallback (sockfd : Int)
  /-- `queueInLoop(resetChannel)`. -/
  | queuedReset
  | failed (a : Assertion)
  /-- `channel_` is dereferenced while it is null. -/
  | nullChannel
  | poller (e : EPoller.Event)
deriving DecidableEq, Repr

/-- `Connector(loop, serverAddr)`. -/
def create (poller : EPoller) (timers : OneShots ClientTimer) : Connector :=
  { connect_ := false
    state := .kDisconnected
    channel := none
    retryDelayMs := kInitRetryDelayMs
    timerId := none
    poller
    timers }

def retry (c : Connector) (sockfd : Int) : Traced Event Connector := do
  Traced.emit (.close sockfd)
  let c := { c with state := .kDisconnected }
  if c.connect_ = true then
    let r := c.timers.runAfter (c.retryDelayMs * 1000) .startInLoop
    pure { c with
      timers := r.1
      timerId := some r.2
      retryDelayMs := min (c.retryDelayMs * 2) kMaxRetryDelayMs }
  else
    pure c

def connecting (c : Connector) (sockfd : Int) (ptr : ChannelPtr) : Traced Event Connector := do
  let c := { c with state := .kConnecting }
  Traced.check (.failed .connectingNoChannel) (c.channel = none)
  let r ← (c.poller.updateChannel (Channel.create ptr sockfd).enableWriting).lift .poller
  pure { c with poller := r.1, channel := some r.2 }

def connect (c : Connector) (a : Attempt) : Traced Event Connector := do
  Traced.emit (.socket a.sockfd)
  match a.savedErrno.progress with
  | .connecting => c.connecting a.sockfd a.ptr
  | .retry => c.retry a.sockfd
  | .close => do
      Traced.emit (.close a.sockfd)
      pure c

def startInLoop (c : Connector) (a : Attempt) : Traced Event Connector := do
  Traced.check (.failed .startInLoopDisconnected) (c.state = .kDisconnected)
  if c.connect_ = true then
    c.connect a
  else
    pure c

/-- `start()` on the loop thread. -/
def start (c : Connector) (a : Attempt) : Traced Event Connector :=
  startInLoop { c with connect_ := true } a

def restart (c : Connector) (a : Attempt) : Traced Event Connector :=
  startInLoop { c with
    state := .kDisconnected
    retryDelayMs := kInitRetryDelayMs
    connect_ := true } a

/-- `stop()` on the loop thread. -/
def stop (c : Connector) : Connector :=
  { c with connect_ := false, timers := c.timers.cancel c.timerId }

def removeAndResetChannel (c : Connector) : Traced Event (Connector × Int) :=
  match c.channel with
  | none => do
      Traced.emit .nullChannel
      pure (c, -1)
  | some channel => do
      let r ← (c.poller.updateChannel channel.disableAll).lift .poller
      let r ← (r.1.removeChannel r.2).lift .poller
      Traced.emit .queuedReset
      pure ({ c with poller := r.1, channel := some r.2 }, channel.fd)

def resetChannel (c : Connector) : Connector := { c with channel := none }

def handleWrite (c : Connector) (status : SocketStatus) : Traced Event Connector :=
  if c.state = .kConnecting then do
    let r ← c.removeAndResetChannel
    if status.err ≠ 0 then
      r.1.retry r.2
    else if status.selfConnect = true then
      r.1.retry r.2
    else do
      let c := { r.1 with state := .kConnected }
      if c.connect_ = true then
        Traced.emit (.newConnectionCallback r.2)
      else
        Traced.emit (.close r.2)
      pure c
  else do
    Traced.check (.failed .handleWriteDisconnected) (c.state = .kDisconnected)
    pure c

def handleError (c : Connector) : Traced Event Connector := do
  Traced.check (.failed .handleErrorConnecting) (c.state = .kConnecting)
  -- `SO_ERROR` is only logged here.
  let r ← c.removeAndResetChannel
  r.1.retry r.2

/-- Run callbacks of the channel in turn; it has no close and no read callback. -/
def handle (c : Connector) (status : SocketStatus) :
    List ChannelCallback → Traced Event Connector
  | [] => pure c
  | .errorCallback :: rest => do
      let c ← c.handleError
      c.handle status rest
  | .writeCallback :: rest => do
      let c ← c.handleWrite status
      c.handle status rest
  | .closeCallback :: rest => c.handle status rest
  | .readCallback :: rest => c.handle status rest

/-- `channel_->handleEvent()`. -/
def handleEvent (c : Connector) (status : SocketStatus) : Traced Event Connector :=
  match c.channel with
  | none => do
      Traced.emit .nullChannel
      pure c
  | some channel => c.handle status channel.handleEvent

/-- The socket that is being connected. -/
def connectingSocket (c : Connector) : Option Int :=
  if c.state = .kConnecting then c.channel.map Channel.fd else none

variable {c : Connector} {registered : Int → Option Channel} {channel : Channel}

/-! ## What the members do -/

@[simp] theorem retry_trace (c : Connector) (sockfd : Int) :
    (c.retry sockfd).trace = [.close sockfd] := by
  cases hconnect : c.connect_ <;> simp [retry, hconnect]

@[simp] theorem retry_connect (c : Connector) (sockfd : Int) :
    (c.retry sockfd).val.connect_ = c.connect_ := by
  cases hconnect : c.connect_ <;> simp [retry, hconnect]

@[simp] theorem retry_state (c : Connector) (sockfd : Int) :
    (c.retry sockfd).val.state = .kDisconnected := by
  cases hconnect : c.connect_ <;> simp [retry, hconnect]

@[simp] theorem retry_channel (c : Connector) (sockfd : Int) :
    (c.retry sockfd).val.channel = c.channel := by
  cases hconnect : c.connect_ <;> simp [retry, hconnect]

@[simp] theorem retry_poller (c : Connector) (sockfd : Int) :
    (c.retry sockfd).val.poller = c.poller := by
  cases hconnect : c.connect_ <;> simp [retry, hconnect]

@[simp] theorem retry_clock (c : Connector) (sockfd : Int) :
    (c.retry sockfd).val.timers.clock = c.timers.clock := by
  cases hconnect : c.connect_ <;> simp [retry, hconnect, OneShots.runAfter]

/-- The delay of the next retry is never shorter than the first. -/
theorem retry_delay (h : kInitRetryDelayMs ≤ c.retryDelayMs) (sockfd : Int) :
    kInitRetryDelayMs ≤ (c.retry sockfd).val.retryDelayMs := by
  cases hconnect : c.connect_ with
  | false => simpa [retry, hconnect] using h
  | true =>
      have hmax : kInitRetryDelayMs ≤ kMaxRetryDelayMs := by decide
      simp only [retry, hconnect, if_true, Traced.bind_val, Traced.pure_val]
      omega

/-- A retry schedules one timer, which `timerId_` names, or none. -/
theorem retry_timers (c : Connector) (sockfd : Int) :
    (c.connect_ = true ∧ (c.retry sockfd).val.timerId = some c.timers.numCreated ∧
      (c.retry sockfd).val.timers =
        (c.timers.runAfter (c.retryDelayMs * 1000) .startInLoop).1) ∨
    (c.connect_ = false ∧ (c.retry sockfd).val.timerId = c.timerId ∧
      (c.retry sockfd).val.timers = c.timers) := by
  cases hconnect : c.connect_ with
  | true => exact Or.inl (by simp [retry, hconnect, OneShots.runAfter])
  | false => exact Or.inr (by simp [retry, hconnect])

/-- A retry leaves one timer, if there was none. -/
theorem retry_waiting {c : Connector} (hwaiting : c.timers.waiting = []) (sockfd : Int) :
    (c.retry sockfd).val.timers.waiting.length ≤ 1 ∧
      ∀ t ∈ (c.retry sockfd).val.timers.scheduled,
        (c.retry sockfd).val.timerId = some t.sequence := by
  obtain ⟨hscheduled, hexpired⟩ := OneShots.waiting_eq_nil.mp hwaiting
  rcases c.retry_timers sockfd with ⟨-, hid, htimers⟩ | ⟨-, -, htimers⟩
  · rw [htimers, hid]
    simp [OneShots.runAfter, OneShots.waiting, hscheduled, hexpired]
  · rw [htimers]
    simp [hscheduled, hwaiting]

/-- The channel of a new attempt is registered. -/
theorem connecting_spec (hholds : c.poller.Holds registered) (hnone : c.channel = none)
    {sockfd : Int} (hfree : registered sockfd = none) (ptr : ChannelPtr) :
    ∃ poller, ∃ channel : Channel, channel.fd = sockfd ∧ channel.index = kAdded ∧
      poller.Holds (Function.update registered sockfd (some channel)) ∧
      c.connecting sockfd ptr =
        ⟨{ c with state := .kConnecting, poller, channel := some channel }, []⟩ := by
  have hupdate := hholds.updateChannel (c := Channel.create ptr sockfd)
    (Channel.create ptr sockfd).enableWriting.events (Or.inr ⟨hfree, rfl⟩)
  obtain ⟨hafter, htrace, hchannel⟩ := hupdate
  refine ⟨_, _, ?_, ?_, hafter, ?_⟩
  · rw [hchannel]
    rfl
  · rw [hchannel]
    simp [Channel.create, kAdded]
  · have htrace' : (c.poller.updateChannel (Channel.create ptr sockfd).enableWriting).trace = [] :=
      htrace
    simp only [connecting, Traced.check_of hnone, Traced.lift, htrace']
    rfl

/-- What is left of a channel when it is removed. -/
def removed (channel : Channel) : Channel := { channel with events := kNoneEvent, index := kNew }

/-- The channel of an attempt that is over is removed, and waits to be destroyed. -/
theorem removeAndResetChannel_spec (hholds : c.poller.Holds registered)
    (hchannel : c.channel = some channel) (hregistered : registered channel.fd = some channel) :
    ∃ poller, poller.Holds (Function.update registered channel.fd none) ∧
      c.removeAndResetChannel =
        ⟨({ c with poller, channel := some (removed channel) }, channel.fd), [.queuedReset]⟩ := by
  obtain ⟨hupdated, htrace, hdisabled⟩ :=
    hholds.updateChannel (c := channel) kNoneEvent (Or.inl hregistered)
  generalize hr : c.poller.updateChannel { channel with events := kNoneEvent } = r
    at hupdated htrace hdisabled
  have hfd : r.val.2.fd = channel.fd := by rw [hdisabled]
  obtain ⟨hremoved, htrace', hgone⟩ := hupdated.removeChannel (c := r.val.2)
    (by rw [hfd, Function.update_self]) (by rw [hdisabled]; rfl)
  rw [hfd, Function.update_idem] at hremoved
  refine ⟨_, hremoved, ?_⟩
  have hr' : c.poller.updateChannel channel.disableAll = r := hr
  simp only [removeAndResetChannel, hchannel, hr', Traced.lift, bind, pure, Traced.emit, htrace,
    htrace', hgone]
  simp [hdisabled, removed]

/-! ## What an attempt leads to -/

/-- The attempt goes on, is repeated later, or is given up. -/
inductive Tried (c : Connector) (registered : Int → Option Channel) (a : Attempt) :
    Traced Event Connector → Prop
  | connecting (poller : EPoller) (channel : Channel)
      (progress : a.savedErrno.progress = .connecting)
      (fd : channel.fd = a.sockfd) (index : channel.index = kAdded)
      (holds : poller.Holds (Function.update registered a.sockfd (some channel))) :
      Tried c registered a
        ⟨{ c with state := .kConnecting, poller, channel := some channel }, [.socket a.sockfd]⟩
  | retried (progress : a.savedErrno.progress = .retry) :
      Tried c registered a ⟨(c.retry a.sockfd).val, [.socket a.sockfd, .close a.sockfd]⟩
  | closed (progress : a.savedErrno.progress = .close) :
      Tried c registered a ⟨c, [.socket a.sockfd, .close a.sockfd]⟩

/-- An attempt hands nothing over. -/
theorem Tried.noNew {a : Attempt} {x : Traced Event Connector} (h : Tried c registered a x) :
    ∀ sockfd, .newConnectionCallback sockfd ∉ x.trace := by
  cases h <;> simp

theorem connect_spec (hholds : c.poller.Holds registered) {a : Attempt}
    (hfree : a.savedErrno.progress = .connecting → c.channel = none ∧ registered a.sockfd = none) :
    Tried c registered a (c.connect a) := by
  unfold connect
  split
  · rename_i hprogress
    obtain ⟨hnone, hfd⟩ := hfree hprogress
    obtain ⟨poller, channel, hsockfd, hindex, hafter, heq⟩ :=
      connecting_spec hholds hnone hfd a.ptr
    rw [heq]
    exact .connecting poller channel hprogress hsockfd hindex hafter
  · rename_i hprogress
    have heq : Traced.emit (.socket a.sockfd) >>= (fun _ => c.retry a.sockfd) =
        ⟨(c.retry a.sockfd).val, [.socket a.sockfd, .close a.sockfd]⟩ := by
      simp only [bind, retry_trace]
      rfl
    rw [heq]
    exact .retried hprogress
  · rename_i hprogress
    exact .closed hprogress

theorem startInLoop_idle (hstate : c.state = .kDisconnected) (hconnect : c.connect_ = false)
    (a : Attempt) : c.startInLoop a = pure c := by
  simp [startInLoop, Traced.check_of hstate, hconnect]

theorem startInLoop_connect (hstate : c.state = .kDisconnected) (hconnect : c.connect_ = true)
    (a : Attempt) : c.startInLoop a = c.connect a := by
  simp [startInLoop, Traced.check_of hstate, hconnect]

/-! ## What an event on the socket leads to -/

/-- An attempt that is being made: its channel is registered. -/
structure Connecting (c : Connector) (registered : Int → Option Channel) (channel : Channel) :
    Prop where
  holds : c.poller.Holds registered
  state : c.state = .kConnecting
  current : c.channel = some channel
  known : registered channel.fd = some channel

/-- After an event the attempt goes on, has failed, or is over. -/
inductive Handled (c : Connector) (channel : Channel) (after : Connector) :
    Traced Event Connector → Prop
  | goesOn : Handled c channel after (pure c)
  | failed : Handled c channel after
      ⟨(after.retry channel.fd).val, [.queuedReset, .close channel.fd]⟩
  | handedOver (connect : c.connect_ = true) : Handled c channel after
      ⟨{ after with state := .kConnected },
        [.queuedReset, .newConnectionCallback channel.fd]⟩
  | abandoned (connect : c.connect_ = false) : Handled c channel after
      ⟨{ after with state := .kConnected }, [.queuedReset, .close channel.fd]⟩

theorem handleWrite_spec (h : c.Connecting registered channel) (status : SocketStatus) :
    ∃ poller, poller.Holds (Function.update registered channel.fd none) ∧
      Handled c channel { c with poller, channel := some (removed channel) }
        (c.handleWrite status) := by
  obtain ⟨poller, hholds, hremove⟩ :=
    removeAndResetChannel_spec h.holds h.current h.known
  refine ⟨poller, hholds, ?_⟩
  have hfailed : c.removeAndResetChannel >>= (fun r => r.1.retry r.2) =
      ⟨({ c with poller, channel := some (removed channel) }.retry channel.fd).val,
        [.queuedReset, .close channel.fd]⟩ := by
    simp only [hremove, bind, retry_trace]
    rfl
  by_cases herr : status.err ≠ 0 ∨ status.selfConnect = true
  · have heq : c.handleWrite status = c.removeAndResetChannel >>= fun r => r.1.retry r.2 := by
      rcases herr with herr | hself
      · simp [handleWrite, h.state, herr]
      · simp [handleWrite, h.state, hself]
    rw [heq, hfailed]
    exact .failed
  · obtain ⟨herr, hself⟩ := not_or.mp herr
    by_cases hconnect : c.connect_ = true
    · have heq : c.handleWrite status =
          ⟨{ c with state := .kConnected, poller, channel := some (removed channel) },
            [.queuedReset, .newConnectionCallback channel.fd]⟩ := by
        simp only [handleWrite, h.state, if_true, if_neg herr, if_neg hself, hconnect, hremove]
        rfl
      rw [heq]
      exact .handedOver hconnect
    · have heq : c.handleWrite status =
          ⟨{ c with state := .kConnected, poller, channel := some (removed channel) },
            [.queuedReset, .close channel.fd]⟩ := by
        simp only [handleWrite, h.state, if_true, if_neg herr, if_neg hself, hconnect, hremove]
        rfl
      rw [heq]
      exact .abandoned ((Bool.not_eq_true _).mp hconnect)

theorem handleError_spec (h : c.Connecting registered channel) :
    ∃ poller, poller.Holds (Function.update registered channel.fd none) ∧
      let after := { c with poller, channel := some (removed channel) }
      c.handleError = ⟨(after.retry channel.fd).val, [.queuedReset, .close channel.fd]⟩ := by
  obtain ⟨poller, hholds, hremove⟩ :=
    removeAndResetChannel_spec h.holds h.current h.known
  refine ⟨poller, hholds, ?_⟩
  simp only [handleError, Traced.check_of h.state, hremove, bind, pure, retry_trace]
  rfl

/-- Which handlers an event runs: none if it is neither an error nor writable. -/
theorem handleEvent_cases (hchannel : c.channel = some channel) (status : SocketStatus) :
    c.handleEvent status = pure c ∧ .errorCallback ∉ channel.handleEvent ∧
        .writeCallback ∉ channel.handleEvent ∨
      c.handleEvent status = c.handleError ∨ c.handleEvent status = c.handleWrite status ∨
      c.handleEvent status = c.handleError >>= fun c => c.handleWrite status := by
  simp only [handleEvent, hchannel, Channel.handleEvent]
  by_cases herror : channel.revents &&& (POLLERR ||| POLLNVAL) ≠ 0
  · by_cases hwrite : channel.revents &&& POLLOUT ≠ 0
    · refine Or.inr (Or.inr (Or.inr ?_))
      rw [if_pos herror, if_pos hwrite]
      split_ifs <;> simp [handle]
    · refine Or.inr (Or.inl ?_)
      rw [if_pos herror, if_neg hwrite]
      split_ifs <;> simp [handle]
  · by_cases hwrite : channel.revents &&& POLLOUT ≠ 0
    · refine Or.inr (Or.inr (Or.inl ?_))
      rw [if_neg herror, if_pos hwrite]
      split_ifs <;> simp [handle]
    · refine Or.inl ?_
      rw [if_neg herror, if_neg hwrite]
      split_ifs <;> simp [handle]

/-- One event takes the channel of an attempt out of the poller, or does nothing. -/
theorem handleEvent_spec (h : c.Connecting registered channel) (status : SocketStatus) :
    ∃ poller, poller.Holds (Function.update registered channel.fd none) ∧
      Handled c channel { c with poller, channel := some (removed channel) }
        (c.handleEvent status) := by
  rcases handleEvent_cases h.current status with ⟨heq, -⟩ | heq | heq | heq
  · obtain ⟨poller, hholds, -⟩ := handleError_spec h
    exact ⟨poller, hholds, heq ▸ .goesOn⟩
  · obtain ⟨poller, hholds, herror⟩ := handleError_spec h
    rw [heq, herror]
    exact ⟨poller, hholds, .failed⟩
  · rw [heq]
    exact handleWrite_spec h status
  · obtain ⟨poller, hholds, herror⟩ := handleError_spec h
    refine ⟨poller, hholds, ?_⟩
    -- After `handleError` the state is `kDisconnected`, and `handleWrite` only asserts that.
    have hwrite (c' : Connector) (hstate : c'.state = .kDisconnected) :
        c'.handleWrite status = pure c' := by
      simp [handleWrite, hstate, Traced.check_of]
    rw [heq, herror]
    simp only [bind]
    rw [hwrite _ (retry_state _ _)]
    exact .failed

/-- A write or error event ends the attempt. -/
theorem handleEvent_ends (h : c.Connecting registered channel) (status : SocketStatus)
    (hcalls : .errorCallback ∈ channel.handleEvent ∨ .writeCallback ∈ channel.handleEvent) :
    (c.handleEvent status).val.state ≠ .kConnecting := by
  have herror : c.handleError.val.state = .kDisconnected := by simp [handleError]
  rcases handleEvent_cases h.current status with ⟨-, hnone⟩ | heq | heq | heq
  · exact absurd hcalls (not_or.mpr hnone)
  · rw [heq, herror]
    decide
  · rw [heq, handleWrite, if_pos h.state]
    simp only [Traced.bind_val]
    split_ifs <;> simp
  · rw [heq, Traced.bind_val, handleWrite, if_neg (by simp [herror])]
    simp [herror]

/-! ## The sockets of a connector -/

/-- How many sockets with this descriptor were made and neither closed nor handed over. -/
def ledger (es : List Event) (fd : Int) : Int :=
  es.count (.socket fd) - es.count (.close fd) - es.count (.newConnectionCallback fd)

@[simp] theorem ledger_nil (fd : Int) : ledger [] fd = 0 := rfl

@[simp] theorem ledger_append (es es' : List Event) (fd : Int) :
    ledger (es ++ es') fd = ledger es fd + ledger es' fd := by
  simp only [ledger, List.count_append]
  omega

@[simp] theorem ledger_made (sockfd fd : Int) :
    ledger [.socket sockfd] fd = if sockfd = fd then 1 else 0 := by
  by_cases h : sockfd = fd <;> simp [ledger, h]

@[simp] theorem ledger_spent (sockfd fd : Int) :
    ledger [.socket sockfd, .close sockfd] fd = 0 := by
  by_cases h : sockfd = fd <;> simp [ledger, h]

@[simp] theorem ledger_closed (sockfd fd : Int) :
    ledger [.queuedReset, .close sockfd] fd = -if sockfd = fd then 1 else 0 := by
  by_cases h : sockfd = fd <;> simp [ledger, h]

@[simp] theorem ledger_handedOver (sockfd fd : Int) :
    ledger [.queuedReset, .newConnectionCallback sockfd] fd = -if sockfd = fd then 1 else 0 := by
  by_cases h : sockfd = fd <;> simp [ledger, h]

/-- Nothing fails in the connector or its poller. -/
def Sound (es : List Event) : Prop :=
  (∀ a, .failed a ∉ es) ∧ .nullChannel ∉ es ∧ ∀ e, .poller e ∉ es

@[simp] theorem sound_nil : Sound [] := by simp [Sound]

@[simp] theorem sound_append {es es' : List Event} : Sound (es ++ es') ↔ Sound es ∧ Sound es' := by
  simp only [Sound, List.mem_append, not_or, forall_and]
  tauto

/-- Whether the socket is being connected. -/
def beingConnected (c : Connector) (fd : Int) : Int :=
  if c.connectingSocket = some fd then 1 else 0

@[simp] theorem beingConnected_of_ne (h : c.state ≠ .kConnecting) (fd : Int) :
    c.beingConnected fd = 0 := by
  simp [beingConnected, connectingSocket, h]

theorem beingConnected_nonneg (c : Connector) (fd : Int) : 0 ≤ c.beingConnected fd := by
  unfold beingConnected
  split_ifs <;> decide

theorem beingConnected_le (c : Connector) (fd : Int) : c.beingConnected fd ≤ 1 := by
  unfold beingConnected
  split_ifs <;> decide

theorem Connecting.beingConnected (h : c.Connecting registered channel) (fd : Int) :
    c.beingConnected fd = if channel.fd = fd then 1 else 0 := by
  simp [Connector.beingConnected, connectingSocket, h.state, h.current]

/-- What a member shows: nothing fails, and the sockets are accounted for. -/
structure Accounted (c : Connector) (x : Traced Event Connector) : Prop where
  sound : Sound x.trace
  ledger : ∀ fd, ledger x.trace fd = x.val.beingConnected fd - c.beingConnected fd

theorem accounted_pure (c : Connector) : Accounted c (pure c) :=
  ⟨sound_nil, fun _ => by simp⟩

theorem Tried.accounted {a : Attempt} {x : Traced Event Connector}
    (h : Tried c registered a x) (hstate : c.state ≠ .kConnecting) : Accounted c x := by
  cases h with
  | connecting poller channel hprogress hfd hindex hholds =>
      refine ⟨by simp [Sound], fun fd => ?_⟩
      simp [hstate, Connector.beingConnected, connectingSocket, hfd]
  | retried hprogress =>
      exact ⟨by simp [Sound], fun fd => by simp [hstate]⟩
  | closed hprogress =>
      exact ⟨by simp [Sound], fun fd => by simp⟩

theorem Handled.accounted {after : Connector} {x : Traced Event Connector}
    (h : Handled c channel after x) (hattempt : c.Connecting registered channel) :
    Accounted c x := by
  cases h with
  | goesOn => exact accounted_pure c
  | failed => exact ⟨by simp [Sound], fun fd => by simp [hattempt.beingConnected]⟩
  | handedOver => exact ⟨by simp [Sound], fun fd => by simp [hattempt.beingConnected]⟩
  | abandoned => exact ⟨by simp [Sound], fun fd => by simp [hattempt.beingConnected]⟩

end Connector
end Chaonet
