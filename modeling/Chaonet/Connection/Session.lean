import Chaonet.Connection.Members
import Chaonet.Foundation.BatchQueue
import Chaonet.Foundation.Run
import Chaonet.Reactor.EventLoop

/-!
# One connection, its loop and its users

A `Session` is a connection together with the part of its event loop that concerns it:
the functors queued for it, and the channel callbacks of the event being handled.
Threads call the public members at any time; a call on the loop thread executes its
in-loop part at once, a call on another thread queues it.  The loop thread handles
channel events, swaps the queue out and runs the batch in order.

The calls a user callback makes on the loop thread are `call .loop` steps after the
callback.  `closeCallback_` leads, through the owner of the connection, to one
`connectionDestroyed` in the queue.

A session starts where `connectionEstablished` has just run: before it the channel is
not registered and no user knows the connection.
-/

namespace Chaonet

open Foundation

/-- The public members that may be called from any thread. -/
inductive PublicCall
  | send (message : Bytes)
  | shutdown
  | startRead
  | stopRead
deriving DecidableEq, Repr

namespace Session

/-- The functors bound to a connection.  The number in `sendInLoop` is that of the call
of `send` it stems from; the code does not have it. -/
inductive Functor
  | sendInLoop (call : Nat) (message : Bytes)
  | startReadInLoop
  | stopReadInLoop
  | shutdownInLoop
  | connectionDestroyed
  | user (f : UserFunctor)
deriving DecidableEq, Repr

inductive Event
  /-- `send` found the connection in `kConnected`. -/
  | accepted (call : Nat) (t : Thread) (message : Bytes)
  | shutdownCalled (t : Thread)
  /-- `sendInLoop` starts. -/
  | sending (call : Nat) (message : Bytes)
  /-- `connectionDestroyed` has returned from `removeChannel`. -/
  | removed
  | conn (e : TcpConnection.Event)
deriving DecidableEq, Repr

end Session

structure Session where
  conn : TcpConnection
  queue : BatchQueue Session.Functor
  /-- The callbacks of the channel event being handled that have not run yet. -/
  handling : List ChannelCallback
  /-- Runs of `closeCallback_` the owner has not answered with `connectionDestroyed`. -/
  closing : Nat
  /-- The number of accepted `send` calls so far. -/
  calls : Nat

namespace Session

/-- The functors a member function passed to `queueInLoop`. -/
def queuedBy (es : List TcpConnection.Event) : List Functor :=
  es.filterMap fun
    | .queued f => some (.user f)
    | _ => none

/-- Let a member function of the connection take effect on the session. -/
def perform (s : Session) (x : Traced TcpConnection.Event TcpConnection) :
    Traced Event Session :=
  ⟨{ s with
      conn := x.val
      queue := s.queue.push (queuedBy x.trace)
      closing := s.closing + x.trace.count .closeCallback },
    x.trace.map .conn⟩

/-- Execute a functor; `r` is the result of the `::write` it may make. -/
def invoke (s : Session) (f : Functor) (r : WriteResult) : Traced Event Session :=
  match f with
  | .sendInLoop call message => do
      Traced.emit (.sending call message)
      s.perform (s.conn.sendInLoop message r)
  | .startReadInLoop => s.perform s.conn.startReadInLoop
  | .stopReadInLoop => s.perform s.conn.stopReadInLoop
  | .shutdownInLoop => s.perform (s.conn.shutdownInLoop >>= fun _ => pure s.conn)
  | .connectionDestroyed => do
      let s ← s.perform s.conn.connectionDestroyed
      Traced.emit .removed
      pure s
  | .user _ => pure s

/-- `loop_->runInLoop(f)`. -/
def runInLoop (s : Session) (t : Thread) (f : Functor) (r : WriteResult) :
    Traced Event Session :=
  match t with
  | .loop => s.invoke f r
  | .other _ => pure { s with queue := s.queue.push [f] }

/-- A call of a public member by thread `t`. -/
def call (s : Session) (t : Thread) (c : PublicCall) (r : WriteResult) :
    Traced Event Session :=
  match c with
  | .send message =>
      if s.conn.state = .kConnected then do
        Traced.emit (.accepted s.calls t message)
        runInLoop { s with calls := s.calls + 1 } t (.sendInLoop s.calls message) r
      else
        pure s
  | .shutdown => do
      Traced.emit (.shutdownCalled t)
      if s.conn.state = .kConnected then
        let conn := { s.conn with state := .kDisconnecting }
        runInLoop { s with conn } t .shutdownInLoop r
      else
        pure s
  | .startRead => s.runInLoop t .startReadInLoop r
  | .stopRead => s.runInLoop t .stopReadInLoop r

/-- Run one callback of the channel. -/
def handle (s : Session) (cb : ChannelCallback) (read : Option Bytes) (consumed : Nat)
    (r : WriteResult) : Traced Event Session :=
  match cb with
  | .closeCallback => s.perform s.conn.handleClose
  | .errorCallback => pure s
  | .readCallback => s.perform (s.conn.handleRead read consumed)
  | .writeCallback => s.perform (s.conn.handleWrite r)

inductive Label
  | call (t : Thread) (c : PublicCall) (r : WriteResult)
  /-- `poll` returns the channel with these `revents`. -/
  | poll (revents : EventMask)
  /-- The next callback of `handleEvent`. -/
  | callback (read : Option Bytes) (consumed : Nat) (r : WriteResult)
  /-- `doPendingFunctors` swaps the queue out. -/
  | swap
  | runFunctor (r : WriteResult)
  | finish
  /-- The owner queues `connectionDestroyed` after `closeCallback_`. -/
  | queueDestroyed
deriving DecidableEq, Repr

/-- The enabled steps.  `poll` only returns channels of the epoll set, and the loop
thread handles events and runs functors in turn. -/
def step (s : Session) : Label → Option (Traced Event Session)
  | .call t c r => some (s.call t c r)
  | .poll revents =>
      if s.handling = [] ∧ s.queue.batch = none ∧
          s.conn.poller.epollSet s.conn.channel.fd ≠ none then
        let channel := { s.conn.channel with revents }
        some (pure { s with conn := { s.conn with channel }, handling := channel.handleEvent })
      else none
  | .callback read consumed r =>
      match s.handling with
      | [] => none
      | cb :: rest => some ({ s with handling := rest }.handle cb read consumed r)
  | .swap =>
      if s.handling = [] ∧ s.queue.batch = none then
        some (pure { s with queue := s.queue.swap })
      else none
  | .runFunctor r =>
      match s.queue.batch with
      | some (f :: rest) => some ({ s with queue := s.queue.proceed rest }.invoke f r)
      | _ => none
  | .finish =>
      if s.queue.batch = some [] then some (pure { s with queue := s.queue.finish }) else none
  | .queueDestroyed =>
      if 0 < s.closing then
        some (pure { s with
          queue := s.queue.push [.connectionDestroyed]
          closing := s.closing - 1 })
      else none

def Step : Session → Label → List Event → Session → Prop := stepOf step

/-- What each step does, as one proposition. -/
theorem step_cases {s t : Session} {l : Label} {es : List Event} (h : Step s l es t) :
    match l with
    | .call th c r => ⟨t, es⟩ = s.call th c r
    | .poll revents => s.handling = [] ∧ s.queue.batch = none ∧
        s.conn.poller.epollSet s.conn.channel.fd ≠ none ∧ es = [] ∧
        t = { s with
          conn := { s.conn with channel := { s.conn.channel with revents } }
          handling := { s.conn.channel with revents }.handleEvent }
    | .callback read consumed r => ∃ cb rest, s.handling = cb :: rest ∧
        ⟨t, es⟩ = { s with handling := rest }.handle cb read consumed r
    | .swap => s.handling = [] ∧ s.queue.batch = none ∧ es = [] ∧
        t = { s with queue := s.queue.swap }
    | .runFunctor r => ∃ f rest, s.queue.batch = some (f :: rest) ∧
        ⟨t, es⟩ = { s with queue := s.queue.proceed rest }.invoke f r
    | .finish => s.queue.batch = some [] ∧ es = [] ∧ t = { s with queue := s.queue.finish }
    | .queueDestroyed => 0 < s.closing ∧ es = [] ∧
        t = { s with queue := s.queue.push [.connectionDestroyed], closing := s.closing - 1 } := by
  cases l with
  | call th c r => exact (Option.some.inj h).symm
  | poll revents =>
      simp only [Step, stepOf, step] at h
      split_ifs at h with hguard
      obtain ⟨rfl, rfl⟩ := Traced.mk.inj (Option.some.inj h)
      exact ⟨hguard.1, hguard.2.1, hguard.2.2, rfl, rfl⟩
  | callback read consumed r =>
      simp only [Step, stepOf, step] at h
      cases hhandling : s.handling with
      | nil => simp [hhandling] at h
      | cons cb rest =>
          rw [hhandling] at h
          exact ⟨cb, rest, rfl, (Option.some.inj h).symm⟩
  | swap =>
      simp only [Step, stepOf, step] at h
      split_ifs at h with hguard
      obtain ⟨rfl, rfl⟩ := Traced.mk.inj (Option.some.inj h)
      exact ⟨hguard.1, hguard.2, rfl, rfl⟩
  | runFunctor r =>
      simp only [Step, stepOf, step] at h
      split at h
      · rename_i f rest hbatch
        exact ⟨f, rest, hbatch, (Option.some.inj h).symm⟩
      · simp at h
  | finish =>
      simp only [Step, stepOf, step] at h
      split_ifs at h with hguard
      obtain ⟨rfl, rfl⟩ := Traced.mk.inj (Option.some.inj h)
      exact ⟨hguard, rfl, rfl⟩
  | queueDestroyed =>
      simp only [Step, stepOf, step] at h
      split_ifs at h with hguard
      obtain ⟨rfl, rfl⟩ := Traced.mk.inj (Option.some.inj h)
      exact ⟨hguard, rfl, rfl⟩

/-- The settings of a connection that no member function changes. -/
structure Config where
  ptr : ChannelPtr
  fd : Int
  highWaterMark : Nat
  writeCompleteCallback : Bool
  highWaterMarkCallback : Bool
deriving DecidableEq, Repr

/-- A new connection, before `connectionEstablished`. -/
def Config.connection (k : Config) : TcpConnection :=
  { TcpConnection.create (Channel.create k.ptr k.fd) EPoller.create k.writeCompleteCallback
      k.highWaterMarkCallback with highWaterMark := k.highWaterMark }

/-- A connection without callbacks. -/
def plain : Config := ⟨1, 7, 64, false, false⟩

/-- The session right after `connectionEstablished`. -/
def start (k : Config) : Session :=
  { conn := k.connection.connectionEstablished.val
    queue := .empty
    handling := []
    closing := 0
    calls := 0 }

theorem user_of_mem_queuedBy {es : List TcpConnection.Event} {f : Functor}
    (h : f ∈ queuedBy es) : ∃ u, f = .user u := by
  obtain ⟨e, -, he⟩ := List.mem_filterMap.mp h
  cases e <;> simp at he
  exact ⟨_, he.symm⟩

/-! ## The state along the steps -/

section State

variable {s t : Session} {es : List Event}

@[simp] theorem perform_handling (s : Session)
    (x : Traced TcpConnection.Event TcpConnection) : (s.perform x).val.handling = s.handling := rfl

@[simp] theorem perform_conn (s : Session) (x : Traced TcpConnection.Event TcpConnection) :
    (s.perform x).val.conn = x.val := rfl

@[simp] theorem accepted_not_mem_perform (s : Session)
    (x : Traced TcpConnection.Event TcpConnection) (call : Nat) (t : Thread) (message : Bytes) :
    .accepted call t message ∉ (s.perform x).trace := by
  simp [perform]

theorem invoke_state (s : Session) (f : Functor) (r : WriteResult) :
    (s.invoke f r).val.conn.state = s.conn.state ∨
      (s.invoke f r).val.conn.state = .kDisconnected := by
  cases f with
  | connectionDestroyed => exact TcpConnection.connectionDestroyed_state s.conn
  | sendInLoop call message => exact Or.inl (TcpConnection.sendInLoop_state s.conn message r)
  | startReadInLoop => exact Or.inl (TcpConnection.startReadInLoop_state s.conn)
  | stopReadInLoop => exact Or.inl (TcpConnection.stopReadInLoop_state s.conn)
  | shutdownInLoop => exact Or.inl rfl
  | user f => exact Or.inl rfl

@[simp] theorem accepted_not_mem_invoke (s : Session) (f : Functor) (r : WriteResult) (call : Nat)
    (t : Thread) (message : Bytes) : .accepted call t message ∉ (s.invoke f r).trace := by
  cases f <;> simp [invoke]

theorem runInLoop_state (s : Session) (t : Thread) (f : Functor) (r : WriteResult) :
    (s.runInLoop t f r).val.conn.state = s.conn.state ∨
      (s.runInLoop t f r).val.conn.state = .kDisconnected := by
  cases t with
  | loop => exact invoke_state s f r
  | other n => exact Or.inl rfl

@[simp] theorem accepted_not_mem_runInLoop (s : Session) (th : Thread) (f : Functor)
    (r : WriteResult) (call : Nat) (t : Thread) (message : Bytes) :
    .accepted call t message ∉ (s.runInLoop th f r).trace := by
  cases th <;> simp [runInLoop]

/-- A call outside `kConnected` accepts nothing and does not connect. -/
theorem call_state (th : Thread) (c : PublicCall) (r : WriteResult)
    (h : s.conn.state ≠ .kConnected) :
    ((s.call th c r).val.conn.state = s.conn.state ∨
        (s.call th c r).val.conn.state = .kDisconnected) ∧
      ∀ call t message, .accepted call t message ∉ (s.call th c r).trace := by
  cases c with
  | send message => simp [call, h]
  | shutdown => simp [call, h]
  | startRead => exact ⟨runInLoop_state s th .startReadInLoop r, by simp [call]⟩
  | stopRead => exact ⟨runInLoop_state s th .stopReadInLoop r, by simp [call]⟩

theorem handle_state (s : Session) (cb : ChannelCallback) (read : Option Bytes) (consumed : Nat)
    (r : WriteResult) :
    ((s.handle cb read consumed r).val.conn.state = s.conn.state ∨
        (s.handle cb read consumed r).val.conn.state = .kDisconnected) ∧
      ∀ call t message, .accepted call t message ∉ (s.handle cb read consumed r).trace := by
  cases cb with
  | closeCallback => exact ⟨Or.inr rfl, by simp [handle]⟩
  | errorCallback => exact ⟨Or.inl rfl, by simp [handle]⟩
  | readCallback => exact ⟨TcpConnection.handleRead_state s.conn read consumed, by simp [handle]⟩
  | writeCallback => exact ⟨Or.inl (TcpConnection.handleWrite_state s.conn r), by simp [handle]⟩

/-- Outside `kConnected` a step accepts no message, and the state stays or becomes
`kDisconnected`. -/
theorem step_state {l : Label} (hstep : Step s l es t) (h : s.conn.state ≠ .kConnected) :
    (t.conn.state = s.conn.state ∨ t.conn.state = .kDisconnected) ∧
      ∀ call th message, .accepted call th message ∉ es := by
  have hcases := step_cases hstep
  cases l with
  | call th c r =>
      obtain ⟨rfl, rfl⟩ := Traced.mk.inj hcases
      exact call_state th c r h
  | poll revents =>
      obtain ⟨-, -, -, rfl, rfl⟩ := hcases
      exact ⟨Or.inl rfl, by simp⟩
  | callback read consumed r =>
      obtain ⟨cb, rest, -, heq⟩ := hcases
      obtain ⟨rfl, rfl⟩ := Traced.mk.inj heq
      exact handle_state _ cb read consumed r
  | swap =>
      obtain ⟨-, -, rfl, rfl⟩ := hcases
      exact ⟨Or.inl rfl, by simp⟩
  | runFunctor r =>
      obtain ⟨f, rest, -, heq⟩ := hcases
      obtain ⟨rfl, rfl⟩ := Traced.mk.inj heq
      exact ⟨invoke_state _ f r, accepted_not_mem_invoke _ f r⟩
  | finish =>
      obtain ⟨-, rfl, rfl⟩ := hcases
      exact ⟨Or.inl rfl, by simp⟩
  | queueDestroyed =>
      obtain ⟨-, rfl, rfl⟩ := hcases
      exact ⟨Or.inl rfl, by simp⟩

end State

end Session
end Chaonet
