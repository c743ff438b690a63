import Chaonet.Foundation.Run
import Chaonet.Server.IoLoop
import Mathlib.Algebra.Group.Nat.Defs

/-!
# TCP servers

`TcpServer`, `Acceptor` and `EventLoopThreadPool` embed the classes of the same names, and
`ServerLoops` is a server among the loops of its pool.  The base loop has number 0.  Every
step is one of some thread: the base thread accepts and removes connections, and the thread of
a loop runs the callbacks of the connections on it.  What a thread passes to another goes
through the functors of that loop.

The users call `send` and `shutdown` on the thread of the loop of a connection, at any point.
-/

namespace Chaonet

open Foundation

structure Acceptor where
  channel : Channel
  listening : Bool
deriving DecidableEq, Repr

structure EventLoopThreadPool where
  started : Bool
  numThreads : Nat
  /-- The numbers of the loops in `loops_`. -/
  loops : List Nat
  next : Nat
  inBounds : next = 0 ∨ next < loops.length

namespace EventLoopThreadPool

/-- `EventLoopThreadPool(baseLoop)`, after `setThreadNum`. -/
def create (numThreads : Nat) : EventLoopThreadPool :=
  { started := false, numThreads, loops := [], next := 0, inBounds := Or.inl rfl }

/-- The threads that are started get the numbers from 1 on. -/
def start (p : EventLoopThreadPool) : EventLoopThreadPool :=
  { p with
    started := true
    loops := p.loops ++ List.range' 1 p.numThreads
    inBounds := p.inBounds.imp_right fun hlt => by
      rw [List.length_append]
      exact Nat.lt_add_right _ hlt }

theorem next_lt (p : EventLoopThreadPool) (h : p.loops ≠ []) : p.next < p.loops.length := by
  rcases p.inBounds with hzero | hlt
  · rw [hzero]
    exact List.length_pos_iff.mpr h
  · exact hlt

def getNextLoop (p : EventLoopThreadPool) : Nat × EventLoopThreadPool :=
  if h : p.loops = [] then
    (0, p)
  else
    (p.loops.get ⟨p.next, p.next_lt h⟩,
      { p with
        next := if p.loops.length ≤ p.next + 1 then 0 else p.next + 1
        inBounds := by
          split_ifs with hlast
          · exact Or.inl rfl
          · exact Or.inr (Nat.lt_of_not_le hlast) })

@[simp] theorem getNextLoop_started (p : EventLoopThreadPool) :
    p.getNextLoop.2.started = p.started := by
  unfold getNextLoop
  split_ifs <;> rfl

end EventLoopThreadPool

structure TcpServer where
  name : String
  acceptor : Acceptor
  threadPool : EventLoopThreadPool
  /-- Whether `writeCompleteCallback_` is set. -/
  writeCompleteCallback : Bool
  started : Bool
  nextConnId : Int32
  /-- The numbers of the connections in `connections_`, by their names. -/
  connections : List (String × Nat)

/-- `TcpServer(loop, listenAddr, name)`, after `setThreadNum`; the channel of the acceptor has
the descriptor `fd` and the address `ptr`. -/
def TcpServer.create (name : String) (fd : Int) (ptr : ChannelPtr) (numThreads : Nat)
    (writeComplete : Bool) : TcpServer :=
  { name
    acceptor := ⟨.create ptr fd, false⟩
    threadPool := .create numThreads
    writeCompleteCallback := writeComplete
    started := false
    nextConnId := 1
    connections := [] }

/-- `connName` of the next connection. -/
def TcpServer.connName (s : TcpServer) : String := s.name ++ ("#" ++ toString s.nextConnId)

/-- The steps in the life of a connection. -/
inductive LifeStep
  | connectionEstablished
  | handleClose
  | removeConnectionInLoop
  | connectionDestroyed
deriving DecidableEq, Repr

/-- A connection of a server, and the number of its loop. -/
structure Hosted where
  conn : TcpConnection
  name : String
  loop : Nat

structure ServerLoops where
  server : TcpServer
  loops : Nat → IoLoop
  /-- The connections, in the order in which `newConnection` has made them. -/
  conns : List Hosted
  /-- What has happened to each connection, and on which thread; the code does not have it. -/
  life : Nat → List (LifeStep × Nat)

namespace ServerLoops

inductive Event
  | conn (i : Nat) (e : TcpConnection.Event)
  | acceptor (e : EPoller.Event)
  /-- The assertion `!started_` of `EventLoopThreadPool::start` has failed. -/
  | startedTwice
  /-- `connections_[connName]` was a connection already; the code does not check this. -/
  | overwritten (i : Nat)
  /-- The assertion `n == 1` of `removeConnectionInLoop` has failed. -/
  | erased (n : Nat)
deriving DecidableEq, Repr

/-- The assertions on `state_`, those of the pollers and those of the server. -/
def Event.isFailure : Event → Bool
  | .conn _ (.failed .connectionEstablishedConnecting) | .conn _ (.failed .handleCloseState)
  | .conn _ (.poller _) | .acceptor _ | .startedTwice | .overwritten _ | .erased _ => true
  | _ => false

def setLoop (s : ServerLoops) (n : Nat) (l : IoLoop) : ServerLoops :=
  { s with loops := Function.update s.loops n l }

/-- `queueInLoop` of loop `n`. -/
def queueInLoop (s : ServerLoops) (n : Nat) (functors : List ServerFunctor) : ServerLoops :=
  s.setLoop n ((s.loops n).queueInLoop functors)

/-- Note that thread `n` does a step of connection `i`. -/
def record (s : ServerLoops) (n i : Nat) (step : LifeStep) : ServerLoops :=
  { s with life := Function.update s.life i (s.life i ++ [(step, n)]) }

/-! ## Members and what they lead to -/

/-- The functors a member of connection `i` passed to `queueInLoop`. -/
def queuedByConn (i : Nat) (es : List TcpConnection.Event) : List ServerFunctor :=
  es.filterMap fun
    | .queued f => some (.user i f)
    | _ => none

/-- Let a member of connection `i` take effect, on thread `n`.  Only `handleClose` calls
`closeCallback_`. -/
def performConn (s : ServerLoops) (n i : Nat) (h : Hosted)
    (x : Traced TcpConnection.Event TcpConnection) : Traced Event ServerLoops :=
  let l := s.loops h.loop
  let closing := if .closeCallback ∈ x.trace then some i else l.closing
  ⟨{ s with
      conns := s.conns.set i { h with conn := x.val }
      loops := Function.update s.loops h.loop
        ({ l with poller := x.val.poller, closing }.queueInLoop (queuedByConn i x.trace))
      life := if .closeCallback ∈ x.trace then (s.record n i .handleClose).life else s.life },
    x.trace.map (.conn i)⟩

/-- Thread `n` calls a member of connection `i`. -/
def callConn (s : ServerLoops) (n i : Nat)
    (member : TcpConnection → Traced TcpConnection.Event TcpConnection) :
    Traced Event ServerLoops :=
  match s.conns[i]? with
  | none => pure s
  | some h => s.performConn n i h (member (h.conn.on (s.loops h.loop).poller))

def removeConnectionInLoop (s : ServerLoops) (n i : Nat) : Traced Event ServerLoops :=
  match s.conns[i]? with
  | none => pure s
  | some h => do
      let s := s.record n i .removeConnectionInLoop
      -- `connections_.erase(conn->name())`, whose result the source asserts to be 1.
      let erased := s.server.connections.countP fun entry => entry.1 = h.name
      let connections := s.server.connections.filter fun entry => entry.1 ≠ h.name
      let s := { s with server := { s.server with connections } }
      Traced.check (.erased erased) (erased = 1)
      pure (s.queueInLoop h.loop [.connectionDestroyed i])

/-- Thread `n` runs a functor. -/
def invoke (s : ServerLoops) (n : Nat) : ServerFunctor → Traced Event ServerLoops
  | .connectionEstablished i =>
      (s.record n i .connectionEstablished).callConn n i TcpConnection.connectionEstablished
  | .removeConnectionInLoop i => s.removeConnectionInLoop n i
  | .connectionDestroyed i =>
      (s.record n i .connectionDestroyed).callConn n i TcpConnection.connectionDestroyed
  | .user _ _ => pure s

/-- Thread `n` calls `runInLoop` of a loop. -/
def runInLoop (s : ServerLoops) (n loop : Nat) (f : ServerFunctor) : Traced Event ServerLoops :=
  if n = loop then s.invoke n f else pure (s.queueInLoop loop [f])

/-- `closeCallback_` of every connection. -/
def removeConnection (s : ServerLoops) (n i : Nat) : Traced Event ServerLoops :=
  s.runInLoop n 0 (.removeConnectionInLoop i)

/-- A connection and its entry in `connections_` are made. -/
def addConnection (s : ServerLoops) (conn : TcpConnection) : ServerLoops :=
  let name := s.server.connName
  let ioLoop := s.server.threadPool.getNextLoop
  { s with
    server := { s.server with
      nextConnId := s.server.nextConnId + 1
      threadPool := ioLoop.2
      connections :=
        s.server.connections.filter (fun entry => entry.1 ≠ name) ++ [(name, s.conns.length)] }
    conns := s.conns ++ [⟨conn, name, ioLoop.1⟩] }

/-- `newConnection(sockfd, peerAddr)`, where the channel of the connection gets the address
`ptr`. -/
def newConnection (s : ServerLoops) (n : Nat) (sockfd : Int) (ptr : ChannelPtr) :
    Traced Event ServerLoops := do
  let i := s.conns.length
  let ioLoop := s.server.threadPool.getNextLoop.1
  -- `connections_[connName] = conn` would drop a connection of the same name.
  Traced.check (.overwritten i) (s.server.connName ∉ s.server.connections.map Prod.fst)
  let conn := TcpConnection.create (Channel.create ptr sockfd) .create
    s.server.writeCompleteCallback false
  (s.addConnection conn).runInLoop n ioLoop (.connectionEstablished i)

/-- `Acceptor::handleRead` on thread `n`, where `accept` returns `connfd`. -/
def handleRead (s : ServerLoops) (n : Nat) (connfd : Int) (ptr : ChannelPtr) :
    Traced Event ServerLoops :=
  if 0 ≤ connfd then s.newConnection n connfd ptr else pure s

/-- `Acceptor::listen`. -/
def listen (s : ServerLoops) : Traced Event ServerLoops := do
  let l := s.loops 0
  let r ← (l.poller.updateChannel s.server.acceptor.channel.enableReading).lift .acceptor
  let s := s.setLoop 0 { l with poller := r.1 }
  pure { s with server := { s.server with acceptor := ⟨r.2, true⟩ } }

/-- `start()`, on the base thread. -/
def start (s : ServerLoops) : Traced Event ServerLoops := do
  let s ← if s.server.started = false then do
      Traced.check .startedTwice (s.server.threadPool.started = false)
      let threadPool := s.server.threadPool.start
      pure { s with server := { s.server with started := true, threadPool } }
    else
      pure s
  if s.server.acceptor.listening = false then s.listen else pure s

/-! ## Steps -/

/-- Steps of a thread, by the number of its loop, and calls of the users. -/
inductive Label
  /-- `start()` on the base thread. -/
  | start
  /-- `send` on the thread of the connection. -/
  | send (i : Nat) (message : Bytes) (r : WriteResult)
  | shutdown (i : Nat)
  /-- `poll` finds the channel with these `revents`. -/
  | activate (n : Nat) (o : ServerChannel) (revents : EventMask)
  | wake (n : Nat)
  /-- The next active channel handles its event; `accept` may return `connfd`, and `ptr` is
  the address of a new channel. -/
  | handleEvent (n : Nat) (connfd : Int) (ptr : ChannelPtr)
  /-- The next callback of a connection. -/
  | callback (n : Nat) (input : TcpConnection.Input)
  | closeCallback (n : Nat)
  | swap (n : Nat)
  | runFunctor (n : Nat)
  | finish (n : Nat)
deriving DecidableEq, Repr

/-- Move on in the iteration of loop `n`. -/
def proceed (s : ServerLoops) (n : Nat)
    (moved : Option (Iteration ServerChannel ServerFunctor)) :
    Option (Traced Event ServerLoops) :=
  if (s.loops n).Idle then
    moved.map fun iteration => pure (s.setLoop n { s.loops n with iteration })
  else none

/-- `poll` returns only channels of the epoll set. -/
def activate (s : ServerLoops) (n : Nat) (o : ServerChannel) (revents : EventMask) :
    Option (Traced Event ServerLoops) :=
  let l := s.loops n
  match o with
  | .acceptor =>
      let channel := s.server.acceptor.channel
      if n = 0 ∧ l.poller.epollSet channel.fd ≠ none then
        (l.iteration.activate .acceptor).map fun iteration =>
          let acceptor := { s.server.acceptor with channel := { channel with revents } }
          pure { s.setLoop n { l with iteration } with server := { s.server with acceptor } }
      else none
  | .connection i =>
      match s.conns[i]? with
      | none => none
      | some h =>
          let channel := h.conn.channel
          if n = h.loop ∧ channel.index = kAdded ∧ l.poller.epollSet channel.fd ≠ none then
            (l.iteration.activate (.connection i)).map fun iteration =>
              let conn := { h.conn with channel := { channel with revents } }
              pure { s.setLoop n { l with iteration } with
                conns := s.conns.set i { h with conn } }
          else none

/-- The next active channel of loop `n` handles its event; the acceptor has a read callback
only. -/
def handleEvent (s : ServerLoops) (n : Nat) (connfd : Int) (ptr : ChannelPtr) :
    Option (Traced Event ServerLoops) :=
  let l := s.loops n
  if l.Idle then
    match l.iteration.next with
    | none => none
    | some (.acceptor, iteration) =>
        let t := s.setLoop n { l with iteration }
        if .readCallback ∈ s.server.acceptor.channel.handleEvent then
          some (t.handleRead n connfd ptr)
        else
          some (pure t)
    | some (.connection i, iteration) =>
        match s.conns[i]? with
        | none => none
        | some h =>
            let handling := h.conn.channel.handleEvent.map fun cb => (i, cb)
            some (pure (s.setLoop n { l with iteration, handling }))
  else none

/-- A call of a user, on the thread of the connection. -/
def userCall (s : ServerLoops) (i : Nat)
    (member : TcpConnection → Traced TcpConnection.Event TcpConnection) :
    Option (Traced Event ServerLoops) :=
  s.conns[i]?.map fun h => s.callConn h.loop i member

def advance (s : ServerLoops) : Label → Option (Traced Event ServerLoops)
  | .start => some s.start
  | .send i message r => s.userCall i fun c => c.send message r
  | .shutdown i => s.userCall i TcpConnection.shutdown
  | .activate n o revents => s.activate n o revents
  | .wake n => s.proceed n ((s.loops n).iteration.wake 0)
  | .handleEvent n connfd ptr => s.handleEvent n connfd ptr
  | .callback n input =>
      let l := s.loops n
      match l.handling, l.closing with
      | (i, cb) :: handling, none =>
          some ((s.setLoop n { l with handling }).callConn n i fun c => c.handle input cb)
      | _, _ => none
  | .closeCallback n =>
      let l := s.loops n
      match l.closing with
      | none => none
      | some i => some ((s.setLoop n { l with closing := none }).removeConnection n i)
  | .swap n => s.proceed n (s.loops n).iteration.swap
  | .runFunctor n =>
      let l := s.loops n
      l.iteration.nextFunctor.map fun r => (s.setLoop n { l with iteration := r.2 }).invoke n r.1
  | .finish n => s.proceed n (s.loops n).iteration.finish

def Step : ServerLoops → Label → List Event → ServerLoops → Prop := stepOf advance

/-- A new server, and loops that have not done anything. -/
def create (name : String) (fd : Int) (ptr : ChannelPtr) (numThreads : Nat)
    (writeComplete : Bool) : ServerLoops :=
  { server := .create name fd ptr numThreads writeComplete
    loops := fun _ => .create
    conns := []
    life := fun _ => [] }

/-! ## What each step does -/

theorem proceed_eq_some {s : ServerLoops} {n : Nat} {x : Traced Event ServerLoops}
    {moved : Option (Iteration ServerChannel ServerFunctor)} (h : s.proceed n moved = some x) :
    (s.loops n).Idle ∧ ∃ iteration, moved = some iteration ∧
      x = pure (s.setLoop n { s.loops n with iteration }) := by
  unfold proceed at h
  split_ifs at h with hidle
  obtain ⟨iteration, hmoved, rfl⟩ := Option.map_eq_some_iff.mp h
  exact ⟨hidle, iteration, hmoved, rfl⟩

theorem userCall_eq_some {s : ServerLoops} {i : Nat} {x : Traced Event ServerLoops}
    {member : TcpConnection → Traced TcpConnection.Event TcpConnection}
    (h : s.userCall i member = some x) :
    ∃ h, s.conns[i]? = some h ∧ x = s.callConn h.loop i member := by
  obtain ⟨c, hi, rfl⟩ := Option.map_eq_some_iff.mp h
  exact ⟨c, hi, rfl⟩

/-- What each step does, as one proposition. -/
theorem advance_cases {s : ServerLoops} {l : Label} {x : Traced Event ServerLoops}
    (h : s.advance l = some x) :
    match l with
    | .start => x = s.start
    | .send i message r => ∃ h, s.conns[i]? = some h ∧
        x = s.callConn h.loop i fun c => c.send message r
    | .shutdown i => ∃ h, s.conns[i]? = some h ∧ x = s.callConn h.loop i TcpConnection.shutdown
    | .activate n .acceptor revents => n = 0 ∧
        (s.loops n).poller.epollSet s.server.acceptor.channel.fd ≠ none ∧
        ∃ iteration, (s.loops n).iteration.activate .acceptor = some iteration ∧
        x = pure { s.setLoop n { s.loops n with iteration } with
          server := { s.server with
            acceptor := { s.server.acceptor with
              channel := { s.server.acceptor.channel with revents } } } }
    | .activate n (.connection i) revents => ∃ h, s.conns[i]? = some h ∧ n = h.loop ∧
        h.conn.channel.index = kAdded ∧
        (s.loops n).poller.epollSet h.conn.channel.fd ≠ none ∧
        ∃ iteration, (s.loops n).iteration.activate (.connection i) = some iteration ∧
        x = pure { s.setLoop n { s.loops n with iteration } with
          conns := s.conns.set i { h with
            conn := { h.conn with channel := { h.conn.channel with revents } } } }
    | .wake n => (s.loops n).Idle ∧ ∃ iteration, (s.loops n).iteration.wake 0 = some iteration ∧
        x = pure (s.setLoop n { s.loops n with iteration })
    | .handleEvent n connfd ptr => (s.loops n).Idle ∧
        ((∃ iteration, (s.loops n).iteration.next = some (.acceptor, iteration) ∧
          (x = (s.setLoop n { s.loops n with iteration }).handleRead n connfd ptr ∨
            x = pure (s.setLoop n { s.loops n with iteration }))) ∨
        ∃ i h iteration, (s.loops n).iteration.next = some (.connection i, iteration) ∧
          s.conns[i]? = some h ∧
          x = pure (s.setLoop n { s.loops n with
            iteration
            handling := h.conn.channel.handleEvent.map fun cb => (i, cb) }))
    | .callback n input => ∃ i cb handling, (s.loops n).handling = (i, cb) :: handling ∧
        (s.loops n).closing = none ∧
        x = (s.setLoop n { s.loops n with handling }).callConn n i fun c => c.handle input cb
    | .closeCallback n => ∃ i, (s.loops n).closing = some i ∧
        x = (s.setLoop n { s.loops n with closing := none }).removeConnection n i
    | .swap n => (s.loops n).Idle ∧ ∃ iteration, (s.loops n).iteration.swap = some iteration ∧
        x = pure (s.setLoop n { s.loops n with iteration })
    | .runFunctor n => ∃ f iteration, (s.loops n).iteration.nextFunctor = some (f, iteration) ∧
        x = (s.setLoop n { s.loops n with iteration }).invoke n f
    | .finish n => (s.loops n).Idle ∧ ∃ iteration,
        (s.loops n).iteration.finish = some iteration ∧
        x = pure (s.setLoop n { s.loops n with iteration }) := by
  cases l with
  | start => exact (Option.some.inj h).symm
  | send i message r => exact userCall_eq_some h
  | shutdown i => exact userCall_eq_some h
  | activate n o revents =>
      cases o with
      | acceptor =>
          simp only [advance, activate] at h
          split_ifs at h with hguard
          obtain ⟨iteration, hiteration, rfl⟩ := Option.map_eq_some_iff.mp h
          exact ⟨hguard.1, hguard.2, iteration, hiteration, rfl⟩
      | connection i =>
          simp only [advance, activate] at h
          cases hi : s.conns[i]? with
          | none => simp [hi] at h
          | some c =>
              simp only [hi] at h
              split_ifs at h with hguard
              obtain ⟨iteration, hiteration, rfl⟩ := Option.map_eq_some_iff.mp h
              exact ⟨c, hi, hguard.1, hguard.2.1, hguard.2.2, iteration, hiteration, rfl⟩
  | wake n => exact proceed_eq_some h
  | handleEvent n connfd ptr =>
      simp only [advance, handleEvent] at h
      by_cases hidle : (s.loops n).Idle
      swap
      · simp [hidle] at h
      rw [if_pos hidle] at h
      refine ⟨hidle, ?_⟩
      cases hnext : (s.loops n).iteration.next with
      | none => simp [hnext] at h
      | some r =>
          obtain ⟨o, iteration⟩ := r
          cases o with
          | acceptor =>
              simp only [hnext] at h
              refine Or.inl ⟨iteration, rfl, ?_⟩
              split_ifs at h
              · exact Or.inl (Option.some.inj h).symm
              · exact Or.inr (Option.some.inj h).symm
          | connection i =>
              simp only [hnext] at h
              cases hi : s.conns[i]? with
              | none => simp [hi] at h
              | some c =>
                  simp only [hi, Option.some.injEq] at h
                  exact Or.inr ⟨i, c, iteration, rfl, hi, h.symm⟩
  | callback n input =>
      simp only [advance] at h
      split at h
      · rename_i i cb handling hhandling hclosing
        exact ⟨i, cb, handling, hhandling, hclosing, (Option.some.inj h).symm⟩
      · simp at h
  | closeCallback n =>
      simp only [advance] at h
      cases hclosing : (s.loops n).closing with
      | none => simp [hclosing] at h
      | some i =>
          simp only [hclosing, Option.some.injEq] at h
          exact ⟨i, hclosing, h.symm⟩
  | swap n => exact proceed_eq_some h
  | runFunctor n =>
      obtain ⟨⟨f, iteration⟩, hnext, rfl⟩ := Option.map_eq_some_iff.mp h
      exact ⟨f, iteration, hnext, rfl⟩
  | finish n => exact proceed_eq_some h

end ServerLoops
end Chaonet
