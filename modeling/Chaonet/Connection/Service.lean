import Chaonet.Connection.Passage
import Chaonet.Foundation.Run
import Chaonet.Reactor.Iteration

/-!
# Connections and the callbacks of their users

A `Service` is what a program does with a connection: its message callback and its callback for a
completed write.  It keeps a state of its own, and the environment has an input in every callback.
`Served` is a connection on its loop together with its user: `poll` activates its channel, the
callbacks of an event run one after the other, and the functors that they queue run after the
handlers of the iteration.  `removeConnection` of the server queues `connectionDestroyed`.

`Served.Kept.run` is the rule for runs: an invariant that the callbacks of events and the functors
keep holds after every run, whatever the order in which the socket becomes readable and writable,
and however the bytes are cut by `readv` and `::write`.
-/

namespace Chaonet

open Foundation

namespace Service

/-- What shows: the events of the connection, and those of the user. -/
inductive Event (ε : Type)
  | conn (e : TcpConnection.Event)
  | user (e : ε)
deriving DecidableEq, Repr

/-- The functors that are queued for a connection. -/
inductive Functor
  | connectionDestroyed
  | user (f : UserFunctor)
deriving DecidableEq, Repr

end Service

/-- The callbacks: `υ` is the state of the user, `ω` what the environment decides in a callback, and
`ε` what the user shows. -/
structure Service (υ ω ε : Type) where
  onMessage : υ → TcpConnection → ω → Traced (Service.Event ε) (υ × TcpConnection)
  onWriteComplete : υ → TcpConnection → ω → Traced (Service.Event ε) (υ × TcpConnection)

/-- A connection on its loop, with its user. -/
structure Served (υ : Type) where
  user : υ
  conn : TcpConnection
  iteration : Iteration Unit Service.Functor
  /-- The callbacks that are left of the event. -/
  handling : List ChannelCallback

namespace Service

variable {υ ω ε : Type}

/-- Call a member of the connection. -/
def member (x : Traced TcpConnection.Event TcpConnection) :
    Traced (Event ε) TcpConnection :=
  x.lift .conn

/-- The functors that are passed to `queueInLoop`. -/
def queuedBy (es : List (Event ε)) : List Functor :=
  es.filterMap fun
    | .conn (.queued f) => some (.user f)
    -- `removeConnection`.
    | .conn .closeCallback => some .connectionDestroyed
    | _ => none

/-- A callback of the channel.  The message callback takes its bytes itself. -/
def onEvent (service : Service υ ω ε) (u : υ) (c : TcpConnection) (cb : ChannelCallback)
    (read : Option Bytes) (write : WriteResult) (w : ω) :
    Traced (Event ε) (υ × TcpConnection) := do
  let x := c.handle ⟨read, 0, write⟩ cb
  let c ← member x
  if .messageCallback ∈ x.trace then service.onMessage u c w else pure (u, c)

/-- A functor. -/
def onFunctor (service : Service υ ω ε) (u : υ) (c : TcpConnection) (w : ω) :
    Functor → Traced (Event ε) (υ × TcpConnection)
  | .connectionDestroyed => do
      let c ← member c.connectionDestroyed
      pure (u, c)
  | .user .writeCompleteCallback => service.onWriteComplete u c w
  -- Nothing is done at the high-water mark.
  | .user (.highWaterMarkCallback _) => pure (u, c)

/-! ## What is shown -/

@[simp] theorem member_val (x : Traced TcpConnection.Event TcpConnection) :
    (member x : Traced (Event ε) TcpConnection).val = x.val := rfl

@[simp] theorem member_trace (x : Traced TcpConnection.Event TcpConnection) :
    (member x : Traced (Event ε) TcpConnection).trace = x.trace.map .conn := rfl

@[simp] theorem queuedBy_nil : queuedBy ([] : List (Event ε)) = [] := rfl

@[simp] theorem queuedBy_append (es es' : List (Event ε)) :
    queuedBy (es ++ es') = queuedBy es ++ queuedBy es' := List.filterMap_append

@[simp] theorem queuedBy_user (e : ε) (es : List (Event ε)) :
    queuedBy (.user e :: es) = queuedBy es := rfl

/-- The events of the connection. -/
def connEvents (es : List (Event ε)) : List TcpConnection.Event :=
  es.filterMap fun
    | .conn e => some e
    | .user _ => none

@[simp] theorem connEvents_nil : connEvents ([] : List (Event ε)) = [] := rfl

@[simp] theorem connEvents_append (es es' : List (Event ε)) :
    connEvents (es ++ es') = connEvents es ++ connEvents es' := List.filterMap_append

@[simp] theorem connEvents_user (e : ε) (es : List (Event ε)) :
    connEvents (.user e :: es) = connEvents es := rfl

@[simp] theorem connEvents_map_conn (es : List TcpConnection.Event) :
    connEvents (es.map (.conn : TcpConnection.Event → Event ε)) = es := by
  simp [connEvents, List.filterMap_map]

/-- The events of the user. -/
def userEvents (es : List (Event ε)) : List ε :=
  es.filterMap fun
    | .conn _ => none
    | .user e => some e

@[simp] theorem userEvents_nil : userEvents ([] : List (Event ε)) = [] := rfl

@[simp] theorem userEvents_append (es es' : List (Event ε)) :
    userEvents (es ++ es') = userEvents es ++ userEvents es' := List.filterMap_append

@[simp] theorem userEvents_user (e : ε) (es : List (Event ε)) :
    userEvents (.user e :: es) = e :: userEvents es := rfl

@[simp] theorem userEvents_map_conn (es : List TcpConnection.Event) :
    userEvents (es.map (.conn : TcpConnection.Event → Event ε)) = [] := by
  simp [userEvents, List.filterMap_map]

/-- What is accepted on the socket. -/
def written (es : List (Event ε)) : Bytes := TcpConnection.bytesWritten (connEvents es)

/-- What has been passed to `sendInLoop`: it has been accepted, or waits in the output buffer. -/
def handed (es : List (Event ε)) (c : TcpConnection) : Bytes :=
  written es ++ c.outputBuffer.content

/-- A member hands over what it sends. -/
theorem handed_member (es : List (Event ε)) {c : TcpConnection} {read sent : Bytes}
    {x : Traced TcpConnection.Event TcpConnection} (hx : TcpConnection.Passes c read sent x) :
    handed (es ++ x.trace.map .conn) x.val = handed es c ++ sent := by
  simp only [handed, written, connEvents_append, connEvents_map_conn,
    TcpConnection.bytesWritten_append, List.append_assoc, hx.output]

/-- The `FIN` has been sent. -/
def Ended (es : List (Event ε)) : Prop := .shutdownWrite ∈ connEvents es

/-! An event of the user changes nothing of this. -/

@[simp] theorem handed_user (es : List (Event ε)) (e : ε) (c : TcpConnection) :
    handed (es ++ [.user e]) c = handed es c := by
  simp [handed, written]

@[simp] theorem ended_user (es : List (Event ε)) (e : ε) :
    Ended (es ++ [.user e]) ↔ Ended es := by
  simp [Ended]

theorem ended_member (es : List (Event ε)) (es' : List TcpConnection.Event) :
    Ended (es ++ es'.map .conn) ↔ Ended es ∨ .shutdownWrite ∈ es' := by
  simp [Ended]

end Service

namespace Served

open Service (Event Functor queuedBy)

variable {υ ω ε : Type}

/-- What a callback leaves. -/
def take (s : Served υ) (x : Traced (Event ε) (υ × TcpConnection)) :
    Traced (Event ε) (Served υ) :=
  ⟨{ s with
      user := x.val.1
      conn := x.val.2
      iteration := s.iteration.push (queuedBy x.trace) }, x.trace⟩

inductive Label (ω : Type)
  /-- `poll` finds the channel with these `revents`. -/
  | activate (revents : EventMask)
  | wake
  | handleEvent
  /-- The next callback of the event, with what `readv` and `::write` return in it. -/
  | callback (read : Option Bytes) (write : WriteResult) (w : ω)
  | swap
  | runFunctor (w : ω)
  | finish
deriving DecidableEq, Repr

def step (service : Service υ ω ε) (s : Served υ) : Label ω → Option (Traced (Event ε) (Served υ))
  | .activate revents =>
      if s.conn.channel.index = kAdded ∧ s.conn.poller.epollSet s.conn.channel.fd ≠ none ∧
          CallbackSession.Deliverable s.conn.channel revents then
        (s.iteration.activate ()).map fun iteration =>
          let channel := { s.conn.channel with revents }
          pure { s with conn := { s.conn with channel }, iteration }
      else none
  | .wake =>
      if s.handling = [] then
        (s.iteration.wake 0).map fun iteration => pure { s with iteration }
      else none
  | .handleEvent =>
      if s.handling = [] then
        s.iteration.next.map fun r =>
          pure { s with iteration := r.2, handling := s.conn.channel.handleEvent }
      else none
  | .callback read write w =>
      match s.handling with
      | [] => none
      | cb :: handling =>
          some ({ s with handling }.take (service.onEvent s.user s.conn cb read write w))
  | .swap =>
      if s.handling = [] then
        s.iteration.swap.map fun iteration => pure { s with iteration }
      else none
  | .runFunctor w =>
      s.iteration.nextFunctor.map fun r =>
        { s with iteration := r.2 }.take (service.onFunctor s.user s.conn w r.1)
  | .finish => s.iteration.finish.map fun iteration => pure { s with iteration }

def Step (service : Service υ ω ε) : Served υ → Label ω → List (Event ε) → Served υ → Prop :=
  stepOf (step service)

/-- The functors that are still to be run. -/
def queued (s : Served υ) : List Functor := s.iteration.queue.queued

/-- A connection that has just been established, in the handlers of an iteration. -/
def start (u : υ) (c : TcpConnection) : Served υ :=
  { user := u
    conn := c
    iteration := ⟨.handling, [], .empty, 0⟩
    handling := [] }

theorem start_inTurn (u : υ) (c : TcpConnection) : (start u c).iteration.InTurn :=
  ⟨fun _ => rfl, nofun, .nil⟩

/-- The bytes that a step reads from the socket. -/
def reads (s : Served υ) : Label ω → Bytes
  | .callback read _ _ =>
      match s.handling with
      | [] => []
      | cb :: _ => TcpConnection.received cb read
  | _ => []

/-- The bytes that the socket has delivered so far. -/
def noteReads (s : Served υ) (l : Label ω) (read : Bytes) : Bytes := read ++ s.reads l

variable {service : Service υ ω ε} {s t : Served υ} {l : Label ω} {es : List (Event ε)}

/-- What a step does to the connection, the user and the functors that are still to be run. -/
inductive Did (service : Service υ ω ε) (s : Served υ) (l : Label ω) (es : List (Event ε))
    (t : Served υ) : Prop
  /-- The loop goes on; `poll` may have set `revents_`. -/
  | still (revents : EventMask) (shown : es = []) (reads : s.reads l = [])
      (conn : t.conn = { s.conn with channel := { s.conn.channel with revents } })
      (user : t.user = s.user) (queued : t.queued = s.queued)
  | event (cb : ChannelCallback) (read : Option Bytes) (write : WriteResult) (w : ω)
      (reads : s.reads l = TcpConnection.received cb read)
      (val : (service.onEvent s.user s.conn cb read write w).val = (t.user, t.conn))
      (shown : es = (service.onEvent s.user s.conn cb read write w).trace)
      (queued : t.queued = s.queued ++ queuedBy es)
  | functor (f : Functor) (rest : List Functor) (w : ω) (reads : s.reads l = [])
      (head : s.queued = f :: rest)
      (val : (service.onFunctor s.user s.conn w f).val = (t.user, t.conn))
      (shown : es = (service.onFunctor s.user s.conn w f).trace)
      (queued : t.queued = rest ++ queuedBy es)

theorem step_did (hturn : s.iteration.InTurn) (h : Step service s l es t) :
    t.iteration.InTurn ∧ Did service s l es t := by
  have hstep : step service s l = some ⟨t, es⟩ := h
  cases l with
  | activate revents =>
      simp only [step] at hstep
      split_ifs at hstep
      obtain ⟨iteration, hiteration, heq⟩ := Option.map_eq_some_iff.mp hstep
      obtain ⟨hturn', hqueue⟩ := hturn.activate hiteration
      obtain ⟨rfl, rfl⟩ := Traced.mk.inj heq
      exact ⟨hturn', .still revents rfl rfl rfl rfl (congrArg BatchQueue.queued hqueue)⟩
  | wake =>
      simp only [step] at hstep
      split_ifs at hstep
      obtain ⟨iteration, hiteration, heq⟩ := Option.map_eq_some_iff.mp hstep
      obtain ⟨hturn', hqueue⟩ := hturn.wake hiteration
      obtain ⟨rfl, rfl⟩ := Traced.mk.inj heq
      exact ⟨hturn', .still s.conn.channel.revents rfl rfl rfl rfl
        (congrArg BatchQueue.queued hqueue)⟩
  | handleEvent =>
      simp only [step] at hstep
      split_ifs at hstep
      obtain ⟨⟨o, iteration⟩, hiteration, heq⟩ := Option.map_eq_some_iff.mp hstep
      obtain ⟨hturn', hqueue⟩ := hturn.next hiteration
      obtain ⟨rfl, rfl⟩ := Traced.mk.inj heq
      exact ⟨hturn', .still s.conn.channel.revents rfl rfl rfl rfl
        (congrArg BatchQueue.queued hqueue)⟩
  | callback read write w =>
      simp only [step] at hstep
      split at hstep
      · simp at hstep
      · rename_i cb handling hhandling
        obtain ⟨rfl, rfl⟩ := Traced.mk.inj (Option.some.inj hstep)
        refine ⟨hturn.push _, .event cb read write w ?_ rfl rfl (Iteration.queued_push _ _)⟩
        simp only [reads, hhandling]
  | swap =>
      simp only [step] at hstep
      split_ifs at hstep
      obtain ⟨iteration, hiteration, heq⟩ := Option.map_eq_some_iff.mp hstep
      obtain ⟨hturn', hqueued⟩ := hturn.swap hiteration
      obtain ⟨rfl, rfl⟩ := Traced.mk.inj heq
      exact ⟨hturn', .still s.conn.channel.revents rfl rfl rfl rfl hqueued⟩
  | runFunctor w =>
      obtain ⟨⟨f, iteration⟩, hiteration, heq⟩ := Option.map_eq_some_iff.mp hstep
      obtain ⟨hturn', hqueued⟩ := hturn.nextFunctor hiteration
      obtain ⟨rfl, rfl⟩ := Traced.mk.inj heq
      exact ⟨hturn'.push _, .functor f _ w rfl hqueued rfl rfl (Iteration.queued_push _ _)⟩
  | finish =>
      obtain ⟨iteration, hiteration, heq⟩ := Option.map_eq_some_iff.mp hstep
      obtain ⟨hturn', hqueued⟩ := hturn.finish hiteration
      obtain ⟨rfl, rfl⟩ := Traced.mk.inj heq
      exact ⟨hturn', .still s.conn.channel.revents rfl rfl rfl rfl hqueued⟩

/-- An invariant that the callbacks keep.  `I past read u c fs` may speak of what has been shown and
of the bytes that the socket has delivered, of the user, of the connection, and of the functors that
are still to be run. -/
structure Kept (service : Service υ ω ε)
    (I : List (Event ε) → Bytes → υ → TcpConnection → List Functor → Prop) : Prop where
  revents : ∀ past read u c fs revents, I past read u c fs →
    I past read u { c with channel := { c.channel with revents } } fs
  event : ∀ past before u c fs cb read write w, I past before u c fs →
    let x := service.onEvent u c cb read write w
    I (past ++ x.trace) (before ++ TcpConnection.received cb read) x.val.1 x.val.2
      (fs ++ queuedBy x.trace)
  functor : ∀ past read u c f rest w, I past read u c (f :: rest) →
    let x := service.onFunctor u c w f
    I (past ++ x.trace) read x.val.1 x.val.2 (rest ++ queuedBy x.trace)

variable {I : List (Event ε) → Bytes → υ → TcpConnection → List Functor → Prop}

theorem Kept.step (hkept : Kept service I) (past : List (Event ε)) {before : Bytes}
    (hturn : s.iteration.InTurn) (h : I past before s.user s.conn s.queued)
    (hstep : Step service s l es t) :
    t.iteration.InTurn ∧ I (past ++ es) (before ++ s.reads l) t.user t.conn t.queued := by
  obtain ⟨hturn', hdid⟩ := step_did hturn hstep
  refine ⟨hturn', ?_⟩
  cases hdid with
  | still revents shown reads conn user queued =>
      rw [shown, reads, conn, user, queued, List.append_nil, List.append_nil]
      exact hkept.revents _ _ _ _ _ revents h
  | event cb read write w reads val shown queued =>
      have hnext := hkept.event _ _ _ _ _ cb read write w h
      dsimp only at hnext
      rwa [val, ← shown, ← queued, ← reads] at hnext
  | functor f rest w reads head val shown queued =>
      rw [head] at h
      have hnext := hkept.functor _ _ _ _ f rest w h
      dsimp only at hnext
      rwa [val, ← shown, ← queued, ← List.append_nil before, ← reads] at hnext

/-- **The rule for runs.**  What the callbacks keep holds after every run. -/
theorem Kept.run (hkept : Kept service I) {ls : List (Label ω)} {before read : Bytes}
    (past : List (Event ε)) (hturn : s.iteration.InTurn)
    (hinit : I past before s.user s.conn s.queued)
    (hrun : Run (remember noteReads (Step service)) (s, before) ls es (t, read)) :
    I (past ++ es) read t.user t.conn t.queued := by
  refine (Run.history (I := fun past (v : Served υ × Bytes) => v.1.iteration.InTurn ∧
    I past v.2 v.1.user v.1.conn v.1.queued) hrun past ⟨hturn, hinit⟩ ?_).2
  rintro past ⟨u, before⟩ l es ⟨v, after⟩ ⟨hturn, h⟩ ⟨hstep, rfl⟩
  exact hkept.step past hturn h hstep

end Served
end Chaonet
