import Chaonet.Connection.ClosedChannel

/-!
# The callbacks of a connection

A `CallbackSession` is a session on one thread whose users are the callbacks of the
connection itself: they call its public members right after `connectionEstablished`, after
a message, or in a functor of theirs, and only while the connection is not disconnected.
Polling respects the interest set, and a hangup is readable if the connection reads.

Every run then shows the callbacks in one order: the connection is reported up, messages
follow, and if it goes down it is reported so once, directly before `closeCallback_`
(`callbacks_in_order`).  `Living` is the invariant: a callback that may close the connection
is the first one of its event to have an effect, so that the channel is registered then.
-/

namespace Chaonet

open Foundation

/-- The order in which a connection goes through its states. -/
def StateE.rank : StateE → Nat
  | kConnecting => 0
  | kConnected => 1
  | kDisconnecting => 2
  | kDisconnected => 3

namespace TcpConnection

open Channel (Mask)

/-! ## What the members show -/

/-- Events that are no callback of the life cycle, no failed assertion of it and nothing of
the poller. -/
def Inert : Event → Prop
  | .wrote _ | .shutdownWrite | .queued _ | .buffer _ | .failed .sendInLoopNwrote => True
  | _ => False

/-- Nothing but such events. -/
def Silent (es : List Event) : Prop := ∀ e ∈ es, Inert e

@[simp] theorem silent_nil : Silent [] := by simp [Silent]

@[simp] theorem silent_append {es es' : List Event} :
    Silent (es ++ es') ↔ Silent es ∧ Silent es' := by
  simp only [Silent, List.mem_append, or_imp, forall_and]

@[simp] theorem silent_map_buffer (es : List Buffer.Assertion) : Silent (es.map .buffer) := by
  simp [Silent, Inert]

@[simp] theorem silent_ite_queued (p : Prop) [Decidable p] (f : UserFunctor) :
    Silent (if p then [.queued f] else []) := by
  by_cases h : p <;> simp [h, Silent, Inert]

@[simp] theorem silent_write (r : WriteResult) (data : Bytes) : Silent (write r data).trace := by
  cases r <;> simp [write, Silent, Inert]

theorem Outgoing.silent {es : List Event} (h : Outgoing es) : Silent es := by
  intro e he
  obtain ⟨bytes, rfl⟩ | ⟨a, rfl⟩ := h e he
  · trivial
  · trivial

variable {c : TcpConnection}

/-- The poller has nothing to say about a channel it tracks. -/
theorem updateChannel_trace (h : c.poller.Tracks c.channel) (events : EventMask) :
    (c.updateChannel { c.channel with events }).trace = [] := by
  obtain ⟨htrace, -⟩ := EPoller.updateChannel_tracks h events
  simp [updateChannel, htrace]

theorem sendInLoop_silent (h : c.poller.Tracks c.channel) (message : Bytes) (r : WriteResult) :
    Silent (c.sendInLoop message r).trace := by
  have hdirect : Silent (c.sendDirectly message r).trace := by
    unfold sendDirectly
    split_ifs with hidle
    · by_cases hval : 0 ≤ (write r message).val <;> simp [hval]
    · simp
  have hcheck : Silent (Traced.check (Event.failed .sendInLoopNwrote)
      (0 ≤ (c.sendDirectly message r).val)).trace := by
    simp only [Silent, Traced.mem_check_trace]
    rintro e ⟨-, rfl⟩
    trivial
  by_cases hrest : (c.sendDirectly message r).val.toNat < message.length
  · by_cases hwriting : c.channel.isWriting
    · simp [sendInLoop, sendLater, hdirect, hcheck, hrest, hwriting]
    · have henable (buffer : Buffer) :
          (updateChannel { c with outputBuffer := buffer } c.channel.enableWriting).trace = [] :=
        updateChannel_trace (c := { c with outputBuffer := buffer }) h _
      simp [sendInLoop, sendLater, hdirect, hcheck, hrest, hwriting, henable]
  · simp [sendInLoop, hdirect, hcheck, hrest]

theorem startReadInLoop_silent (h : c.poller.Tracks c.channel) :
    Silent (c.startReadInLoop).trace := by
  have hupdate : (c.updateChannel c.channel.enableReading).trace = [] := updateChannel_trace h _
  unfold startReadInLoop
  split_ifs <;> simp [hupdate]

theorem stopReadInLoop_silent (h : c.poller.Tracks c.channel) :
    Silent (c.stopReadInLoop).trace := by
  have hupdate : (c.updateChannel c.channel.disableReading).trace = [] := updateChannel_trace h _
  unfold stopReadInLoop
  split_ifs <;> simp [hupdate]

theorem shutdownInLoop_silent (c : TcpConnection) : Silent (c.shutdownInLoop).trace := by
  unfold shutdownInLoop
  by_cases hidle : ¬c.channel.isWriting <;> simp [hidle, Silent, Inert]

theorem handleWrite_silent (h : c.poller.Tracks c.channel) (r : WriteResult) :
    Silent (c.handleWrite r).trace := by
  obtain ⟨outputBuffer, front, hfront, heq | ⟨-, -, -, -, heq⟩⟩ := handleWrite_cases c r
  · rw [heq]
    exact hfront.silent
  · rw [heq]
    have hupdate (buffer : Buffer) :
        (updateChannel { c with outputBuffer := buffer } c.channel.disableWriting).trace = [] :=
      updateChannel_trace (c := { c with outputBuffer := buffer }) h _
    have hshutdown (p : Prop) [Decidable p] (c' : TcpConnection) :
        Silent (Traced.when p c'.shutdownInLoop).trace := by
      rw [Traced.when_trace]
      split_ifs
      · exact shutdownInLoop_silent c'
      · exact silent_nil
    simp only [handleDrained, Traced.bind_trace, Traced.pure_trace, silent_append, hupdate]
    exact ⟨hfront.silent, silent_nil, by simp, hshutdown _ _, silent_nil⟩

/-- Closing a connection that is up shows the two callbacks and nothing else. -/
theorem handleClose_trace (h : c.poller.Tracks c.channel)
    (hstate : c.state = .kConnected ∨ c.state = .kDisconnecting) :
    (c.handleClose).trace = [.connectionCallback false, .closeCallback] := by
  have hupdate :
      (updateChannel { c with state := .kDisconnected } c.channel.disableAll).trace = [] :=
    updateChannel_trace (c := { c with state := .kDisconnected }) h _
  simp [handleClose, Traced.check_of hstate, hupdate, connected]

/-- A read event delivers a message, closes the connection or does nothing. -/
theorem handleRead_cases (c : TcpConnection) (r : Option Bytes) (consumed : Nat) :
    (∃ inputBuffer front back, Silent front ∧ Silent back ∧
      c.handleRead r consumed = ⟨{ c with inputBuffer }, front ++ .messageCallback :: back⟩) ∨
    (∃ inputBuffer front, Silent front ∧
      c.handleRead r consumed = ⟨{ c with inputBuffer }.handleClose.val,
        front ++ { c with inputBuffer }.handleClose.trace⟩) ∨
    ∃ inputBuffer front, Silent front ∧
      c.handleRead r consumed = ⟨{ c with inputBuffer }, front⟩ := by
  by_cases hpos : 0 < (c.inputBuffer.readFd r).val.1
  · let retrieved := (c.inputBuffer.readFd r).val.2.retrieve
      (min consumed (c.inputBuffer.readFd r).val.2.readableBytes)
    refine Or.inl ⟨retrieved.val, (c.inputBuffer.readFd r).trace.map .buffer,
      retrieved.trace.map .buffer, by simp, by simp, ?_⟩
    simp [handleRead, bind, hpos, pure, Traced.lift, Traced.emit, retrieved]
  · by_cases hzero : (c.inputBuffer.readFd r).val.1 = 0
    · refine Or.inr (Or.inl ⟨(c.inputBuffer.readFd r).val.2,
        (c.inputBuffer.readFd r).trace.map .buffer, by simp, ?_⟩)
      simp [handleRead, bind, hzero, Traced.lift]
    · refine Or.inr (Or.inr ⟨(c.inputBuffer.readFd r).val.2,
        (c.inputBuffer.readFd r).trace.map .buffer, by simp, ?_⟩)
      simp [handleRead, bind, pure, hpos, hzero, Traced.lift]

/-! ## Interest sets -/

theorem sendInLoop_mask (h : Mask c.channel.events) (message : Bytes) (r : WriteResult) :
    Mask (c.sendInLoop message r).val.channel.events := by
  by_cases hrest : (c.sendDirectly message r).val.toNat < message.length
  · by_cases hwriting : c.channel.isWriting
    · simpa [sendInLoop, sendLater, hrest, hwriting] using h
    · simpa [sendInLoop, sendLater, hrest, hwriting, updateChannel] using h.enableWriting
  · simpa [sendInLoop, hrest] using h

theorem startReadInLoop_mask (h : Mask c.channel.events) :
    Mask (c.startReadInLoop).val.channel.events := by
  unfold startReadInLoop
  split_ifs
  · simpa [updateChannel] using h.enableReading
  · exact h

theorem stopReadInLoop_mask (h : Mask c.channel.events) :
    Mask (c.stopReadInLoop).val.channel.events := by
  unfold stopReadInLoop
  split_ifs
  · simpa [updateChannel] using h.disableReading
  · exact h

theorem handleWrite_mask (h : Mask c.channel.events) (r : WriteResult) :
    Mask (c.handleWrite r).val.channel.events := by
  obtain ⟨outputBuffer, front, -, heq | ⟨-, -, -, -, heq⟩⟩ := handleWrite_cases c r
  · rw [heq]
    exact h
  · rw [heq]
    simpa [handleDrained, updateChannel] using h.disableWriting

end TcpConnection

namespace Session

/-! ## The callbacks in a trace -/

/-- The callbacks of the life cycle among the events of a session. -/
def callbacks (es : List Event) : List TcpConnection.Event :=
  es.filterMap fun
    | .conn (.connectionCallback connected) => some (.connectionCallback connected)
    | .conn .messageCallback => some .messageCallback
    | .conn .closeCallback => some .closeCallback
    | _ => none

@[simp] theorem callbacks_append (es es' : List Event) :
    callbacks (es ++ es') = callbacks es ++ callbacks es' :=
  List.filterMap_append

@[simp] theorem callbacks_message (es : List Event) :
    callbacks (.conn .messageCallback :: es) = .messageCallback :: callbacks es := rfl

/-- No assertion of `connectionEstablished`, `handleClose` or the poller has failed, and no
`epoll_ctl`. -/
def Sound (es : List Event) : Prop :=
  .conn (.failed .connectionEstablishedConnecting) ∉ es ∧
    .conn (.failed .handleCloseState) ∉ es ∧ ∀ e, .conn (.poller e) ∉ es

@[simp] theorem sound_nil : Sound [] := by simp [Sound]

@[simp] theorem sound_append {es es' : List Event} : Sound (es ++ es') ↔ Sound es ∧ Sound es' := by
  simp only [Sound, List.mem_append, not_or, forall_and]
  tauto

@[simp] theorem sound_message {es : List Event} :
    Sound (.conn .messageCallback :: es) ↔ Sound es := by
  simp [Sound]

theorem silent_callbacks {es : List TcpConnection.Event} (h : TcpConnection.Silent es) :
    callbacks (es.map .conn) = [] := by
  rw [callbacks, List.filterMap_map, List.filterMap_eq_nil_iff]
  intro e he
  have hinert := h e he
  cases e <;> simp_all [TcpConnection.Inert]

theorem silent_sound {es : List TcpConnection.Event} (h : TcpConnection.Silent es) :
    Sound (es.map .conn) := by
  refine ⟨fun hmem => ?_, fun hmem => ?_, fun e hmem => ?_⟩
  · exact h _ (by simpa using hmem)
  · exact h _ (by simpa using hmem)
  · exact h _ (by simpa using hmem)

/-! ## The state moves forward -/

theorem rank_le_of_or {s s' : StateE} (h : s' = s ∨ s' = .kDisconnected) : s.rank ≤ s'.rank := by
  rcases h with rfl | rfl
  · exact Nat.le_refl _
  · cases s <;> decide

theorem call_rank (s : Session) (th : Thread) (c : PublicCall) (r : WriteResult) :
    s.conn.state.rank ≤ (s.call th c r).val.conn.state.rank := by
  cases c with
  | send message =>
      by_cases hstate : s.conn.state = .kConnected
      · simpa [call, hstate] using rank_le_of_or
          (runInLoop_state { s with calls := s.calls + 1 } th (.sendInLoop s.calls message) r)
      · simp [call, hstate]
  | shutdown =>
      by_cases hstate : s.conn.state = .kConnected
      · have hle := rank_le_of_or (runInLoop_state
          { s with conn := { s.conn with state := .kDisconnecting } } th .shutdownInLoop r)
        rw [hstate]
        have hrank : StateE.rank .kConnected ≤ StateE.rank .kDisconnecting := by decide
        refine Nat.le_trans hrank ?_
        simpa [call, hstate] using hle
      · simp [call, hstate]
  | startRead => exact rank_le_of_or (runInLoop_state s th .startReadInLoop r)
  | stopRead => exact rank_le_of_or (runInLoop_state s th .stopReadInLoop r)

/-- Whatever a session does, the state of its connection moves forward. -/
theorem step_rank {s t : Session} {l : Label} {es : List Event} (hstep : Step s l es t) :
    s.conn.state.rank ≤ t.conn.state.rank := by
  have hcases := step_cases hstep
  cases l with
  | call th c r =>
      obtain ⟨rfl, rfl⟩ := Traced.mk.inj hcases
      exact call_rank s th c r
  | poll revents =>
      obtain ⟨-, -, -, -, rfl⟩ := hcases
      exact Nat.le_refl _
  | callback read consumed r =>
      obtain ⟨cb, rest, -, heq⟩ := hcases
      obtain ⟨rfl, rfl⟩ := Traced.mk.inj heq
      exact rank_le_of_or (handle_state { s with handling := rest } cb read consumed r).1
  | swap =>
      obtain ⟨-, -, -, rfl⟩ := hcases
      exact Nat.le_refl _
  | runFunctor r =>
      obtain ⟨f, rest, -, heq⟩ := hcases
      obtain ⟨rfl, rfl⟩ := Traced.mk.inj heq
      exact rank_le_of_or (invoke_state { s with queue := s.queue.proceed rest } f r)
  | finish =>
      obtain ⟨-, -, rfl⟩ := hcases
      exact Nat.le_refl _
  | queueDestroyed =>
      obtain ⟨-, -, rfl⟩ := hcases
      exact Nat.le_refl _

end Session

/-- A session whose users are the callbacks of the connection. -/
structure CallbackSession where
  session : Session
  /-- Whether a callback of the connection that may call its members is running. -/
  inCallback : Bool

namespace CallbackSession

open Session (Event Label Functor callbacks Sound Settled)
open Channel (Mask)

/-- Whether a step ends in such a callback, or a call stays in it. -/
def inCallbackAfter (s : CallbackSession) (l : Label) (es : List Event) : Bool :=
  match l with
  | .call _ _ _ => s.inCallback
  | .callback _ _ _ => .conn .messageCallback ∈ es
  | .runFunctor _ =>
      match s.session.queue.batch with
      | some (.user _ :: _) => true
      | _ => false
  | _ => false

def step (s : CallbackSession) (l : Label) : Option (Traced Event CallbackSession) :=
  (s.session.step l).map fun x =>
    ⟨{ session := x.val, inCallback := s.inCallbackAfter l x.trace }, x.trace⟩

def Step : CallbackSession → Label → List Event → CallbackSession → Prop := stepOf step

/-- What the poller of Linux delivers for a TCP socket. -/
def Deliverable (c : Channel) (revents : EventMask) : Prop :=
  revents &&& ~~~(c.events ||| POLLERR ||| POLLHUP) = 0 ∧
    (revents &&& POLLHUP ≠ 0 → c.isReading → revents &&& POLLIN ≠ 0)

/-- The calls and events of a run on one thread. -/
def Permitted (s : CallbackSession) : Label → Prop
  | .call t _ _ => t = .loop ∧ s.inCallback = true ∧ s.session.conn.state ≠ .kDisconnected
  | .poll revents => Deliverable s.session.conn.channel revents
  | _ => True

instance (c : Channel) (revents : EventMask) : Decidable (Deliverable c revents) :=
  inferInstanceAs (Decidable (_ ∧ _))

instance (s : CallbackSession) : ∀ l, Decidable (s.Permitted l)
  | .call _ _ _ => inferInstanceAs (Decidable (_ ∧ _ ∧ _))
  | .poll _ => inferInstanceAs (Decidable (Deliverable _ _))
  | .callback _ _ _ | .swap | .runFunctor _ | .finish | .queueDestroyed => .isTrue trivial

/-- In the callback at the end of `connectionEstablished`. -/
def start (k : Session.Config) : CallbackSession := ⟨.start k, true⟩

/-- What `connectionEstablished` shows. -/
def established (k : Session.Config) : List Event :=
  k.connection.connectionEstablished.trace.map .conn

/-- What is left of an event that can close the connection. -/
def Closes (handling : List ChannelCallback) : Prop :=
  .closeCallback ∈ handling ∨ .readCallback ∈ handling

/-- The callbacks of one event: at most one of them can close the connection, and it runs
before the write handler. -/
structure OneClose (handling : List ChannelCallback) : Prop where
  nodup : handling.Nodup
  either : ¬(.closeCallback ∈ handling ∧ .readCallback ∈ handling)
  last : .writeCallback ∉ handling.dropLast

/-- A mask that may be delivered does not run both the close and the read handler. -/
theorem oneClose_handleEvent {c : Channel} {revents : EventMask} (hmask : Mask c.events)
    (h : Deliverable c revents) : OneClose { c with revents }.handleEvent := by
  refine ⟨Channel.nodup_handleEvent _, ?_, Channel.writeCallback_not_mem_dropLast _⟩
  rintro ⟨hclose, hread⟩
  rw [Channel.closeCallback_mem_handleEvent] at hclose
  rw [Channel.readCallback_mem_handleEvent] at hread
  obtain ⟨hwithin, hhangup⟩ := h
  have hidle : ¬c.isReading := fun hreading => hhangup hclose.1 hreading hclose.2
  -- Without read interest, nothing readable is within the mask.
  apply hread
  generalize hevents : c.events = events at hmask hwithin
  rw [Channel.isReading, hevents] at hidle
  cases hmask with
  | none => exact Channel.and_eq_zero_of_within hwithin (by decide)
  | read => exact absurd (by decide) hidle
  | write => exact Channel.and_eq_zero_of_within hwithin (by decide)
  | both => exact absurd (by decide) hidle

theorem OneClose.tail {cb : ChannelCallback} {rest : List ChannelCallback}
    (h : OneClose (cb :: rest)) : OneClose rest := by
  refine ⟨(List.nodup_cons.mp h.nodup).2, fun hboth => h.either
    ⟨List.mem_cons_of_mem _ hboth.1, List.mem_cons_of_mem _ hboth.2⟩, fun hmem => h.last ?_⟩
  have hne : rest ≠ [] := by
    rintro rfl
    simp at hmem
  rw [List.dropLast_cons_of_ne_nil hne]
  exact List.mem_cons_of_mem _ hmem

theorem OneClose.write {rest : List ChannelCallback} (h : OneClose (.writeCallback :: rest)) :
    rest = [] := by
  by_contra hne
  apply h.last
  rw [List.dropLast_cons_of_ne_nil hne]
  exact List.mem_cons_self

/-- After a callback that can close the connection, none is left. -/
theorem OneClose.rest {cb : ChannelCallback} {rest : List ChannelCallback}
    (h : OneClose (cb :: rest)) (hcb : cb = .closeCallback ∨ cb = .readCallback) :
    ¬Closes rest := by
  have hnot := (List.nodup_cons.mp h.nodup).1
  rintro (hclose | hread)
  · rcases hcb with rfl | rfl
    · exact hnot hclose
    · exact h.either ⟨List.mem_cons_of_mem _ hclose, List.mem_cons_self⟩
  · rcases hcb with rfl | rfl
    · exact h.either ⟨List.mem_cons_self, List.mem_cons_of_mem _ hread⟩
    · exact hnot hread

/-- The callbacks of a connection: up, messages, and down with `closeCallback_`. -/
def InOrder (es : List Event) (state : StateE) : Prop :=
  ∃ messages, callbacks es =
    .connectionCallback true :: List.replicate messages .messageCallback ++
      if state = .kDisconnected then [.connectionCallback false, .closeCallback] else []

structure Living (es : List Event) (s : CallbackSession) : Prop where
  settled : Settled es s.session
  mask : Mask s.session.conn.channel.events
  up : s.session.conn.state ≠ .kConnecting
  /-- Nobody queues an in-loop function of the connection. -/
  queue : ∀ f ∈ s.session.queue.queued, f = .connectionDestroyed ∨ ∃ u, f = .user u
  /-- A closed channel is not in the epoll set. -/
  closed : s.session.conn.state = .kDisconnected → s.session.conn.channel.index ≠ kAdded
  destroys : s.session.conn.state = .kDisconnected →
    s.session.closing + s.session.queue.queued.count .connectionDestroyed +
      (if s.session.conn.channel.index = kNew then 1 else 0) = 1
  /-- Nothing has happened since the event was delivered. -/
  event : Closes s.session.handling → s.inCallback = false ∧
    s.session.conn.state ≠ .kDisconnected ∧ s.session.conn.channel.index = kAdded
  once : OneClose s.session.handling
  inOrder : InOrder es s.session.conn.state
  sound : Sound es

variable {s t : CallbackSession} {es es' : List Event} {l : Label}

/-! ## Traces -/

theorem InOrder.silent {state state' : StateE} (h : InOrder es state) (hsilent : callbacks es' = [])
    (hstate : state' = .kDisconnected ↔ state = .kDisconnected) : InOrder (es ++ es') state' := by
  obtain ⟨messages, heq⟩ := h
  refine ⟨messages, ?_⟩
  simp only [Session.callbacks_append, heq, hsilent, List.append_nil, hstate]

theorem InOrder.message {state : StateE} (h : InOrder es state)
    (hmessage : callbacks es' = [.messageCallback]) (hopen : state ≠ .kDisconnected) :
    InOrder (es ++ es') state := by
  obtain ⟨messages, heq⟩ := h
  refine ⟨messages + 1, ?_⟩
  rw [Session.callbacks_append, heq, hmessage, if_neg hopen, List.append_nil, List.append_nil,
    List.replicate_succ', List.cons_append]

theorem InOrder.close {state : StateE} (h : InOrder es state)
    (hclose : callbacks es' = [.connectionCallback false, .closeCallback])
    (hopen : state ≠ .kDisconnected) : InOrder (es ++ es') .kDisconnected := by
  obtain ⟨messages, heq⟩ := h
  refine ⟨messages, ?_⟩
  rw [Session.callbacks_append, heq, hclose, if_neg hopen, List.append_nil, if_pos rfl]

/-! ## The invariant -/

/-- A connection that is not closed. -/
theorem Living.of_open (hsettled : Settled es s.session)
    (hopen : s.session.conn.state ≠ .kDisconnected) (hmask : Mask s.session.conn.channel.events)
    (hup : s.session.conn.state ≠ .kConnecting)
    (hqueue : ∀ f ∈ s.session.queue.queued, f = .connectionDestroyed ∨ ∃ u, f = .user u)
    (hevent : Closes s.session.handling → s.inCallback = false ∧
      s.session.conn.channel.index = kAdded)
    (honce : OneClose s.session.handling) (hinOrder : InOrder es s.session.conn.state)
    (hsound : Sound es) : Living es s :=
  ⟨hsettled, hmask, hup, hqueue, fun hclosed => absurd hclosed hopen,
    fun hclosed => absurd hclosed hopen,
    fun hcloses => ⟨(hevent hcloses).1, hopen, (hevent hcloses).2⟩, honce, hinOrder, hsound⟩

/-- The functors of the users join the queue. -/
theorem Living.push_user (h : Living es s) (fs : List TcpConnection.Event) :
    ∀ f ∈ (s.session.queue.push (Session.queuedBy fs)).queued,
      f = .connectionDestroyed ∨ ∃ u, f = .user u := by
  intro f hf
  rw [BatchQueue.queued_push] at hf
  rcases List.mem_append.mp hf with hf | hf
  · exact h.queue f hf
  · exact Or.inr (Session.user_of_mem_queuedBy hf)

theorem Living.calm (h : Living es s) (hpermitted : s.Permitted l) : s.session.Calm l := by
  intro hclosed x hx
  cases l with
  | call t c r => exact absurd hclosed hpermitted.2.2
  | runFunctor r =>
      cases hbatch : s.session.queue.batch with
      | none => simp [Session.executed, hbatch] at hx
      | some batch =>
          cases batch with
          | nil => simp [Session.executed, hbatch] at hx
          | cons f rest =>
              have hmem : f ∈ s.session.queue.queued := by
                rw [BatchQueue.queued_proceed hbatch]
                exact List.mem_cons_self
              obtain rfl : (f, r) = x := by simpa [Session.executed, hbatch] using hx
              obtain rfl | ⟨u, rfl⟩ := h.queue f hmem
              · trivial
              · trivial
  | poll revents => simp [Session.executed] at hx
  | callback read consumed r => simp [Session.executed] at hx
  | swap => simp [Session.executed] at hx
  | finish => simp [Session.executed] at hx
  | queueDestroyed => simp [Session.executed] at hx

/-- A silent member that leaves the connection open. -/
theorem Living.perform (h : Living es s) {x : Traced TcpConnection.Event TcpConnection}
    {front : List Event} {session : Session}
    (hsettled : Settled (es ++ (front ++ x.trace.map .conn)) session)
    (hconn : session.conn = x.val)
    (hqueue : session.queue = s.session.queue.push (Session.queuedBy x.trace))
    (hhandling : session.handling = s.session.handling) (hidle : ¬Closes s.session.handling)
    (hopen : s.session.conn.state ≠ .kDisconnected) (hopen' : x.val.state ≠ .kDisconnected)
    (hmask : Mask x.val.channel.events)
    (hrank : s.session.conn.state.rank ≤ session.conn.state.rank)
    (hsilent : TcpConnection.Silent x.trace) (hfront : callbacks front = [])
    (hsound : Sound front) :
    Living (es ++ (front ++ x.trace.map .conn)) ⟨session, s.inCallback⟩ := by
  have hclosed : session.conn.state ≠ .kDisconnected := by rwa [hconn]
  apply Living.of_open
  case hsettled => exact hsettled
  case hopen => exact hclosed
  case hmask => rwa [hconn]
  case hup =>
    intro hup
    have hzero : s.session.conn.state.rank ≤ 0 := by
      rw [hup] at hrank
      exact hrank
    have hold := h.up
    cases hstate : s.session.conn.state <;> simp [hstate, StateE.rank] at hold hzero
  case hqueue =>
    rw [hqueue]
    exact h.push_user x.trace
  case hevent =>
    intro hcloses
    rw [hhandling] at hcloses
    exact absurd hcloses hidle
  case honce =>
    rw [hhandling]
    exact h.once
  case hinOrder =>
    refine h.inOrder.silent ?_ (iff_of_false hclosed hopen)
    rw [Session.callbacks_append, hfront, Session.silent_callbacks hsilent, List.append_nil]
  case hsound =>
    rw [Session.sound_append, Session.sound_append]
    exact ⟨h.sound, hsound, Session.silent_sound hsilent⟩

/-- A call that a callback makes. -/
theorem Living.call (h : Living es s) {c : PublicCall} {r : WriteResult}
    (hcallback : s.inCallback = true) (hopen : s.session.conn.state ≠ .kDisconnected)
    (hsettled : Settled (es ++ (s.session.call .loop c r).trace) (s.session.call .loop c r).val) :
    Living (es ++ (s.session.call .loop c r).trace)
      ⟨(s.session.call .loop c r).val, s.inCallback⟩ := by
  have hidle : ¬Closes s.session.handling := fun hcloses => by
    have hevent := (h.event hcloses).1
    rw [hcallback] at hevent
    exact Bool.noConfusion hevent
  have hbooks := h.settled.books
  have hrank := Session.call_rank s.session .loop c r
  cases c with
  | send message =>
      by_cases hstate : s.session.conn.state = .kConnected
      · have hcall : s.session.call .loop (.send message) r =
            ⟨({ s.session with calls := s.session.calls + 1 }.perform
                (s.session.conn.sendInLoop message r)).val,
              [.accepted s.session.calls .loop message, .sending s.session.calls message] ++
                (s.session.conn.sendInLoop message r).trace.map .conn⟩ := by
          simp [Session.call, hstate, Session.runInLoop, Session.invoke, Session.perform, bind,
            Traced.emit]
        rw [hcall] at hsettled hrank ⊢
        exact h.perform hsettled rfl rfl rfl hidle hopen (by simpa using hopen)
          (TcpConnection.sendInLoop_mask h.mask message r) hrank
          (TcpConnection.sendInLoop_silent hbooks message r) rfl (by simp [Sound])
      · have hcall : s.session.call .loop (.send message) r = pure s.session := by
          simp [Session.call, hstate]
        simpa [hcall] using h
  | shutdown =>
      by_cases hstate : s.session.conn.state = .kConnected
      · let conn := { s.session.conn with state := .kDisconnecting }
        have hcall : s.session.call .loop .shutdown r =
            ⟨({ s.session with conn }.perform (conn.shutdownInLoop >>= fun _ => pure conn)).val,
              [.shutdownCalled .loop] ++
                (conn.shutdownInLoop >>= fun _ => pure conn).trace.map .conn⟩ := by
          simp [Session.call, hstate, Session.runInLoop, Session.invoke, Session.perform, bind,
            Traced.emit, conn]
        rw [hcall] at hsettled hrank ⊢
        refine h.perform hsettled rfl rfl rfl hidle hopen (by simp [conn]) h.mask hrank ?_ rfl
          (by simp [Sound])
        simpa using TcpConnection.shutdownInLoop_silent conn
      · have hcall : s.session.call .loop .shutdown r =
            ⟨s.session, [.shutdownCalled .loop] ++ (pure s.session.conn :
              Traced TcpConnection.Event TcpConnection).trace.map .conn⟩ := by
          simp [Session.call, hstate, bind, Traced.emit, pure]
        rw [hcall] at hsettled hrank ⊢
        exact h.perform hsettled rfl (by simp [Session.queuedBy]) rfl hidle hopen hopen h.mask hrank
          TcpConnection.silent_nil rfl (by simp [Sound])
  | startRead =>
      have hcall : s.session.call .loop .startRead r =
          ⟨(s.session.perform s.session.conn.startReadInLoop).val,
            [] ++ (s.session.conn.startReadInLoop).trace.map .conn⟩ := rfl
      rw [hcall] at hsettled hrank ⊢
      exact h.perform hsettled rfl rfl rfl hidle hopen (by simpa using hopen)
        (TcpConnection.startReadInLoop_mask h.mask) hrank
        (TcpConnection.startReadInLoop_silent hbooks) rfl Session.sound_nil
  | stopRead =>
      have hcall : s.session.call .loop .stopRead r =
          ⟨(s.session.perform s.session.conn.stopReadInLoop).val,
            [] ++ (s.session.conn.stopReadInLoop).trace.map .conn⟩ := rfl
      rw [hcall] at hsettled hrank ⊢
      exact h.perform hsettled rfl rfl rfl hidle hopen (by simpa using hopen)
        (TcpConnection.stopReadInLoop_mask h.mask) hrank
        (TcpConnection.stopReadInLoop_silent hbooks) rfl Session.sound_nil

/-- The connection is closed by the event being handled. -/
theorem Living.close (h : Living es s) {rest : List ChannelCallback} (hrest : ¬Closes rest)
    (honce : OneClose rest) (hopen : s.session.conn.state ≠ .kDisconnected)
    (hadded : s.session.conn.channel.index = kAdded) {x : Traced TcpConnection.Event TcpConnection}
    (inputBuffer : Buffer) {front : List TcpConnection.Event} (hfront : TcpConnection.Silent front)
    (hx : x = ⟨{ s.session.conn with inputBuffer }.handleClose.val,
      front ++ { s.session.conn with inputBuffer }.handleClose.trace⟩)
    (hsettled : Settled (es ++ ({ s.session with handling := rest }.perform x).trace)
      ({ s.session with handling := rest }.perform x).val) (inCallback : Bool) :
    Living (es ++ ({ s.session with handling := rest }.perform x).trace)
      ⟨({ s.session with handling := rest }.perform x).val, inCallback⟩ := by
  obtain ⟨-, hclosing, hqueued⟩ := h.settled.opened hopen
  have hstate : s.session.conn.state = .kConnected ∨ s.session.conn.state = .kDisconnecting := by
    have hup := h.up
    cases hstate : s.session.conn.state <;> simp_all
  have htrace : { s.session.conn with inputBuffer }.handleClose.trace =
      [.connectionCallback false, .closeCallback] :=
    TcpConnection.handleClose_trace (c := { s.session.conn with inputBuffer }) h.settled.books
      hstate
  have hindex : x.val.channel.index = kDeleted := by
    have hupdate := EPoller.updateChannel_index h.settled.books kNoneEvent
    rw [if_pos ⟨hadded, rfl⟩] at hupdate
    rw [hx]
    exact hupdate
  have hcallbacks : callbacks (({ s.session with handling := rest }.perform x).trace) =
      [.connectionCallback false, .closeCallback] := by
    rw [hx, htrace]
    simp only [Session.perform, List.map_append, Session.callbacks_append,
      Session.silent_callbacks hfront]
    rfl
  have hqueuedBy : Session.queuedBy x.trace = Session.queuedBy front := by
    rw [hx, htrace]
    simp [Session.queuedBy]
  have hcount : x.trace.count .closeCallback = 1 := by
    have hnone : .closeCallback ∉ front := fun hmem => hfront _ hmem
    rw [hx, htrace, List.count_append, List.count_eq_zero_of_not_mem hnone]
    rfl
  constructor
  case settled => exact hsettled
  case mask =>
    have hnone : x.val.channel.events = kNoneEvent := by
      rw [hx]
      simp [TcpConnection.handleClose, TcpConnection.updateChannel, Channel.disableAll]
    show Mask x.val.channel.events
    rw [hnone]
    exact .none
  case up =>
    rw [hx]
    simp [Session.perform]
  case queue => exact h.push_user x.trace
  case closed =>
    intro _
    show x.val.channel.index ≠ kAdded
    rw [hindex]
    decide
  case destroys =>
    intro _
    show s.session.closing + x.trace.count .closeCallback +
      (s.session.queue.push (Session.queuedBy x.trace)).queued.count .connectionDestroyed +
      (if x.val.channel.index = kNew then 1 else 0) = 1
    have hnone : .connectionDestroyed ∉ Session.queuedBy x.trace := by
      intro hmem
      obtain ⟨u, hu⟩ := Session.user_of_mem_queuedBy hmem
      simp at hu
    rw [BatchQueue.queued_push, List.count_append, List.count_eq_zero_of_not_mem hqueued,
      List.count_eq_zero_of_not_mem hnone, hclosing, hcount, hindex]
    rfl
  case event => exact fun hcloses => absurd hcloses hrest
  case once => exact honce
  case inOrder =>
    have hdisconnected : x.val.state = .kDisconnected := by
      rw [hx]
      rfl
    show InOrder _ x.val.state
    rw [hdisconnected]
    exact h.inOrder.close hcallbacks hopen
  case sound =>
    rw [Session.sound_append]
    refine ⟨h.sound, ?_⟩
    simp only [Session.perform, hx, htrace, List.map_append, Session.sound_append]
    exact ⟨Session.silent_sound hfront, by simp [Sound]⟩

/-- A message, or a read that fails. -/
theorem Living.read (h : Living es s) {rest : List ChannelCallback} (hrest : ¬Closes rest)
    (honce : OneClose rest) (hopen : s.session.conn.state ≠ .kDisconnected)
    {x : Traced TcpConnection.Event TcpConnection} {inputBuffer : Buffer}
    (hval : x.val = { s.session.conn with inputBuffer })
    (hmessages : InOrder (es ++ x.trace.map .conn) s.session.conn.state)
    (hsound : Sound (x.trace.map .conn))
    (hsettled : Settled (es ++ ({ s.session with handling := rest }.perform x).trace)
      ({ s.session with handling := rest }.perform x).val) (inCallback : Bool) :
    Living (es ++ ({ s.session with handling := rest }.perform x).trace)
      ⟨({ s.session with handling := rest }.perform x).val, inCallback⟩ := by
  have hstate : x.val.state = s.session.conn.state := by rw [hval]
  apply Living.of_open
  case hsettled => exact hsettled
  case hopen =>
    show x.val.state ≠ .kDisconnected
    rwa [hstate]
  case hmask =>
    show Mask x.val.channel.events
    rw [hval]
    exact h.mask
  case hup =>
    show x.val.state ≠ .kConnecting
    rw [hstate]
    exact h.up
  case hqueue => exact h.push_user x.trace
  case hevent => exact fun hcloses => absurd hcloses hrest
  case honce => exact honce
  case hinOrder =>
    show InOrder _ x.val.state
    rw [hstate]
    exact hmessages
  case hsound =>
    rw [Session.sound_append]
    exact ⟨h.sound, hsound⟩

/-- A write event, on a connection that is open or not. -/
theorem Living.write (h : Living es s) {rest : List ChannelCallback}
    (hhandling : s.session.handling = .writeCallback :: rest) (r : WriteResult)
    (hsettled : Settled
      (es ++ ({ s.session with handling := rest }.perform (s.session.conn.handleWrite r)).trace)
      ({ s.session with handling := rest }.perform (s.session.conn.handleWrite r)).val)
    (inCallback : Bool) :
    Living (es ++
      ({ s.session with handling := rest }.perform (s.session.conn.handleWrite r)).trace)
      ⟨({ s.session with handling := rest }.perform (s.session.conn.handleWrite r)).val,
        inCallback⟩ := by
  obtain rfl : rest = [] := (hhandling ▸ h.once).write
  have hsilent := TcpConnection.handleWrite_silent h.settled.books r
  have hstate := TcpConnection.handleWrite_state s.session.conn r
  -- A closed channel has no interest, and nothing is written.
  have hchannel (hclosed : s.session.conn.state = .kDisconnected) :
      (s.session.conn.handleWrite r).val.channel = s.session.conn.channel := by
    have hidle := Channel.not_isWriting_of_isNoneEvent (h.settled.closed hclosed)
    obtain ⟨outputBuffer, front, -, heq | ⟨hwriting, -⟩⟩ :=
      TcpConnection.handleWrite_cases s.session.conn r
    · rw [heq]
    · exact absurd hwriting hidle
  have hqueued : (Session.queuedBy (s.session.conn.handleWrite r).trace).count
      .connectionDestroyed = 0 := by
    apply List.count_eq_zero_of_not_mem
    intro hmem
    obtain ⟨u, hu⟩ := Session.user_of_mem_queuedBy hmem
    simp at hu
  have hquiet : (s.session.conn.handleWrite r).trace.count .closeCallback = 0 :=
    List.count_eq_zero_of_not_mem fun hmem => hsilent _ hmem
  constructor
  case settled => exact hsettled
  case mask => exact TcpConnection.handleWrite_mask h.mask r
  case up =>
    show (s.session.conn.handleWrite r).val.state ≠ .kConnecting
    rw [hstate]
    exact h.up
  case queue => exact h.push_user _
  case closed =>
    intro hclosed
    have hclosed : s.session.conn.state = .kDisconnected := hstate ▸ hclosed
    show (s.session.conn.handleWrite r).val.channel.index ≠ kAdded
    rw [hchannel hclosed]
    exact h.closed hclosed
  case destroys =>
    intro hclosed
    have hclosed : s.session.conn.state = .kDisconnected := hstate ▸ hclosed
    show s.session.closing + (s.session.conn.handleWrite r).trace.count .closeCallback +
      (s.session.queue.push (Session.queuedBy (s.session.conn.handleWrite r).trace)).queued.count
        .connectionDestroyed +
      (if (s.session.conn.handleWrite r).val.channel.index = kNew then 1 else 0) = 1
    rw [hchannel hclosed, BatchQueue.queued_push, List.count_append, hqueued, hquiet]
    exact h.destroys hclosed
  case event =>
    rintro (hmem | hmem)
    · simp at hmem
    · simp at hmem
  case once => exact (hhandling ▸ h.once).tail
  case inOrder =>
    show InOrder _ (s.session.conn.handleWrite r).val.state
    rw [hstate]
    exact h.inOrder.silent (Session.silent_callbacks hsilent) Iff.rfl
  case sound =>
    rw [Session.sound_append]
    exact ⟨h.sound, Session.silent_sound hsilent⟩

/-- The next callback of the event being handled. -/
theorem Living.handle (h : Living es s) {cb : ChannelCallback} {rest : List ChannelCallback}
    (hhandling : s.session.handling = cb :: rest) (read : Option Bytes) (consumed : Nat)
    (r : WriteResult)
    (hsettled : Settled
      (es ++ ({ s.session with handling := rest }.handle cb read consumed r).trace)
      ({ s.session with handling := rest }.handle cb read consumed r).val) :
    Living (es ++ ({ s.session with handling := rest }.handle cb read consumed r).trace)
      ⟨({ s.session with handling := rest }.handle cb read consumed r).val,
        .conn .messageCallback ∈
          ({ s.session with handling := rest }.handle cb read consumed r).trace⟩ := by
  have honce : OneClose (cb :: rest) := hhandling ▸ h.once
  cases cb with
  | closeCallback =>
      have hcloses : Closes s.session.handling := by
        rw [hhandling]
        exact Or.inl List.mem_cons_self
      obtain ⟨-, hopen, hadded⟩ := h.event hcloses
      exact h.close (honce.rest (Or.inl rfl)) honce.tail hopen hadded s.session.conn.inputBuffer
        TcpConnection.silent_nil rfl hsettled _
  | errorCallback =>
      have hcloses (hrest : Closes rest) : Closes s.session.handling := by
        rw [hhandling]
        exact hrest.imp (List.mem_cons_of_mem _) (List.mem_cons_of_mem _)
      have hpop : Living es ⟨{ s.session with handling := rest }, false⟩ :=
        ⟨by simpa [Session.handle] using hsettled, h.mask, h.up, h.queue, h.closed, h.destroys,
          fun hrest => ⟨rfl, (h.event (hcloses hrest)).2⟩, honce.tail, h.inOrder, h.sound⟩
      simpa [Session.handle] using hpop
  | readCallback =>
      have hcloses : Closes s.session.handling := by
        rw [hhandling]
        exact Or.inr List.mem_cons_self
      obtain ⟨-, hopen, hadded⟩ := h.event hcloses
      have hrest := honce.rest (Or.inr rfl)
      obtain ⟨inputBuffer, front, back, hfront, hback, heq⟩ | ⟨inputBuffer, front, hfront, heq⟩ |
        ⟨inputBuffer, front, hfront, heq⟩ :=
        TcpConnection.handleRead_cases s.session.conn read consumed
      · refine h.read hrest honce.tail hopen (by rw [heq]) ?_ ?_ hsettled _
        · refine h.inOrder.message ?_ hopen
          rw [heq]
          simp [Session.silent_callbacks hfront, Session.silent_callbacks hback]
        · rw [heq]
          simp [Session.silent_sound hfront, Session.silent_sound hback]
      · exact h.close hrest honce.tail hopen hadded inputBuffer hfront heq hsettled _
      · refine h.read hrest honce.tail hopen (by rw [heq]) ?_ ?_ hsettled _
        · rw [heq]
          exact h.inOrder.silent (Session.silent_callbacks hfront) Iff.rfl
        · rw [heq]
          exact Session.silent_sound hfront
  | writeCallback => exact h.write hhandling r hsettled _

/-- Delivering an event. -/
theorem Living.poll (h : Living es s) {revents : EventMask}
    (hdeliverable : Deliverable s.session.conn.channel revents)
    (hset : s.session.conn.poller.epollSet s.session.conn.channel.fd ≠ none)
    (hsettled : Settled es { s.session with
      conn := { s.session.conn with channel := { s.session.conn.channel with revents } }
      handling := { s.session.conn.channel with revents }.handleEvent }) :
    Living es
      ⟨{ s.session with
          conn := { s.session.conn with channel := { s.session.conn.channel with revents } }
          handling := { s.session.conn.channel with revents }.handleEvent }, false⟩ := by
  have hadded : s.session.conn.channel.index = kAdded := by
    cases h.settled.books with
    | new _ _ hnone => exact absurd hnone hset
    | added hindex _ _ => exact hindex
    | deleted _ _ hnone => exact absurd hnone hset
  exact .of_open hsettled (fun hclosed => h.closed hclosed hadded) h.mask h.up h.queue
    (fun _ => ⟨rfl, hadded⟩) (oneClose_handleEvent h.mask hdeliverable) h.inOrder h.sound

/-- A step that changes the queue only, or the owner's answer to `closeCallback_`. -/
theorem Living.requeue (h : Living es s) {session : Session} {inCallback : Bool}
    (hsettled : Settled es session) (hconn : session.conn = s.session.conn)
    (hhandling : ¬Closes session.handling ∧ OneClose session.handling)
    (hqueue : ∀ f ∈ session.queue.queued, f = .connectionDestroyed ∨ ∃ u, f = .user u)
    (hcount : session.closing + session.queue.queued.count .connectionDestroyed =
      s.session.closing + s.session.queue.queued.count .connectionDestroyed) :
    Living es ⟨session, inCallback⟩ := by
  constructor
  case settled => exact hsettled
  case mask =>
    rw [hconn]
    exact h.mask
  case up =>
    rw [hconn]
    exact h.up
  case queue => exact hqueue
  case closed =>
    rw [hconn]
    exact h.closed
  case destroys =>
    rw [hconn, hcount]
    exact h.destroys
  case event => exact fun hcloses => absurd hcloses hhandling.1
  case once => exact hhandling.2
  case inOrder =>
    rw [hconn]
    exact h.inOrder
  case sound => exact h.sound

/-- `connectionDestroyed` finds the connection closed and removes its channel. -/
theorem Living.destroyed (h : Living es s) {rest : List Functor}
    (hbatch : s.session.queue.batch = some (.connectionDestroyed :: rest)) (r : WriteResult)
    (hsettled : Settled
      (es ++ ({ s.session with queue := s.session.queue.proceed rest }.invoke
        .connectionDestroyed r).trace)
      ({ s.session with queue := s.session.queue.proceed rest }.invoke .connectionDestroyed r).val) :
    Living
      (es ++ ({ s.session with queue := s.session.queue.proceed rest }.invoke
        .connectionDestroyed r).trace)
      ⟨({ s.session with queue := s.session.queue.proceed rest }.invoke
        .connectionDestroyed r).val, false⟩ := by
  have hqueued := BatchQueue.queued_proceed hbatch
  have hclosed : s.session.conn.state = .kDisconnected := by
    by_contra hopen
    apply (h.settled.opened hopen).2.2
    rw [hqueued]
    exact List.mem_cons_self
  have hhandling : s.session.handling = [] := by simpa [hbatch] using h.settled.turn
  have hdestroys := h.destroys hclosed
  rw [hqueued, List.count_cons_self] at hdestroys
  have hindex : s.session.conn.channel.index ≠ kNew := by
    intro hnew
    rw [if_pos hnew] at hdestroys
    omega
  rw [if_neg hindex] at hdestroys
  have hremove : s.session.conn.connectionDestroyed = s.session.conn.removeChannel := by
    simp [TcpConnection.connectionDestroyed, hclosed]
  have htrace := EPoller.removeChannel_trace h.settled.books hindex (h.settled.closed hclosed)
  obtain ⟨-, hchannel⟩ := EPoller.removeChannel_tracks h.settled.books
  have hinvoke : { s.session with queue := s.session.queue.proceed rest }.invoke
      .connectionDestroyed r =
      ⟨{ s.session with
          queue := s.session.queue.proceed rest
          conn := (s.session.conn.removeChannel).val }, [.removed]⟩ := by
    simp [Session.invoke, Session.perform, hremove, TcpConnection.removeChannel, htrace, bind, pure,
      Traced.lift, Traced.emit, Session.queuedBy]
  have hval : (s.session.conn.removeChannel).val.channel =
      { s.session.conn.channel with index := kNew } := hchannel
  rw [hinvoke] at hsettled ⊢
  constructor
  case settled => exact hsettled
  case mask =>
    show Mask (s.session.conn.removeChannel).val.channel.events
    rw [hval]
    exact h.mask
  case up => exact h.up
  case queue => exact fun f hf => h.queue f (by rw [hqueued]; exact List.mem_cons_of_mem _ hf)
  case closed =>
    intro _
    show (s.session.conn.removeChannel).val.channel.index ≠ kAdded
    rw [hval]
    exact show kNew ≠ kAdded by decide
  case destroys =>
    intro _
    show s.session.closing + (s.session.queue.proceed rest).queued.count .connectionDestroyed +
      (if (s.session.conn.removeChannel).val.channel.index = kNew then 1 else 0) = 1
    rw [hval, if_pos rfl]
    omega
  case event =>
    intro hcloses
    simp [Closes, hhandling] at hcloses
  case once => exact h.once
  case inOrder => exact h.inOrder.silent rfl Iff.rfl
  case sound =>
    rw [Session.sound_append]
    exact ⟨h.sound, by simp [Sound]⟩

/-- What each step does, in terms of the session. -/
theorem step_cases (h : Step s l es' t) :
    Session.Step s.session l es' t.session ∧ t.inCallback = s.inCallbackAfter l es' := by
  obtain ⟨x, hx, heq⟩ := Option.map_eq_some_iff.mp h
  obtain ⟨rfl, rfl⟩ := Traced.mk.inj heq
  exact ⟨hx, rfl⟩

theorem Living.step (h : Living es s) (hpermitted : s.Permitted l) (hstep : Step s l es' t) :
    Living (es ++ es') t := by
  obtain ⟨hsession, hcallback⟩ := step_cases hstep
  have hsettled := h.settled.step (h.calm hpermitted) hsession
  obtain ⟨session, inCallback⟩ := t
  simp only at hsession hcallback hsettled
  have hcases := Session.step_cases hsession
  cases l with
  | call th c r =>
      obtain ⟨rfl, rfl⟩ := Traced.mk.inj hcases
      obtain ⟨rfl, hin, hopen⟩ := hpermitted
      rw [hcallback]
      exact h.call hin hopen hsettled
  | poll revents =>
      obtain ⟨-, -, hset, rfl, rfl⟩ := hcases
      rw [List.append_nil] at hsettled ⊢
      rw [hcallback]
      exact h.poll hpermitted hset hsettled
  | callback read consumed r =>
      obtain ⟨cb, rest, hhandling, heq⟩ := hcases
      obtain ⟨rfl, rfl⟩ := Traced.mk.inj heq
      rw [hcallback]
      exact h.handle hhandling read consumed r hsettled
  | swap =>
      obtain ⟨hhandling, hbatch, rfl, rfl⟩ := hcases
      have hqueued := BatchQueue.queued_swap hbatch
      rw [List.append_nil] at hsettled ⊢
      exact h.requeue hsettled rfl ⟨by simp [Closes, hhandling], h.once⟩ (hqueued ▸ h.queue)
        (by rw [hqueued])
  | runFunctor r =>
      obtain ⟨f, rest, hbatch, heq⟩ := hcases
      obtain ⟨rfl, rfl⟩ := Traced.mk.inj heq
      have hqueued := BatchQueue.queued_proceed hbatch
      have hhandling : s.session.handling = [] := by simpa [hbatch] using h.settled.turn
      obtain rfl | ⟨u, rfl⟩ := h.queue f (by rw [hqueued]; exact List.mem_cons_self)
      · obtain rfl : inCallback = false := by simpa [inCallbackAfter, hbatch] using hcallback
        exact h.destroyed hbatch r hsettled
      · simp only [Traced.pure_trace, Traced.pure_val, List.append_nil] at hsettled ⊢
        refine h.requeue hsettled rfl ⟨by simp [Closes, hhandling], h.once⟩
          (fun f hf => h.queue f (by rw [hqueued]; exact List.mem_cons_of_mem _ hf)) ?_
        rw [hqueued, List.count_cons_of_ne (by simp)]
  | finish =>
      obtain ⟨hbatch, rfl, rfl⟩ := hcases
      have hqueued := BatchQueue.queued_finish hbatch
      have hhandling : s.session.handling = [] := by simpa [hbatch] using h.settled.turn
      rw [List.append_nil] at hsettled ⊢
      exact h.requeue hsettled rfl ⟨by simp [Closes, hhandling], h.once⟩ (hqueued ▸ h.queue)
        (by rw [hqueued])
  | queueDestroyed =>
      obtain ⟨hclosing, rfl, rfl⟩ := hcases
      rw [List.append_nil] at hsettled ⊢
      have hidle : ¬Closes s.session.handling := fun hcloses => by
        have hopen := (h.event hcloses).2.1
        rw [(h.settled.opened hopen).2.1] at hclosing
        exact absurd hclosing (by decide)
      refine h.requeue hsettled rfl ⟨hidle, h.once⟩ ?_ ?_
      · intro f hf
        rw [BatchQueue.queued_push] at hf
        rcases List.mem_append.mp hf with hf | hf
        · exact h.queue f hf
        · exact Or.inl (List.mem_singleton.mp hf)
      · rw [BatchQueue.queued_push, List.count_append]
        show s.session.closing - 1 + (_ + 1) = _
        omega

/-! ## Whole runs -/

theorem established_eq (k : Session.Config) :
    established k = [.conn (.connectionCallback true)] := by
  have hupdate : (TcpConnection.updateChannel { k.connection with state := .kConnected }
      k.connection.channel.enableReading).trace = [] :=
    TcpConnection.updateChannel_trace (c := { k.connection with state := .kConnected })
      (EPoller.tracks_create k.ptr k.fd) _
  have hcheck : k.connection.state = .kConnecting := rfl
  simp [established, TcpConnection.connectionEstablished, Traced.check_of hcheck, hupdate,
    TcpConnection.connected]

theorem Living.start (k : Session.Config) : Living (established k) (start k) := by
  have hevents : (Session.start k).conn.channel.events = kReadEvent := by
    simp [Session.start, TcpConnection.connectionEstablished, TcpConnection.updateChannel,
      Session.Config.connection, TcpConnection.create, Channel.create, Channel.enableReading]
  have hstate : (Session.start k).conn.state = .kConnected := by
    simp [Session.start, TcpConnection.connectionEstablished]
  rw [established_eq]
  apply Living.of_open
  case hsettled => exact (Settled.start k).event (by simp) (by simp)
  case hopen => simp [CallbackSession.start, hstate]
  case hmask =>
    show Mask (Session.start k).conn.channel.events
    rw [hevents]
    exact .read
  case hup => simp [CallbackSession.start, hstate]
  case hqueue => simp [CallbackSession.start, Session.start]
  case hevent => simp [CallbackSession.start, Session.start, Closes]
  case honce => exact ⟨List.nodup_nil, by simp [CallbackSession.start, Session.start], by
    simp [CallbackSession.start, Session.start]⟩
  case hinOrder => exact ⟨0, by simp [CallbackSession.start, hstate, callbacks]⟩
  case hsound => simp [Sound]

theorem living_of_run {k : Session.Config} {ls : List Label}
    (h : Run (restrict Permitted Step) (start k) ls es s) : Living (established k ++ es) s :=
  h.history (established k) (Living.start k)
    (fun _ _ _ _ _ hliving ⟨hpermitted, hstep⟩ => hliving.step hpermitted hstep)

/-- The state moves forward along every run. -/
theorem rank_le_of_run {ls : List Label} (h : Run (restrict Permitted Step) s ls es t) :
    s.session.conn.state.rank ≤ t.session.conn.state.rank :=
  h.invariant (I := fun u => s.session.conn.state.rank ≤ u.session.conn.state.rank)
    (Nat.le_refl _) (fun _ _ _ _ hle ⟨_, hstep⟩ =>
      Nat.le_trans hle (Session.step_rank (step_cases hstep).1))

/-- **The callbacks come in order**: from `connectionEstablished` on, in every run on one
thread in which the callbacks of the connection make the calls, the connection is reported
up once, then messages arrive, and exactly if it has become disconnected it is reported down,
once and directly before the one run of `closeCallback_`.  Its state moves forward only, and
no assertion of the life cycle or the poller fails. -/
theorem callbacks_in_order {k : Session.Config} {ls : List Label}
    (h : Run (restrict Permitted Step) (start k) ls es s) :
    (∃ messages, callbacks (established k ++ es) =
      .connectionCallback true :: List.replicate messages .messageCallback ++
        if s.session.conn.state = .kDisconnected then [.connectionCallback false, .closeCallback]
        else []) ∧
    Sound (established k ++ es) ∧
    k.connection.state = .kConnecting ∧ (start k).session.conn.state = .kConnected ∧
    (start k).session.conn.state.rank ≤ s.session.conn.state.rank ∧
    ∀ ls' es' t, Run (restrict Permitted Step) s ls' es' t →
      s.session.conn.state.rank ≤ t.session.conn.state.rank := by
  have hliving := living_of_run h
  have hstate : (start k).session.conn.state = .kConnected := by
    simp [start, Session.start, TcpConnection.connectionEstablished]
  exact ⟨hliving.inOrder, hliving.sound, rfl, hstate, rank_le_of_run h,
    fun ls' es' t hrun => rank_le_of_run hrun⟩

/-- The connection stops reading in its first callback and starts again in a functor; a
message arrives, the answer is cut short by a hangup, and the owner removes the connection. -/
def answered : List Label :=
  [.call .loop .stopRead (.count 0), .call .loop (.send [1]) (.count 1), .swap,
    .runFunctor (.count 0), .call .loop .startRead (.count 0), .finish,
    .poll POLLIN, .callback (some [2, 3]) 2 (.count 0), .call .loop (.send [4, 5]) (.count 1),
    .call .loop .shutdown (.count 0), .swap, .finish, .poll (POLLIN ||| POLLOUT ||| POLLHUP),
    .callback (some []) 0 (.count 0), .callback none 0 (.count 0), .queueDestroyed, .swap,
    .runFunctor (.count 0), .finish]

theorem callbacks_in_order_answered :
    ∃ es s, Run (restrict Permitted Step) (start ⟨1, 7, 64, true, false⟩) answered es s ∧
      .removed ∈ es ∧ s.session.conn.state = .kDisconnected ∧
      (∃ messages, callbacks (established ⟨1, 7, 64, true, false⟩ ++ es) =
        .connectionCallback true :: List.replicate messages .messageCallback ++
          if s.session.conn.state = .kDisconnected then [.connectionCallback false, .closeCallback]
          else []) ∧
      Sound (established ⟨1, 7, 64, true, false⟩ ++ es) := by
  obtain ⟨es, s, hrun, hremoved, hstate⟩ : ∃ es s,
      Run (restrict Permitted Step) (start ⟨1, 7, 64, true, false⟩) answered es s ∧
        .removed ∈ es ∧ s.session.conn.state = .kDisconnected :=
    Run.exists_of_exec_guarded _ (by decide +kernel)
  obtain ⟨hcallbacks, hsound, -⟩ := callbacks_in_order hrun
  exact ⟨es, s, hrun, hremoved, hstate, hcallbacks, hsound⟩

end CallbackSession
end Chaonet
