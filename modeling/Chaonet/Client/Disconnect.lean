import Chaonet.Client.TcpClient

/-!
# Disconnecting

`disconnect()` clears the `connect_` of the client and shuts down the connection it has, but
leaves the connector alone, which has a `connect_` of its own: an attempt that is being made,
or a retry timer that waits, still leads to a connection that is reported up.  Where neither
is there at `disconnect()`, or the connector has been stopped, no connection comes up until
`connect()` is called again (`disconnect_effective`).  Both are called on the loop thread: a
`connect()` of another thread leaves a `startInLoop` in the queue, which `disconnect()` does not
stop either.
-/

namespace Chaonet

open Foundation

namespace TcpConnection

/-! ## Members that report no connection up -/

/-- No connection is reported up. -/
def NoUp (es : List Event) : Prop := .connectionCallback true ∉ es

@[simp] theorem noUp_nil : NoUp [] := by simp [NoUp]

@[simp] theorem noUp_append {es es' : List Event} : NoUp (es ++ es') ↔ NoUp es ∧ NoUp es' := by
  simp [NoUp]

@[simp] theorem noUp_map_poller (es : List EPoller.Event) : NoUp (es.map .poller) := by
  simp [NoUp]

@[simp] theorem noUp_map_buffer (es : List Buffer.Assertion) : NoUp (es.map .buffer) := by
  simp [NoUp]

@[simp] theorem noUp_check (a : Assertion) (p : Prop) [Decidable p] :
    NoUp (Traced.check (Event.failed a) p).trace := by
  by_cases h : p <;> simp [Traced.check_trace, h, NoUp]

@[simp] theorem noUp_ite_queued (p : Prop) [Decidable p] (f : UserFunctor) :
    NoUp (if p then [.queued f] else []) := by
  by_cases h : p <;> simp [h, NoUp]

@[simp] theorem noUp_write (r : WriteResult) (data : Bytes) : NoUp (write r data).trace := by
  cases r <;> simp [write, NoUp]

theorem Silent.noUp {es : List Event} (h : Silent es) : NoUp es := fun hmem => h _ hmem

theorem sendInLoop_noUp (c : TcpConnection) (message : Bytes) (r : WriteResult) :
    NoUp (c.sendInLoop message r).trace := by
  have hdirect : NoUp (c.sendDirectly message r).trace := by
    unfold sendDirectly
    split_ifs with hidle
    · by_cases hval : 0 ≤ (write r message).val <;> simp [hval]
    · simp
  by_cases hrest : (c.sendDirectly message r).val.toNat < message.length
  · by_cases hwriting : c.channel.isWriting <;>
      simp [sendInLoop, sendLater, hdirect, hrest, hwriting, updateChannel]
  · simp [sendInLoop, hdirect, hrest]

theorem send_noUp (c : TcpConnection) (message : Bytes) (r : WriteResult) :
    NoUp (c.send message r).trace := by
  unfold send
  split_ifs
  · exact sendInLoop_noUp c message r
  · simp

theorem shutdown_noUp (c : TcpConnection) : NoUp c.shutdown.trace := by
  unfold shutdown
  split_ifs
  · simpa using (shutdownInLoop_silent { c with state := .kDisconnecting }).noUp
  · simp

theorem handleClose_noUp (c : TcpConnection) : NoUp c.handleClose.trace := by
  simp [handleClose, updateChannel, connected, NoUp, Traced.mem_check_trace]

theorem handleWrite_noUp (c : TcpConnection) (r : WriteResult) : NoUp (c.handleWrite r).trace := by
  obtain ⟨outputBuffer, front, hfront, heq | ⟨-, -, -, -, heq⟩⟩ := handleWrite_cases c r
  · rw [heq]
    exact hfront.silent.noUp
  · rw [heq]
    have hshutdown (p : Prop) [Decidable p] (c' : TcpConnection) :
        NoUp (Traced.when p c'.shutdownInLoop).trace := by
      rw [Traced.when_trace]
      split_ifs
      · exact (shutdownInLoop_silent c').noUp
      · exact noUp_nil
    simp only [handleDrained, Traced.bind_trace, Traced.pure_trace, noUp_append]
    exact ⟨hfront.silent.noUp, by simp [updateChannel], by simp, hshutdown _ _, noUp_nil⟩

theorem handleRead_noUp (c : TcpConnection) (r : Option Bytes) (consumed : Nat) :
    NoUp (c.handleRead r consumed).trace := by
  rcases handleRead_cases c r consumed with
    ⟨inputBuffer, front, back, hfront, hback, heq⟩ | ⟨inputBuffer, front, hfront, heq⟩ |
      ⟨inputBuffer, front, hfront, heq⟩
  · rw [heq, noUp_append]
    refine ⟨hfront.noUp, fun hmem => hback.noUp ?_⟩
    simpa using hmem
  · rw [heq, noUp_append]
    exact ⟨hfront.noUp, handleClose_noUp _⟩
  · rw [heq]
    exact hfront.noUp

theorem handle_noUp (c : TcpConnection) (input : Input) (cb : ChannelCallback) :
    NoUp (c.handle input cb).trace := by
  cases cb with
  | closeCallback => exact handleClose_noUp c
  | errorCallback => exact noUp_nil
  | readCallback => exact handleRead_noUp c input.read input.consumed
  | writeCallback => exact handleWrite_noUp c input.write

theorem connectionDestroyed_noUp (c : TcpConnection) : NoUp c.connectionDestroyed.trace := by
  unfold connectionDestroyed
  split_ifs <;> simp [removeChannel, updateChannel, connected, NoUp]

end TcpConnection

namespace Connector

/-! ## Connectors that hand over no connection -/

/-- No socket is handed to `newConnectionCallback_`. -/
def NoNew (es : List Event) : Prop := ∀ sockfd, .newConnectionCallback sockfd ∉ es

@[simp] theorem noNew_nil : NoNew [] := by simp [NoNew]

@[simp] theorem noNew_append {es es' : List Event} :
    NoNew (es ++ es') ↔ NoNew es ∧ NoNew es' := by
  simp only [NoNew, List.mem_append, not_or, forall_and]

theorem removeAndResetChannel_noNew (c : Connector) :
    NoNew c.removeAndResetChannel.trace ∧ c.removeAndResetChannel.val.1.connect_ = c.connect_ := by
  unfold removeAndResetChannel
  split <;> simp [NoNew]

@[simp] theorem noNew_close (sockfd : Int) : NoNew [.close sockfd] := by simp [NoNew]

/-- With `connect_` cleared, an event hands nothing over. -/
theorem handleWrite_noNew {c : Connector} (h : c.connect_ = false) (status : SocketStatus) :
    NoNew (c.handleWrite status).trace ∧ (c.handleWrite status).val.connect_ = false := by
  obtain ⟨hremove, hconnect⟩ := removeAndResetChannel_noNew c
  rw [h] at hconnect
  have hretry : NoNew (c.removeAndResetChannel >>= fun r => r.1.retry r.2).trace ∧
      (c.removeAndResetChannel >>= fun r => r.1.retry r.2).val.connect_ = false := by
    simp [hremove, hconnect]
  unfold handleWrite
  split_ifs with hstate herr hself
  · exact hretry
  · exact hretry
  · simp [hconnect, hremove]
  · refine ⟨?_, h⟩
    simp [NoNew, Traced.mem_check_trace]

theorem handleError_noNew {c : Connector} (h : c.connect_ = false) :
    NoNew c.handleError.trace ∧ c.handleError.val.connect_ = false := by
  obtain ⟨hremove, hconnect⟩ := removeAndResetChannel_noNew c
  rw [h] at hconnect
  refine ⟨?_, by simpa [handleError] using hconnect⟩
  have hcheck : NoNew (Traced.check (Event.failed .handleErrorConnecting)
      (c.state = .kConnecting)).trace := by
    simp [NoNew, Traced.mem_check_trace]
  simp [handleError, hremove, hcheck]

/-- The connector does not connect by itself: it is stopped, or nothing is under way. -/
def AtRest (c : Connector) : Prop :=
  c.connect_ = false ∨ c.state ≠ .kConnecting ∧ c.timers.waiting = []

instance (c : Connector) : Decidable c.AtRest := inferInstanceAs (Decidable (_ ∨ _))

theorem handleEvent_noNew {c : Connector} (h : c.connect_ = false) (status : SocketStatus) :
    NoNew (c.handleEvent status).trace ∧ (c.handleEvent status).val.connect_ = false := by
  cases hchannel : c.channel with
  | none => simp [handleEvent, hchannel, NoNew, h]
  | some channel =>
      rcases handleEvent_cases hchannel status with ⟨heq, -⟩ | heq | heq | heq
      · rw [heq]
        exact ⟨noNew_nil, h⟩
      · rw [heq]
        exact handleError_noNew h
      · rw [heq]
        exact handleWrite_noNew h status
      · obtain ⟨herror, hconnect⟩ := handleError_noNew h
        obtain ⟨hwrite, hconnect'⟩ := handleWrite_noNew hconnect status
        rw [heq]
        exact ⟨noNew_append.mpr ⟨herror, hwrite⟩, hconnect'⟩

/-- An event that finds nothing under way changes nothing, unless an assertion fails first. -/
theorem handleEvent_atRest {c : Connector} (hstate : c.state ≠ .kConnecting)
    (status : SocketStatus) :
    ((c.handleEvent status).val = c ∧ NoNew (c.handleEvent status).trace) ∨
      ∃ a es, (c.handleEvent status).trace = .failed a :: es := by
  have hfails : ∃ es, c.handleError.trace = .failed .handleErrorConnecting :: es :=
    ⟨_, by simp only [handleError, Traced.bind_trace, Traced.check_trace, if_neg hstate]; rfl⟩
  cases hchannel : c.channel with
  | none => exact Or.inl (by simp [handleEvent, hchannel, NoNew])
  | some channel =>
      rcases handleEvent_cases hchannel status with ⟨heq, -⟩ | heq | heq | heq
      · exact Or.inl (by simp [heq])
      · rw [heq]
        exact Or.inr ⟨_, hfails⟩
      · rw [heq]
        refine Or.inl ?_
        simp [handleWrite, hstate, NoNew, Traced.mem_check_trace]
      · obtain ⟨es, hes⟩ := hfails
        rw [heq]
        exact Or.inr ⟨_, _, by rw [Traced.bind_trace, hes, List.cons_append]⟩

end Connector

namespace ClientLoop

/-! ## After a disconnect -/

/-- The state `disconnect()` leaves a client in, when nothing is under way. -/
structure Quiet (s : ClientLoop) : Prop where
  client : s.client.connect_ = false
  connector : s.connector.AtRest

/-- No connection is reported up. -/
def NoUp (es : List Event) : Prop := ∀ i, .conn i (.connectionCallback true) ∉ es

@[simp] theorem noUp_nil : NoUp [] := by simp [NoUp]

@[simp] theorem noUp_append {es es' : List Event} : NoUp (es ++ es') ↔ NoUp es ∧ NoUp es' := by
  simp only [NoUp, List.mem_append, not_or, forall_and]

@[simp] theorem noUp_map_connector (es : List Connector.Event) :
    NoUp (es.map .connector) := by
  simp [NoUp]

theorem noUp_map_conn {i : Nat} {es : List TcpConnection.Event} (h : TcpConnection.NoUp es) :
    NoUp (es.map (.conn i)) := by
  intro j hmem
  obtain ⟨e, he, heq⟩ := List.mem_map.mp hmem
  obtain ⟨rfl, rfl⟩ := Event.conn.inj heq
  exact h he

/-- A step leaves the client quiet and reports no connection up, or starts with an assertion
that fails. -/
def Settles (x : Traced Event ClientLoop) : Prop :=
  Quiet x.val ∧ NoUp x.trace ∨ ∃ a, x.trace.head? = some (.connector (.failed a))

variable {s t : ClientLoop}

theorem settles_callConn (h : Quiet s) (i : Nat)
    {member : TcpConnection → Traced TcpConnection.Event TcpConnection}
    (hmember : ∀ c, TcpConnection.NoUp (member c).trace) : Settles (s.callConn i member) := by
  unfold callConn
  split
  · exact Or.inl ⟨h, noUp_nil⟩
  · exact Or.inl ⟨⟨h.client, h.connector⟩, noUp_map_conn (hmember _)⟩

/-- A member of the connector that leaves it at rest. -/
theorem settles_performConnector (h : Quiet s) {x : Traced Connector.Event Connector}
    (hrest : x.val.AtRest) : Settles (s.performConnector x) :=
  Or.inl ⟨⟨h.client, hrest⟩, noUp_map_connector _⟩

theorem handedOver_of_noNew {es : List Connector.Event} (h : Connector.NoNew es) :
    handedOver es = none := by
  refine List.findSome?_eq_none_iff.mpr fun e he => ?_
  cases e with
  | newConnectionCallback sockfd => exact absurd he (h sockfd)
  | _ => rfl

theorem settles_handleConnector (h : Quiet s) (status : SocketStatus) (ptr : ChannelPtr) :
    Settles (s.handleConnector status ptr) := by
  -- What hands nothing over is all there is to it.
  have hplain (hnone : Connector.NoNew (s.connector.handleEvent status).trace) :
      s.handleConnector status ptr = s.performConnector (s.connector.handleEvent status) := by
    simp [handleConnector, handedOver_of_noNew hnone]
  rcases h.connector with hstopped | ⟨hstate, hwaiting⟩
  · obtain ⟨hnone, hconnect⟩ := Connector.handleEvent_noNew hstopped status
    rw [hplain hnone]
    exact settles_performConnector h (Or.inl hconnect)
  · rcases Connector.handleEvent_atRest hstate status with ⟨hsame, hnone⟩ | ⟨a, es, hfails⟩
    · rw [hplain hnone]
      exact settles_performConnector h (Or.inr (by rw [hsame]; exact ⟨hstate, hwaiting⟩))
    · refine Or.inr ⟨a, ?_⟩
      simp [handleConnector, performConnector, hfails]

/-- A client that is quiet is not restarted when a connection goes down. -/
theorem settles_removeConnection (h : Quiet s) (i : Nat) (a : Attempt) :
    Settles (s.removeConnection i a) := by
  have hno : ¬(s.client.retry_ = true ∧ s.client.connect_ = true) := by simp [h.client]
  refine Or.inl ⟨?_, ?_⟩
  · simp only [removeConnection, Traced.bind_val, if_neg hno]
    exact ⟨h.client, h.connector⟩
  · simp [removeConnection, hno, NoUp, Traced.mem_check_trace]

/-- Everything but a call of `connect()`. -/
def NoConnect (_ : ClientLoop) : Label → Prop
  | .call (.connect _) => False
  | _ => True

instance (s : ClientLoop) : ∀ l, Decidable (NoConnect s l)
  | .call (.connect _) => .isFalse id
  | .call .disconnect | .call .stop | .call .enableRetry | .call (.send _ _ _)
  | .call (.shutdown _) | .tick _ | .activate _ _ | .wake | .handleEvent _ _ | .callback _
  | .closeCallback _ | .expire | .runTimer _ _ | .swap | .runFunctor | .finish => .isTrue trivial

theorem settles_call (h : Quiet s) {c : Call} (hc : NoConnect s (.call c)) :
    Settles (s.call c) := by
  cases c with
  | connect a => exact absurd hc id
  | disconnect =>
      have hquiet : Quiet { s with client := { s.client with connect_ := false } } :=
        ⟨rfl, h.connector⟩
      simp only [call, disconnect]
      split
      · exact Or.inl ⟨hquiet, noUp_nil⟩
      · exact settles_callConn hquiet _ TcpConnection.shutdown_noUp
  | stop => exact Or.inl ⟨⟨rfl, Or.inl rfl⟩, noUp_nil⟩
  | enableRetry => exact Or.inl ⟨⟨h.client, h.connector⟩, noUp_nil⟩
  | send i message r => exact settles_callConn h i fun c => TcpConnection.send_noUp c message r
  | shutdown i => exact settles_callConn h i TcpConnection.shutdown_noUp

/-- Timers that run or expire do not wake a connector at rest. -/
theorem atRest_timers {c : Connector} (h : c.AtRest) {timers : OneShots ClientTimer}
    (hsubset : ∀ t ∈ timers.waiting, t ∈ c.timers.waiting) :
    Connector.AtRest { c with timers } := by
  rcases h with hstopped | ⟨hstate, hwaiting⟩
  · exact Or.inl hstopped
  · refine Or.inr ⟨hstate, List.eq_nil_iff_forall_not_mem.mpr fun t ht => ?_⟩
    simpa [hwaiting] using hsubset t ht

theorem settles_advance (h : Quiet s) {l : Label} (hl : NoConnect s l)
    {x : Traced Event ClientLoop} (hx : s.advance l = some x) : Settles x := by
  have hcases := advance_cases hx
  cases l with
  | call c =>
      rw [show x = s.call c from hcases]
      exact settles_call h hl
  | tick micros =>
      rw [show x = pure _ from hcases]
      exact Or.inl ⟨⟨h.client, atRest_timers h.connector fun t ht => ht⟩, noUp_nil⟩
  | activate o revents =>
      cases o with
      | connector =>
          obtain ⟨channel, iteration, -, -, -, rfl⟩ := hcases
          exact Or.inl ⟨⟨h.client, h.connector⟩, noUp_nil⟩
      | connection i =>
          obtain ⟨c, iteration, -, -, -, -, -, rfl⟩ := hcases
          exact Or.inl ⟨⟨h.client, h.connector⟩, noUp_nil⟩
  | wake =>
      obtain ⟨-, iteration, -, rfl⟩ := hcases
      exact Or.inl ⟨⟨h.client, h.connector⟩, noUp_nil⟩
  | handleEvent status ptr =>
      obtain ⟨-, ⟨iteration, -, rfl⟩ | ⟨i, c, iteration, -, -, rfl⟩⟩ := hcases
      · exact settles_handleConnector (s := { s with iteration }) ⟨h.client, h.connector⟩ status ptr
      · exact Or.inl ⟨⟨h.client, h.connector⟩, noUp_nil⟩
  | callback input =>
      obtain ⟨i, cb, handling, -, -, rfl⟩ := hcases
      exact settles_callConn (s := { s with handling }) ⟨h.client, h.connector⟩ i
        fun c => TcpConnection.handle_noUp c input cb
  | closeCallback a =>
      obtain ⟨i, -, rfl⟩ := hcases
      exact settles_removeConnection (s := { s with closing := none }) ⟨h.client, h.connector⟩ i a
  | expire =>
      obtain ⟨-, -, rfl⟩ := hcases
      exact Or.inl ⟨⟨h.client, atRest_timers h.connector
        (OneShots.waiting_handleRead_subset _)⟩, noUp_nil⟩
  | runTimer timer a =>
      obtain ⟨-, hexpired, rfl | rfl⟩ := hcases
      · -- A timer waits, so the connector has been stopped.
        have hstopped : s.connector.connect_ = false := by
          rcases h.connector with hstopped | ⟨-, hwaiting⟩
          · exact hstopped
          · have hmem := OneShots.mem_waiting.mpr (Or.inr hexpired)
            rw [show s.timers.waiting = [] from hwaiting] at hmem
            simp at hmem
        refine settles_performConnector h (Or.inl ?_)
        simp [Connector.startInLoop, hstopped]
      · exact Or.inl ⟨⟨h.client, atRest_timers h.connector
          (OneShots.waiting_run_subset _ _)⟩, noUp_nil⟩
  | swap =>
      obtain ⟨-, iteration, -, rfl⟩ := hcases
      exact Or.inl ⟨⟨h.client, h.connector⟩, noUp_nil⟩
  | runFunctor =>
      obtain ⟨f, iteration, -, rfl⟩ := hcases
      have hquiet : Quiet { s with iteration } := ⟨h.client, h.connector⟩
      cases f with
      | resetChannel => exact Or.inl ⟨⟨h.client, h.connector⟩, noUp_nil⟩
      | connectionDestroyed i =>
          exact settles_callConn hquiet i TcpConnection.connectionDestroyed_noUp
      | user i f => exact Or.inl ⟨hquiet, noUp_nil⟩
  | finish =>
      obtain ⟨-, iteration, -, rfl⟩ := hcases
      exact Or.inl ⟨⟨h.client, h.connector⟩, noUp_nil⟩

/-- Up to the assertion that fails, a step reports no connection up. -/
theorem settles_untilFailure {x : Traced Event ClientLoop} (h : Settles x) :
    ((untilFailure x).val.aborted = true ∨ Quiet (untilFailure x).val) ∧
      NoUp (untilFailure x).trace := by
  rcases h with ⟨hquiet, hnone⟩ | ⟨a, hhead⟩
  · obtain ⟨hval, htrace⟩ := untilFailure_cases x
    refine ⟨Or.inr ?_, fun i hmem => hnone i (htrace _ hmem)⟩
    rcases hval with heq | heq
    · rw [heq]
      exact hquiet
    · rw [heq]
      exact ⟨hquiet.client, hquiet.connector⟩
  · obtain ⟨es, hes⟩ := List.head?_eq_some_iff.mp hhead
    rw [show x = ⟨x.val, .connector (.failed a) :: es⟩ from by rw [← hes], untilFailure_head rfl]
    exact ⟨Or.inl rfl, by simp [NoUp]⟩

theorem quiet_step {l : Label} {es : List Event} (h : s.aborted = true ∨ Quiet s)
    (hl : NoConnect s l) (hstep : Step s l es t) : (t.aborted = true ∨ Quiet t) ∧ NoUp es := by
  obtain ⟨halive, x, hx, heq⟩ := step_cases hstep
  obtain ⟨rfl, rfl⟩ := Traced.mk.inj heq
  have hquiet : Quiet s := h.resolve_left (by simp [halive])
  exact settles_untilFailure (settles_advance hquiet hl hx)

/-- `disconnect()` in a state in which the connector is stopped, or has no attempt under way
and no retry timer waiting: no connection is reported up until `connect()` is called again. -/
theorem disconnect_effective {ls : List Label} {es : List Event} (hrest : s.connector.AtRest)
    (h : Run (restrict NoConnect Step) s (.call .disconnect :: ls) es t) :
    ∀ i, .conn i (.connectionCallback true) ∉ es := by
  cases h with
  | cons hstep hrun =>
      obtain ⟨-, x, hx, heq⟩ := step_cases hstep.2
      obtain ⟨rfl, rfl⟩ := Traced.mk.inj heq
      -- `disconnect()` starts by clearing `connect_`.
      let s' : ClientLoop := { s with client := { s.client with connect_ := false } }
      have hfirst : Settles x := by
        rw [show x = s'.call .disconnect from (Option.some.inj hx).symm]
        exact settles_call (s := s') ⟨rfl, hrest⟩ (c := .disconnect) trivial
      obtain ⟨hquiet, hnone⟩ := settles_untilFailure hfirst
      have hrest := hrun.history (I := fun past u => (u.aborted = true ∨ Quiet u) ∧ NoUp past)
        _ ⟨hquiet, hnone⟩ fun past u l es' v hpast hnext => by
          obtain ⟨hquiet', hnone'⟩ := quiet_step hpast.1 hnext.1 hnext.2
          exact ⟨hquiet', noUp_append.mpr ⟨hpast.2, hnone'⟩⟩
      exact hrest.2

/-- A client that is connected and retries. -/
def connectedOnce : ClientLoop :=
  ((exec step (start 0 0 false)
    [.call (.connect ⟨7, .EINPROGRESS, 1⟩), .call .enableRetry, .activate .connector POLLOUT,
      .wake, .handleEvent ⟨0, false⟩ 2, .swap, .runFunctor, .finish]).map Traced.val).getD
    (start 0 0 false)

/-- The peer closes the connection after the client has disconnected. -/
def disconnected : List Label :=
  [.call .disconnect, .activate (.connection 0) POLLIN, .wake, .handleEvent ⟨0, false⟩ 0,
    .callback ⟨some [], 0, .error false⟩, .closeCallback ⟨8, .EINPROGRESS, 3⟩, .swap, .runFunctor,
    .finish]

theorem disconnect_effective_connected :
    ∃ es t, Run (restrict NoConnect Step) connectedOnce disconnected es t ∧
      .conn 0 (.connectionCallback false) ∈ es ∧ t.connector.connectingSocket = none ∧
      ∀ i, .conn i (.connectionCallback true) ∉ es := by
  obtain ⟨es, t, hrun, hdown, hsocket⟩ : ∃ es t,
      Run (restrict NoConnect Step) connectedOnce disconnected es t ∧
        .conn 0 (.connectionCallback false) ∈ es ∧ t.connector.connectingSocket = none :=
    Run.exists_of_exec_guarded _ (by decide +kernel)
  exact ⟨es, t, hrun, hdown, hsocket, disconnect_effective (by decide +kernel) hrun⟩

/-- Disconnecting while the socket is being connected does not prevent the connection. -/
theorem disconnected_while_connecting :
    ∃ es t, Run Step (start 0 0 false)
      [.call (.connect ⟨7, .EINPROGRESS, 1⟩), .call .disconnect, .activate .connector POLLOUT,
        .wake, .handleEvent ⟨0, false⟩ 2] es t ∧
      .conn 0 (.connectionCallback true) ∈ es := Run.exists_of_exec _ (by decide +kernel)

end ClientLoop
end Chaonet
