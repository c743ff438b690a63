import Chaonet.Client.OwnedSteps

/-!
# The timers of a client

As long as a client has not been destroyed, all its timers are retries of its connector, and
`timerId_` names one that has been made (`timed_of_run`).  There may be several: every `connect()`
may lead to a retry, and `timerId_` names the last one only.
-/

namespace Chaonet

open Foundation

namespace Connector

/-- `timerId_` is in `activeTimers_`. -/
def RetryActive (c : Connector) : Prop := ∃ t ∈ c.timers.scheduled, c.timerId = some t.sequence

instance (c : Connector) : Decidable c.RetryActive := inferInstanceAs (Decidable (∃ _ ∈ _, _))

theorem not_retryActive_cancel (c : Connector) :
    ¬{ c with timers := c.timers.cancel c.timerId }.RetryActive := by
  rintro ⟨t, ht, hid⟩
  exact (OneShots.mem_scheduled_cancel.mp ht).2 hid

/-- What is known of the timers of a connector. -/
structure Timed (c : Connector) : Prop where
  inOrder : c.timers.InOrder
  retries : ∀ t ∈ c.timers.waiting, t.callback = .startInLoop
  made : ∀ n ∈ c.timerId, n < c.timers.numCreated

variable {c d : Connector}

theorem Timed.same (h : Timed c) (htimers : d.timers = c.timers) (hid : d.timerId = c.timerId) :
    Timed d := by
  constructor
  case inOrder => exact htimers ▸ h.inOrder
  case retries => exact htimers ▸ h.retries
  case made =>
    rw [htimers, hid]
    exact h.made

/-- Timers go away, or from the schedule into the batch. -/
theorem Timed.timers (h : Timed c) {timers : OneShots ClientTimer} (hinOrder : timers.InOrder)
    (hwaiting : timers.waiting ⊆ c.timers.waiting)
    (hcreated : timers.numCreated = c.timers.numCreated) : Timed { c with timers } :=
  ⟨hinOrder, fun t ht => h.retries t (hwaiting ht), fun n hn => hcreated ▸ h.made n hn⟩

theorem timed_create (poller : EPoller) (clock numCreated : Nat) :
    Timed (create poller (.create clock numCreated)) :=
  ⟨.create clock numCreated, fun _ ht => absurd ht List.not_mem_nil,
    fun n hn => absurd hn (Option.not_mem_none n)⟩

theorem Timed.retry (h : Timed c) (sockfd : Int) : Timed (c.retry sockfd).val := by
  rcases c.retry_timers sockfd with ⟨-, hid, htimers⟩ | ⟨-, hid, htimers⟩
  · constructor
    case inOrder => exact htimers ▸ h.inOrder.runAfter _ _
    case retries =>
      intro t ht
      rw [htimers] at ht
      rcases OneShots.mem_waiting.mp ht with hscheduled | hexpired
      · rcases List.mem_append.mp hscheduled with hbefore | hnew
        · exact h.retries t (OneShots.mem_waiting.mpr (.inl hbefore))
        · rw [List.mem_singleton.mp hnew]
      · exact h.retries t (OneShots.mem_waiting.mpr (.inr hexpired))
    case made =>
      intro n hn
      rw [hid] at hn
      rw [htimers, ← Option.some.inj hn]
      exact Nat.lt_succ_self _
  · exact h.same htimers hid

theorem Timed.connect (h : Timed c) (a : Attempt) : Timed (c.connect a).val := by
  unfold Connector.connect
  cases a.savedErrno.progress with
  | connecting => exact h.same rfl rfl
  | retry => exact h.retry a.sockfd
  | close => exact h

theorem Timed.startInLoop (h : Timed c) (a : Attempt) : Timed (c.startInLoop a).val := by
  unfold Connector.startInLoop
  by_cases hconnect : c.connect_ = true
  · simpa [hconnect] using h.connect a
  · simpa [hconnect] using h

theorem removeAndResetChannel_timers (c : Connector) :
    c.removeAndResetChannel.val.1.timers = c.timers ∧
      c.removeAndResetChannel.val.1.timerId = c.timerId := by
  unfold removeAndResetChannel
  cases c.channel with
  | none => exact ⟨rfl, rfl⟩
  | some channel => exact ⟨rfl, rfl⟩

theorem Timed.handleWrite (h : Timed c) (status : SocketStatus) :
    Timed (c.handleWrite status).val := by
  obtain ⟨htimers, hid⟩ := c.removeAndResetChannel_timers
  have hreset := h.same htimers hid
  by_cases hstate : c.state = .kConnecting
  · by_cases hfailed : status.err ≠ 0 ∨ status.selfConnect = true
    · have hretry := hreset.retry c.removeAndResetChannel.val.2
      by_cases herr : status.err = 0
      · simpa [Connector.handleWrite, hstate, herr, hfailed.resolve_left (by simpa using herr)]
          using hretry
      · simpa [Connector.handleWrite, hstate, herr] using hretry
    · obtain ⟨herr, hself⟩ := not_or.mp hfailed
      refine hreset.same ?_ ?_ <;>
      simp [Connector.handleWrite, hstate, not_not.mp herr, hself, apply_ite Traced.val]
  · simpa [Connector.handleWrite, hstate] using h

theorem Timed.handleError (h : Timed c) : Timed c.handleError.val := by
  obtain ⟨htimers, hid⟩ := c.removeAndResetChannel_timers
  exact (h.same htimers hid).retry c.removeAndResetChannel.val.2

theorem Timed.handle (h : Timed c) (status : SocketStatus) (cbs : List ChannelCallback) :
    Timed (c.handle status cbs).val := by
  induction cbs generalizing c with
  | nil => exact h
  | cons cb rest ih =>
      cases cb with
      | errorCallback => exact ih h.handleError
      | writeCallback => exact ih (h.handleWrite status)
      | closeCallback => exact ih h
      | readCallback => exact ih h

theorem Timed.handleEvent (h : Timed c) (status : SocketStatus) :
    Timed (c.handleEvent status).val := by
  unfold Connector.handleEvent
  cases c.channel with
  | none => exact h
  | some channel => exact h.handle status _

end Connector

namespace ClientLoop

variable {s t : ClientLoop}

/-- A member of a connection leaves the timers alone. -/
theorem timed_callConn (h : s.connector.Timed) (i : Nat)
    (member : TcpConnection → Traced TcpConnection.Event TcpConnection) :
    (s.callConn i member).val.connector.Timed := by
  unfold callConn
  cases s.conn? i with
  | none => exact h
  | some c => exact h.same rfl rfl

theorem timed_handleConnector (h : s.connector.Timed) (status : SocketStatus) (ptr : ChannelPtr) :
    (s.handleConnector status ptr).val.connector.Timed := by
  have hhandled := h.handleEvent status
  cases hnew : handedOver (s.connector.handleEvent status).trace with
  | none =>
      rw [handleConnector_none hnew]
      exact hhandled
  | some sockfd =>
      rw [handleConnector_some hnew]
      exact hhandled.same rfl rfl

theorem timed_removeConnection (h : s.connector.Timed) (i : Nat) (a : Attempt) :
    (s.removeConnection i a).val.connector.Timed := by
  unfold removeConnection
  simp only [Traced.bind_val]
  split_ifs
  · exact (h.same (d := { s.connector with
      state := .kDisconnected, retryDelayMs := Connector.kInitRetryDelayMs, connect_ := true })
      rfl rfl).startInLoop a
  · exact h

theorem timed_call (h : s.connector.Timed) (c : Call) : (s.call c).val.connector.Timed := by
  cases c with
  | connect a =>
      exact (h.same (d := { s.connector with connect_ := true }) rfl rfl).startInLoop a
  | disconnect =>
      simp only [call, disconnect]
      split
      · exact h
      · exact timed_callConn (s := { s with client := { s.client with connect_ := false } }) h _ _
  | stop =>
      exact (h.timers (h.inOrder.cancel s.connector.timerId)
        (OneShots.waiting_cancel_sublist _ _).subset rfl).same rfl rfl
  | enableRetry => exact h
  | send i message r => exact timed_callConn h i _
  | shutdown i => exact timed_callConn h i _

theorem timed_advance (h : s.connector.Timed) {l : Label} {x : Traced Event ClientLoop}
    (hx : s.advance l = some x) : x.val.connector.Timed := by
  have hcases := advance_cases hx
  cases l with
  | call c =>
      rw [show x = s.call c from hcases]
      exact timed_call h c
  | tick micros =>
      rw [show x = _ from hcases]
      exact h.timers (h.inOrder.tick micros) (fun _ ht => ht) rfl
  | activate o revents =>
      cases o with
      | connector =>
          obtain ⟨channel, iteration, -, -, -, rfl⟩ := hcases
          exact h.same rfl rfl
      | connection i =>
          obtain ⟨c, iteration, -, -, -, -, -, rfl⟩ := hcases
          exact h
  | wake =>
      obtain ⟨-, iteration, -, rfl⟩ := hcases
      exact h
  | handleEvent status ptr =>
      obtain ⟨-, ⟨iteration, -, rfl⟩ | ⟨i, c, iteration, -, -, rfl⟩⟩ := hcases
      · exact timed_handleConnector (s := { s with iteration }) h status ptr
      · exact h
  | callback input =>
      obtain ⟨i, cb, handling, -, -, rfl⟩ := hcases
      exact timed_callConn (s := { s with handling }) h i _
  | closeCallback a =>
      obtain ⟨i, -, rfl⟩ := hcases
      exact timed_removeConnection (s := { s with closing := none }) h i a
  | expire =>
      obtain ⟨-, -, rfl⟩ := hcases
      exact h.timers (.handleRead _) (OneShots.waiting_handleRead_subset _) rfl
  | runTimer timer a =>
      obtain ⟨-, -, hresult⟩ := hcases
      have hrun := h.timers (h.inOrder.run timer) (OneShots.waiting_run_subset _ timer) rfl
      rcases hresult with rfl | rfl
      · exact hrun.startInLoop a
      · exact hrun
  | swap =>
      obtain ⟨-, iteration, -, rfl⟩ := hcases
      exact h
  | runFunctor =>
      obtain ⟨f, iteration, -, rfl⟩ := hcases
      cases f with
      | resetChannel => exact h.same rfl rfl
      | connectionDestroyed i => exact timed_callConn (s := { s with iteration }) h i _
      | user i f => exact h
  | finish =>
      obtain ⟨-, iteration, -, rfl⟩ := hcases
      exact h

/-- **The timers of a client are retries** in every run, and those of the batch come first. -/
theorem timed_of_run {clock numCreated : Nat} {writeComplete : Bool} {ls : List Label}
    {es : List Event} (h : Run Step (start clock numCreated writeComplete) ls es s) :
    s.connector.Timed := by
  refine h.invariant (I := fun u => u.connector.Timed)
    (Connector.timed_create .create clock numCreated) ?_
  intro u l es' v hbefore hstep
  obtain ⟨-, x, hx, heq⟩ := step_cases hstep
  have hafter := timed_advance hbefore hx
  -- A step that fails an assertion has taken effect, too.
  rcases (untilFailure_cases x).1 with hval | hval
  · rwa [show v = x.val from (congrArg Traced.val heq).trans hval]
  · rw [show v = _ from (congrArg Traced.val heq).trans hval]
    exact hafter

end ClientLoop
end Chaonet
