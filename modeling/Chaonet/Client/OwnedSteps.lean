import Chaonet.Client.Ownership

/-!
# What a client owns, step by step

Every step of a client keeps what `Ownership` says of it, unless an assertion fails.  So in every
run, however often `connect()` is called, what is registered belongs to the client as long as the
program has not been ended (`owns_of_run`).

One thing from outside is relied on: the kernel returns no descriptor that is open.
-/

namespace Chaonet

open Foundation

namespace Connector

/-! ## Attempts that fail an assertion -/

theorem failed_mem_startInLoop {c : Connector} (h : c.state ≠ .kDisconnected) (a : Attempt) :
    .failed .startInLoopDisconnected ∈ (c.startInLoop a).trace := by
  simp [startInLoop, Traced.check_trace, h]

theorem failed_mem_connect {c : Connector} {a : Attempt}
    (hprogress : a.savedErrno.progress = .connecting) (h : c.channel ≠ none) :
    .failed .connectingNoChannel ∈ (c.connect a).trace := by
  simp [connect, hprogress, connecting, Traced.check_trace, h]

end Connector

namespace ClientLoop

variable {s t : ClientLoop} {registered : Int → Option Channel} {i : Nat} {c : TcpConnection}

/-! ## Calls and attempts -/

/-- A call of the user on a connection. -/
theorem Owns.userCall (h : Owns s registered)
    {member : TcpConnection → Traced TcpConnection.Event TcpConnection}
    (hkeeps : ∀ {c registered}, c.Serving registered →
      TcpConnection.Keeps c registered (member c))
    (hstill : ∀ {c : TcpConnection}, c.state = .kDisconnected → member c = pure c) (i : Nat) :
    ∃ registered', Owns (s.callConn i member).val registered' := by
  cases hi : s.numbered i with
  | none =>
      have hnone : s.callConn i member = pure s := by
        simp [callConn, conn?, show s.conns[i]? = none from hi]
      rw [hnone]
      exact ⟨registered, h⟩
  | some c =>
      rw [callConn_of_numbered hi]
      have hdown (hstate : c.state = .kDisconnected) :
          ∃ registered', Owns (s.performConn i (member (c.on s.poller))).val registered' := by
        rw [hstill (c := c.on s.poller) hstate]
        exact ⟨registered, h.still hi⟩
      cases h.stages i c hi with
      | up hup _ _ _ => exact ⟨_, (h.keeps hi hup (hkeeps (h.hosting.serving hi hup))).1⟩
      | closing hstage _ _ _ => exact hdown hstage.state
      | removed hstage _ _ => exact hdown hstage.state
      | gone hstage _ _ => exact hdown hstage.state

/-- An attempt is begun, unless an assertion fails. -/
theorem Owns.startInLoop (h : Owns s registered) {a : Attempt} (hfresh : s.Fresh a)
    (hsound : ∀ b, .failed b ∉ (s.connector.startInLoop a).trace) :
    ∃ registered', Owns (s.performConnector (s.connector.startInLoop a)).val registered' := by
  have hstate : s.connector.state = .kDisconnected := by
    by_contra hstate
    exact hsound _ (Connector.failed_mem_startInLoop hstate a)
  cases hconnect : s.connector.connect_ with
  | false =>
      rw [Connector.startInLoop_idle hstate hconnect, performConnector_of_nil rfl]
      exact ⟨registered, h⟩
  | true =>
      rw [Connector.startInLoop_connect hstate hconnect] at hsound ⊢
      refine h.connect hstate hfresh fun hprogress => ?_
      by_contra hchannel
      exact hsound _ (Connector.failed_mem_connect hprogress hchannel)

theorem handleConnector_none {status : SocketStatus}
    (h : handedOver (s.connector.handleEvent status).trace = none) (ptr : ChannelPtr) :
    s.handleConnector status ptr = s.performConnector (s.connector.handleEvent status) := by
  simp [handleConnector, h]

theorem handleConnector_some {status : SocketStatus} {sockfd : Int}
    (h : handedOver (s.connector.handleEvent status).trace = some sockfd) (ptr : ChannelPtr) :
    s.handleConnector status ptr =
      s.performConnector (s.connector.handleEvent status) >>= fun s =>
        s.newConnection sockfd ptr := by
  simp [handleConnector, h]

/-- The event of an attempt: it goes on, is over, or leads to a connection. -/
theorem Owns.handleConnector (h : Owns s registered) {channel : Channel}
    (attempt : s.connector.Connecting registered channel) (hidle : s.Idle)
    (hphase : s.iteration.phase = .handling) (hinactive : .connector ∉ s.iteration.active)
    (status : SocketStatus) (ptr : ChannelPtr) :
    ∃ registered', Owns (s.handleConnector status ptr).val registered' := by
  obtain ⟨poller, hholds, hhandled⟩ := Connector.handleEvent_spec attempt status
  generalize hx : s.connector.handleEvent status = x at hhandled
  cases h.attempting with
  | resting hstate _ _ _ => exact absurd attempt.state hstate
  | trying channel' attempt' hapart hconnection hresets =>
      obtain rfl : channel = channel' :=
        Option.some.inj (attempt.current.symm.trans attempt'.current)
      have hover : Owns { s.setConnector { s.connector with
            poller, channel := some (Connector.removed channel), state := .kConnected } with
          iteration := s.iteration.push [.resetChannel] }
          (Function.update registered channel.fd none) :=
        h.over attempt hidle hphase hinactive hholds (by simp) (by simp)
      cases hhandled with
      | goesOn =>
          rw [handleConnector_none (by rw [hx]; rfl), hx, performConnector_of_nil rfl]
          exact ⟨registered, h⟩
      | failed =>
          rw [handleConnector_none (by rw [hx]; rfl), hx, performConnector_of_reset rfl]
          exact ⟨_, h.over attempt hidle hphase hinactive
            (by rw [Connector.retry_poller]; exact hholds) (by simp) (by simp)⟩
      | handedOver hconnect =>
          have hsome : ClientLoop.handedOver (s.connector.handleEvent status).trace =
              some channel.fd := by
            rw [hx]
            rfl
          rw [handleConnector_some hsome, hx, Traced.bind_val, performConnector_of_reset rfl]
          obtain ⟨-, -, -, howns⟩ := hover.newConnection hconnection rfl hidle.1 hidle.2.1
            (Function.update_self ..) hapart ptr
          exact howns
      | abandoned hconnect =>
          rw [handleConnector_none (by rw [hx]; rfl), hx, performConnector_of_reset rfl]
          exact ⟨_, hover⟩

/-- What is known of the next callback of a connection, and of those after it. -/
structure Due (s : ClientLoop) (i : Nat) (c : TcpConnection) (cb : ChannelCallback)
    (rest : List ChannelCallback) : Prop where
  conn : s.numbered i = some c
  phase : s.iteration.phase = .handling
  inactive : .connection i ∉ s.iteration.active
  first : cb ∉ rest
  nodup : rest.Nodup
  noClose : cb ≠ .closeCallback ∧ .closeCallback ∉ rest
  stage : c.Up ∨ c.Down ∧ cb ≠ .readCallback ∧ .readCallback ∉ rest

theorem Owns.due (h : Owns s registered) {cb : ChannelCallback}
    {handling : List (Nat × ChannelCallback)} (hhandling : s.handling = (i, cb) :: handling) :
    ∃ c rest, handling = rest.map (fun cb => (i, cb)) ∧ Due s i c cb rest := by
  have hphase : s.iteration.phase = .handling := by
    by_contra hnot
    have hnil := (h.settled hnot).1
    simp [hhandling] at hnil
  have hbefore := h.handling
  generalize hall : s.handling = all at hbefore
  cases hbefore with
  | idle => simp [hhandling] at hall
  | event j c cbs hi hinactive hnodup hclose hstage =>
      cases cbs with
      | nil => simp [hhandling] at hall
      | cons cb' rest =>
          have hcons := hhandling.symm.trans hall
          simp only [List.map_cons, List.cons.injEq, Prod.mk.injEq] at hcons
          obtain ⟨⟨rfl, rfl⟩, rfl⟩ := hcons
          obtain ⟨hfirst, honce⟩ := List.nodup_cons.mp hnodup
          obtain ⟨hcb, hlater⟩ := not_or.mp fun hor => hclose (List.mem_cons.mpr hor)
          refine ⟨c, rest, rfl, hi, hphase, hinactive, hfirst, honce,
            ⟨fun heq => hcb heq.symm, hlater⟩, hstage.imp_right fun hdown => ⟨hdown.1, ?_, ?_⟩⟩
          · exact fun heq => hdown.2 (heq ▸ List.mem_cons_self)
          · exact fun hmem => hdown.2 (List.mem_cons_of_mem _ hmem)

/-- The callbacks after the next one. -/
theorem Due.rest {cb : ChannelCallback} {rest : List ChannelCallback} (h : Due s i c cb rest) :
    Handling s (rest.map fun cb => (i, cb)) :=
  .event i c rest h.conn h.inactive h.nodup h.noClose.2
    (h.stage.imp_right fun hdown => ⟨hdown.1, hdown.2.2⟩)

/-- A connection that is down does nothing any more. -/
theorem Due.handle_down {cb : ChannelCallback} {rest : List ChannelCallback}
    (h : Due s i c cb rest) (hdown : ¬c.Up) (input : TcpConnection.Input) :
    (c.on s.poller).handle input cb = pure (c.on s.poller) := by
  obtain ⟨hstage, hread, -⟩ := h.stage.resolve_left hdown
  exact TcpConnection.down_handle (c := c.on s.poller) ⟨hstage.state, hstage.index, hstage.idle⟩
    input ⟨h.noClose.1, hread⟩

/-- The next callback of a connection that is down. -/
theorem Owns.callback_down (h : Owns s registered) {cb : ChannelCallback}
    {handling : List (Nat × ChannelCallback)} (hhandling : s.handling = (i, cb) :: handling)
    (hdown : ∀ c, s.numbered i = some c → ¬c.Up) (input : TcpConnection.Input) :
    ∃ c : TcpConnection, { s with handling }.callConn i (fun c => c.handle input cb) =
        { s with handling }.performConn i (pure (c.on s.poller)) ∧
      Owns ({ s with handling }.performConn i (pure (c.on s.poller))).val registered := by
  obtain ⟨c, rest, rfl, hdue⟩ := h.due hhandling
  have howns := h.handles hdue.phase hdue.rest
  set s₀ : ClientLoop := { s with handling := rest.map fun cb => (i, cb) } with hs₀
  have hi₀ : s₀.numbered i = some c := hdue.conn
  refine ⟨c, ?_, howns.still hi₀⟩
  rw [callConn_of_numbered hi₀]
  exact congrArg _ (hdue.handle_down (hdown c hdue.conn) input)

/-- The next callback of a connection. -/
theorem Owns.callback (h : Owns s registered) {cb : ChannelCallback}
    {handling : List (Nat × ChannelCallback)} (hhandling : s.handling = (i, cb) :: handling)
    (input : TcpConnection.Input) :
    ∃ registered',
      Owns ({ s with handling }.callConn i fun c => c.handle input cb).val registered' := by
  by_cases hdown : ∀ c, s.numbered i = some c → ¬c.Up
  · obtain ⟨c, heq, howns⟩ := h.callback_down hhandling hdown input
    rw [heq]
    exact ⟨registered, howns⟩
  · obtain ⟨c, rest, rfl, hdue⟩ := h.due hhandling
    have hup : c.Up := by
      by_contra hnot
      refine hdown fun d hd => ?_
      obtain rfl := Option.some.inj (hdue.conn.symm.trans hd)
      exact hnot
    have howns := h.handles hdue.phase hdue.rest
    set s₀ : ClientLoop := { s with handling := rest.map fun cb => (i, cb) } with hs₀
    have hi₀ : s₀.numbered i = some c := hdue.conn
    rw [callConn_of_numbered hi₀]
    have hserving := howns.hosting.serving hi₀ hup
    cases cb with
    | closeCallback => exact absurd rfl hdue.noClose.1
    | errorCallback =>
        exact ⟨_, (howns.keeps hi₀ hup (TcpConnection.keeps_of_same hserving rfl rfl hserving.state
          TcpConnection.silent_nil.calm)).1⟩
    | writeCallback =>
        exact ⟨_, (howns.keeps hi₀ hup (TcpConnection.keeps_handleWrite hserving input.write)).1⟩
    | readCallback =>
        rcases TcpConnection.serving_handle hserving input .readCallback with hx | hx
        · exact ⟨_, (howns.keeps hi₀ hup hx).1⟩
        · exact ⟨_, howns.closes hi₀ hup hx hdue.phase hdue.inactive rfl hdue.nodup
            hdue.noClose.2 hdue.first⟩

/-- The assertion of `removeConnection` holds for the connection of the client. -/
theorem removeConnection_eq (hconnection : s.client.connection = some i) {a : Attempt} :
    ({ s with closing := none } : ClientLoop).removeConnection i a =
      let dropped : ClientLoop := { s with
        closing := none
        client := { s.client with connection := none }
        iteration := s.iteration.push [.connectionDestroyed i] }
      if s.client.retry_ = true ∧ s.client.connect_ = true then
        dropped.performConnector (s.connector.restart a)
      else pure dropped := by
  have hcheck : Traced.check Event.removedOther (s.client.connection = some i) = pure () :=
    Traced.check_of hconnection
  simp only [ClientLoop.removeConnection, hcheck]
  rfl

/-- The connection that was closed is dropped, and the connector may be restarted. -/
theorem Owns.removeConnection (h : Owns s registered) (hclosing : s.closing = some i)
    {a : Attempt} (hfresh : s.Fresh a)
    (hsound : ∀ e ∈ ({ s with closing := none }.removeConnection i a).trace,
      e.isFailure = false) :
    ∃ registered',
      Owns ({ s with closing := none }.removeConnection i a).val registered' := by
  obtain ⟨howns, hconnected⟩ := h.removed hclosing
  rw [removeConnection_eq (h.closing i hclosing)] at hsound ⊢
  split_ifs at hsound ⊢ with hretry
  · refine (howns.restarted rfl hconnected).startInLoop hfresh fun b hb => ?_
    exact absurd (hsound _ (List.mem_map_of_mem hb)) (by simp [Event.isFailure])
  · exact ⟨registered, howns⟩

/-- The kernel returns no descriptor that is open. -/
def Granted (s : ClientLoop) : Label → Prop
  | .call (.connect a) | .closeCallback a | .runTimer _ a => s.Fresh a
  | _ => True

instance (s : ClientLoop) : ∀ l, Decidable (s.Granted l)
  | .call (.connect a) | .closeCallback a | .runTimer _ a => inferInstanceAs (Decidable (s.Fresh a))
  | .call .disconnect | .call .stop | .call .enableRetry | .call (.send _ _ _)
  | .call (.shutdown _) | .tick _ | .activate _ _ | .wake | .handleEvent _ _ | .callback _
  | .expire | .swap | .runFunctor | .finish => .isTrue trivial

/-- What a call does, unless an assertion fails. -/
theorem Owns.call (h : Owns s registered) {c : Call} (hc : s.Granted (.call c))
    (hsound : ∀ e ∈ (s.call c).trace, e.isFailure = false) :
    ∃ registered', Owns (s.call c).val registered' := by
  cases c with
  | connect a =>
      refine (h.switched s.client.retry_ true true true s.timers).startInLoop hc fun b hb => ?_
      exact absurd (hsound _ (List.mem_map_of_mem hb)) (by simp [Event.isFailure])
  | disconnect =>
      have howns := h.switched s.client.retry_ false s.connector.connect_ s.called s.timers
      simp only [ClientLoop.call, ClientLoop.disconnect]
      split
      · exact ⟨registered, howns⟩
      · rename_i i hi
        exact howns.userCall (fun hserving => TcpConnection.keeps_shutdown hserving)
          (fun hstate => TcpConnection.shutdown_disconnected hstate) i
  | stop =>
      exact ⟨registered, h.switched s.client.retry_ false false s.called
        (s.timers.cancel s.connector.timerId)⟩
  | enableRetry =>
      exact ⟨registered, h.switched true s.client.connect_ s.connector.connect_ s.called s.timers⟩
  | send i message r =>
      exact h.userCall (fun hserving => TcpConnection.keeps_send hserving message r)
        (fun hstate => TcpConnection.send_disconnected hstate message r) i
  | shutdown i =>
      exact h.userCall (fun hserving => TcpConnection.keeps_shutdown hserving)
        (fun hstate => TcpConnection.shutdown_disconnected hstate) i

/-- A functor is run. -/
theorem Owns.invoke (h : Owns s registered) {f : ClientFunctor}
    {iteration : Iteration ClientChannel ClientFunctor}
    (hnext : s.iteration.nextFunctor = some (f, iteration)) :
    (∃ registered', Owns ({ s with iteration }.invoke f).val registered') ∧
      ({ s with iteration }.invoke f).val.closing = s.closing := by
  cases f with
  | resetChannel => exact ⟨⟨_, (h.resetChannel hnext).1⟩, rfl⟩
  | connectionDestroyed i =>
      have hqueued := (h.turn.nextFunctor hnext).2
      -- The functor is queued only for a connection that has been made.
      have hsome : s.numbered i ≠ none := by
        intro hnone
        have hzero := h.unborn i hnone
        rw [queuedCount, hqueued, List.count_cons_self] at hzero
        simp at hzero
      obtain ⟨c, hi⟩ := Option.ne_none_iff_exists'.mp hsome
      obtain ⟨howns, -, hclosing⟩ := h.destroyed hnext hi
      rw [ClientLoop.invoke, callConn_of_numbered (s := { s with iteration }) hi]
      exact ⟨⟨_, howns⟩, hclosing⟩
  | user i u => exact ⟨⟨registered, h.nextFunctor hnext ⟨by simp, by simp⟩⟩, rfl⟩

/-- What a step does, unless an assertion fails. -/
theorem Owns.advance (h : Owns s registered) {l : Label} {x : Traced Event ClientLoop}
    (hl : s.Granted l) (hx : s.advance l = some x) (hsound : ∀ e ∈ x.trace, e.isFailure = false) :
    ∃ registered', Owns x.val registered' := by
  have hcases := advance_cases hx
  cases l with
  | call c =>
      rw [show x = s.call c from hcases] at hsound ⊢
      exact h.call hl hsound
  | tick micros =>
      rw [show x = _ from hcases]
      exact ⟨registered, h.switched s.client.retry_ s.client.connect_ s.connector.connect_ s.called
        (s.timers.tick micros)⟩
  | activate o revents =>
      cases o with
      | connector =>
          obtain ⟨channel, iteration, hchannel, -, hstep, rfl⟩ := hcases
          exact (h.activated revents hchannel hstep).2
      | connection i =>
          obtain ⟨c, iteration, hi, hindex, -, hdeliverable, hstep, rfl⟩ := hcases
          exact h.activatedConn hi hindex hdeliverable hstep
  | wake =>
      obtain ⟨hidle, iteration, hstep, rfl⟩ := hcases
      exact ⟨registered, h.proceeds hidle _ (Or.inl hstep)⟩
  | handleEvent status ptr =>
      obtain ⟨hidle, ⟨iteration, hnext, rfl⟩ | ⟨i, c, iteration, hnext, hi, rfl⟩⟩ := hcases
      · obtain ⟨howns, hphase, hmem, hinactive⟩ := h.next hnext
        cases h.attempting with
        | resting _ hidle' _ _ => exact absurd hmem hidle'
        | trying channel attempt _ _ _ =>
            exact howns.handleConnector attempt hidle hphase hinactive status ptr
      · obtain ⟨howns, hphase, hmem, hinactive⟩ := h.next hnext
        obtain ⟨c', hi', hup, hclose⟩ := h.active i hmem
        obtain rfl := Option.some.inj (hi.symm.trans hi')
        exact ⟨registered, howns.handles hphase (.event i c _ hi hinactive
          (Channel.nodup_handleEvent _) hclose (Or.inl hup))⟩
  | callback input =>
      obtain ⟨i, cb, handling, hhandling, -, rfl⟩ := hcases
      exact h.callback hhandling input
  | closeCallback a =>
      obtain ⟨i, hclosing, rfl⟩ := hcases
      exact h.removeConnection hclosing hl hsound
  | expire =>
      obtain ⟨-, -, rfl⟩ := hcases
      exact ⟨registered, h.switched s.client.retry_ s.client.connect_ s.connector.connect_ s.called
        s.timers.handleRead⟩
  | runTimer t a =>
      obtain ⟨-, -, hcallback⟩ := hcases
      have howns := h.switched s.client.retry_ s.client.connect_ s.connector.connect_ s.called
        (s.timers.run t)
      rcases hcallback with rfl | rfl
      · refine howns.startInLoop hl fun b hb => ?_
        exact absurd (hsound _ (List.mem_map_of_mem hb)) (by simp [Event.isFailure])
      · exact ⟨registered, howns⟩
  | swap =>
      obtain ⟨hidle, iteration, hstep, rfl⟩ := hcases
      exact ⟨registered, h.proceeds hidle 0 (Or.inr (Or.inl hstep))⟩
  | runFunctor =>
      obtain ⟨f, iteration, hnext, rfl⟩ := hcases
      exact (h.invoke hnext).1
  | finish =>
      obtain ⟨hidle, iteration, hstep, rfl⟩ := hcases
      exact ⟨registered, h.proceeds hidle 0 (Or.inr (Or.inr hstep))⟩

/-- A program that has not been ended has failed no assertion. -/
theorem untilFailure_alive {x : Traced Event ClientLoop}
    (h : (untilFailure x).val.aborted = false) :
    (∀ e ∈ x.trace, e.isFailure = false) ∧ untilFailure x = x := by
  have hsound : ∀ e ∈ x.trace, e.isFailure = false := by
    unfold untilFailure at h
    split at h
    · exact List.findIdx?_eq_none_iff.mp ‹_›
    · simp at h
  exact ⟨hsound, untilFailure_of hsound⟩

/-- **What is registered.**  In every run, as long as the program has not been ended. -/
theorem owns_of_run {clock numCreated : Nat} {writeComplete : Bool} {ls : List Label}
    {es : List Event}
    (h : Run (restrict Granted Step) (start clock numCreated writeComplete) ls es s)
    (halive : s.aborted = false) : ∃ registered, Owns s registered := by
  refine h.invariant (I := fun u => u.aborted = false → ∃ registered, Owns u registered)
    (fun _ => ⟨_, owns_start clock numCreated writeComplete⟩) ?_ halive
  intro u l es' v howns hstep halive'
  obtain ⟨hbefore, x, hx, heq⟩ := step_cases hstep.2
  obtain ⟨registered, howns'⟩ := howns hbefore
  -- The step has not ended the program, so that it took effect as a whole.
  obtain ⟨hsound, hwhole⟩ := untilFailure_alive (x := x) (by rw [← heq]; exact halive')
  obtain rfl : v = x.val := congrArg Traced.val (heq.trans hwhole)
  exact howns'.advance hstep.1 hx hsound

end ClientLoop
end Chaonet
