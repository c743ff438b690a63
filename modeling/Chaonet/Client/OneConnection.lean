import Chaonet.Client.OwnedSteps
import Chaonet.Client.Reconnect

/-!
# One connection at a time

Every step keeps what `Reconnect` says of a client (`Tied`), fails no assertion of the connector
or the client, and accounts for the sockets it makes, closes and hands over (`Safe`).  So in
every run at most one socket is being connected or belongs to a connection that is not down
(`at_most_one_connection`).
-/

namespace Chaonet

open Foundation

namespace ClientLoop

/-! ## What a step shows -/

/-- What the connector shows. -/
def connectorEvents (es : List Event) : List Connector.Event :=
  es.filterMap fun
    | .connector e => some e
    | _ => none

/-- The sockets that are handed to `newConnection`. -/
def handed (es : List Event) : List Int :=
  es.filterMap fun
    | .connector (.newConnectionCallback sockfd) => some sockfd
    | _ => none

/-- The sockets of the connections, in the order in which they were made. -/
def sockets (s : ClientLoop) : List Int := s.conns.map fun c => c.channel.fd

@[simp] theorem connectorEvents_nil : connectorEvents [] = [] := rfl

@[simp] theorem handed_nil : handed [] = [] := rfl

@[simp] theorem connectorEvents_append (es es' : List Event) :
    connectorEvents (es ++ es') = connectorEvents es ++ connectorEvents es' :=
  List.filterMap_append

@[simp] theorem handed_append (es es' : List Event) :
    handed (es ++ es') = handed es ++ handed es' :=
  List.filterMap_append

@[simp] theorem connectorEvents_map_connector (es : List Connector.Event) :
    connectorEvents (es.map .connector) = es := by
  rw [connectorEvents, List.filterMap_map]
  exact List.filterMap_some

@[simp] theorem connectorEvents_map_conn (i : Nat) (es : List TcpConnection.Event) :
    connectorEvents (es.map (.conn i)) = [] := by
  rw [connectorEvents, List.filterMap_map, List.filterMap_eq_nil_iff]
  exact fun _ _ => rfl

@[simp] theorem handed_map_conn (i : Nat) (es : List TcpConnection.Event) :
    handed (es.map (.conn i)) = [] := by
  rw [handed, List.filterMap_map, List.filterMap_eq_nil_iff]
  exact fun _ _ => rfl

theorem handed_map_connector {es : List Connector.Event}
    (h : ∀ sockfd, .newConnectionCallback sockfd ∉ es) : handed (es.map .connector) = [] := by
  rw [handed, List.filterMap_map, List.filterMap_eq_nil_iff]
  intro e he
  cases e with
  | newConnectionCallback sockfd => exact absurd he (h sockfd)
  | _ => rfl

theorem isFailure_of_sound {es : List Connector.Event} (h : Connector.Sound es) :
    ∀ e ∈ es.map Event.connector, e.isFailure = false := by
  intro e he
  obtain ⟨e', he', rfl⟩ := List.mem_map.mp he
  cases e' with
  | failed a => exact absurd he' (h.1 a)
  | nullChannel => exact absurd he' h.2.1
  | _ => rfl

/-- A step from `s`: the client stays as it should be, no assertion fails, and the sockets are
accounted for. -/
structure Safe (s : ClientLoop) (x : Traced Event ClientLoop) : Prop where
  stable : Stable x.val
  sound : ∀ e ∈ x.trace, e.isFailure = false
  ledger : ∀ fd, Connector.ledger (connectorEvents x.trace) fd =
    x.val.connector.beingConnected fd - s.connector.beingConnected fd
  made : x.val.sockets = s.sockets ++ handed x.trace

variable {s t : ClientLoop} {registered : Int → Option Channel} {i : Nat} {c : TcpConnection}

theorem beingConnected_congr {c c' : Connector} (h : c.connectingSocket = c'.connectingSocket)
    (fd : Int) : c.beingConnected fd = c'.beingConnected fd := by
  rw [Connector.beingConnected, Connector.beingConnected, h]

/-- A step that shows nothing. -/
theorem safe_pure (hstable : Stable t)
    (hsocket : t.connector.connectingSocket = s.connector.connectingSocket)
    (hmade : t.sockets = s.sockets) : Safe s (pure t) := by
  refine ⟨hstable, by simp, fun fd => ?_, by simp [hmade]⟩
  simp [beingConnected_congr hsocket]

/-- A member of the connector that hands nothing over. -/
theorem safe_connector {x : Traced Connector.Event Connector} {c : Connector}
    (hstable : Stable (t.performConnector x).val) (hx : Connector.Accounted c x)
    (hnew : ∀ sockfd, .newConnectionCallback sockfd ∉ x.trace)
    (hsocket : c.connectingSocket = s.connector.connectingSocket)
    (hmade : t.sockets = s.sockets) : Safe s (t.performConnector x) := by
  refine ⟨hstable, isFailure_of_sound hx.sound, fun fd => ?_, ?_⟩
  · rw [← beingConnected_congr hsocket]
    show Connector.ledger (connectorEvents (x.trace.map .connector)) fd = _
    rw [connectorEvents_map_connector]
    exact hx.ledger fd
  · rw [show (t.performConnector x).trace = x.trace.map .connector from rfl,
      handed_map_connector hnew, List.append_nil]
    exact hmade

/-- The sockets of the connections stay the same. -/
theorem sockets_performConn (hi : s.numbered i = some c)
    {x : Traced TcpConnection.Event TcpConnection} (hfd : x.val.channel.fd = c.channel.fd) :
    (s.performConn i x).val.sockets = s.sockets := by
  show (s.conns.set i x.val).map _ = s.conns.map _
  refine List.ext_getElem? fun j => ?_
  rw [List.getElem?_map, List.getElem?_map, List.getElem?_set]
  split_ifs with hij hlt
  · obtain rfl := hij
    rw [show s.conns[i]? = some c from hi]
    simp [hfd]
  · obtain rfl := hij
    rw [List.getElem?_eq_none (by omega), Option.map_none]
  · rfl

/-- A member of a connection. -/
theorem safe_conn {x : Traced TcpConnection.Event TcpConnection} (hi : t.numbered i = some c)
    (hstable : Stable (t.performConn i x).val) (hfd : x.val.channel.fd = c.channel.fd)
    (hsocket : t.connector.connectingSocket = s.connector.connectingSocket)
    (hmade : t.sockets = s.sockets) : Safe s (t.performConn i x) := by
  refine ⟨hstable, fun e he => ?_, fun fd => ?_, ?_⟩
  · obtain ⟨e', -, rfl⟩ := List.mem_map.mp he
    rfl
  · have hafter : (t.performConn i x).val.connector.connectingSocket =
        s.connector.connectingSocket := hsocket
    rw [beingConnected_congr hafter]
    simp [performConn]
  · rw [sockets_performConn hi hfd, hmade]
    simp [performConn]

/-! ## Calls -/

/-- A call of the user on a connection. -/
theorem Tied.userCall (h : Tied s registered)
    {member : TcpConnection → Traced TcpConnection.Event TcpConnection}
    (hkeeps : ∀ {c registered}, c.Serving registered →
      TcpConnection.Keeps c registered (member c))
    (hstill : ∀ {c : TcpConnection}, c.state = .kDisconnected → member c = pure c) (i : Nat) :
    Safe s (s.callConn i member) := by
  cases hi : s.numbered i with
  | none =>
      have hnone : s.callConn i member = pure s := by
        simp [callConn, conn?, show s.conns[i]? = none from hi]
      rw [hnone]
      exact safe_pure ⟨registered, h⟩ rfl rfl
  | some c =>
      rw [callConn_of_numbered hi]
      have hdown (hstate : c.state = .kDisconnected) :
          Safe s (s.performConn i (member (c.on s.poller))) := by
        rw [hstill (c := c.on s.poller) hstate]
        exact safe_conn hi ⟨registered, h.still hi⟩ rfl rfl rfl
      cases h.stages i c hi with
      | up hup _ _ _ =>
          have hx := hkeeps (h.hosting.serving hi hup)
          exact safe_conn hi ⟨_, h.keeps hi hup hx⟩ hx.fd rfl rfl
      | closing hstage _ _ _ => exact hdown hstage.state
      | removed hstage _ _ => exact hdown hstage.state
      | gone hstage _ _ => exact hdown hstage.state

/-- The timers stay as they are. -/
theorem Tied.flagged (h : Tied s registered) (retry_ connect_ restarts called : Bool)
    (hcalled : called = false → s.called = false) :
    Tied { s with
      client := { s.client with
        retry_
        connect_
        connector := { s.connector with connect_ := restarts } }
      called } registered :=
  h.switched _ _ _ _ s.timers hcalled (Nat.le_refl _) h.time h.past
    fun hpend => ⟨hpend.expired, hpend.later⟩

/-- An attempt of a client whose flags have changed. -/
theorem Tied.attempt (h : Tied t registered) {a : Attempt}
    (hstate : t.connector.state = .kDisconnected) (hchannel : t.connector.channel = none)
    (hwaiting : t.timers.waiting = []) (hfresh : t.Fresh a) (hcalled : t.called = true)
    (hconnect : t.connector.connect_ = true)
    (hsocket : t.connector.connectingSocket = s.connector.connectingSocket)
    (hmade : t.sockets = s.sockets) : Safe s (t.performConnector (t.connector.startInLoop a)) := by
  rw [Connector.startInLoop_connect hstate hconnect]
  obtain ⟨hstable, haccounted, hnew⟩ := h.connect hstate hchannel hwaiting hfresh hcalled
  exact safe_connector hstable haccounted hnew hsocket hmade

theorem safe_call (h : Tied s registered) {c : Call} (hc : s.Permitted (.call c)) :
    Safe s (s.call c) := by
  cases c with
  | connect a =>
      obtain ⟨huncalled, hfresh⟩ := hc
      obtain ⟨hstate, hchannel, hwaiting⟩ := h.uncalled huncalled
      have htied := h.flagged s.client.retry_ true true true (by simp)
      exact htied.attempt hstate hchannel hwaiting hfresh rfl rfl rfl rfl
  | disconnect =>
      have htied := h.flagged s.client.retry_ false s.connector.connect_ s.called id
      simp only [call, disconnect]
      split
      · exact safe_pure ⟨registered, htied⟩ rfl rfl
      · rename_i i hi
        obtain ⟨hstable, hsound, hledger, hmade⟩ := htied.userCall
          (fun hserving => TcpConnection.keeps_shutdown hserving)
          (fun hstate => TcpConnection.shutdown_disconnected hstate) i
        exact ⟨hstable, hsound, hledger, hmade⟩
  | stop =>
      refine safe_pure ⟨registered, ?_⟩ rfl rfl
      have hsublist := s.timers.waiting_cancel_sublist s.connector.timerId
      exact h.switched s.client.retry_ false false s.called (s.timers.cancel s.connector.timerId) id
        hsublist.length_le h.time h.past
        fun hpend => ⟨hpend.expired, fun t ht => hpend.later t (List.mem_of_mem_filter ht)⟩
  | enableRetry =>
      exact safe_pure
        ⟨registered, h.flagged true s.client.connect_ s.connector.connect_ s.called id⟩ rfl rfl
  | send i message r =>
      exact h.userCall (fun hserving => TcpConnection.keeps_send hserving message r)
        (fun hstate => TcpConnection.send_disconnected hstate message r) i
  | shutdown i =>
      exact h.userCall (fun hserving => TcpConnection.keeps_shutdown hserving)
        (fun hstate => TcpConnection.shutdown_disconnected hstate) i

/-! ## Events of the connector -/

/-- The event of an attempt: it goes on, is over, or leads to a connection. -/
theorem Tied.handleConnector (h : Tied s registered) {channel : Channel}
    (attempt : s.connector.Connecting registered channel) (hidle : s.Idle)
    (hphase : s.iteration.phase = .handling) (hinactive : .connector ∉ s.iteration.active)
    (status : SocketStatus) (ptr : ChannelPtr) : Safe s (s.handleConnector status ptr) := by
  obtain ⟨poller, hholds, hhandled⟩ := Connector.handleEvent_spec attempt status
  have haccounted := hhandled.accounted attempt
  generalize hx : s.connector.handleEvent status = x at hhandled haccounted
  cases h.mode with
  | resting hstate _ _ _ _ => exact absurd attempt.state hstate
  | trying channel' attempt' hapart hconnection hresets hwaiting =>
      obtain rfl : channel = channel' :=
        Option.some.inj (attempt.current.symm.trans attempt'.current)
      obtain ⟨hscheduled, hexpired⟩ := OneShots.waiting_eq_nil.mp hwaiting
      have hnone : ∀ t ∈ s.connector.timers.scheduled,
          s.iteration.began + kInitRetryDelay ≤ t.expiration := by
        intro t ht
        rw [show s.connector.timers.scheduled = [] from hscheduled] at ht
        simp at ht
      have hover : Tied { s.setConnector { s.connector with
            poller, channel := some (Connector.removed channel), state := .kConnected } with
          iteration := s.iteration.push [.resetChannel] }
          (Function.update registered channel.fd none) :=
        h.ended attempt hidle hphase hinactive hholds (by simp) (by simp) (fun _ => hwaiting)
          h.one hexpired hnone rfl h.delay
      cases hhandled with
      | goesOn =>
          rw [handleConnector_none (by rw [hx]; rfl), hx]
          refine safe_connector ⟨registered, ?_⟩ (Connector.accounted_pure _) (by simp) rfl rfl
          rw [performConnector_of_nil rfl]
          exact h
      | failed =>
          rw [handleConnector_none (by rw [hx]; rfl), hx]
          refine safe_connector ⟨Function.update registered channel.fd none, ?_⟩ haccounted
            (by simp) rfl rfl
          rw [performConnector_of_reset rfl]
          set after : Connector :=
            { s.connector with poller, channel := some (Connector.removed channel) }
          have hstate : (after.retry channel.fd).val.state = .kDisconnected := by simp
          obtain ⟨hone, -⟩ := Connector.retry_waiting (c := after) hwaiting channel.fd
          obtain ⟨hexpired', hlater⟩ := retry_later (c := after) hwaiting h.delay h.past channel.fd
          exact h.ended attempt hidle hphase hinactive (by rw [Connector.retry_poller]; exact hholds)
            (by simp [after]) (by simp) (fun hc => absurd (hstate.symm.trans hc) (by decide)) hone
            hexpired' hlater (after.retry_clock channel.fd)
            (Connector.retry_delay (c := after) h.delay channel.fd)
      | handedOver hconnect =>
          have hsome : handedOver (s.connector.handleEvent status).trace = some channel.fd := by
            rw [hx]
            rfl
          rw [handleConnector_some hsome, hx]
          set s₁ : ClientLoop := { s.setConnector { s.connector with
              poller, channel := some (Connector.removed channel), state := .kConnected } with
            iteration := s.iteration.push [.resetChannel] } with hs₁
          have hval : (s.performConnector ⟨{ s.connector with
              poller, channel := some (Connector.removed channel), state := .kConnected },
              [.queuedReset, .newConnectionCallback channel.fd]⟩).val = s₁ :=
            performConnector_of_reset rfl
          have hpending : s₁.Pending := by
            cases hover.mode with
            | trying _ attempt₁ _ _ _ _ => exact absurd attempt₁.state (by simp [hs₁, connector,
                ClientLoop.setConnector])
            | resting _ _ _ _ hpend =>
                exact hpend (by simp [hs₁, connector, ClientLoop.setConnector])
          obtain ⟨hstable, htrace, c, hconns, hfd⟩ := hover.newConnection hconnection rfl hpending
            (Function.update_self ..) hapart ptr
          refine ⟨?_, ?_, fun fd => ?_, ?_⟩
          · rw [Traced.bind_val, hval]
            exact hstable
          · rw [Traced.bind_trace, hval, htrace]
            intro e he
            rcases List.mem_append.mp he with he | he
            · exact isFailure_of_sound haccounted.sound e he
            · obtain rfl := List.mem_singleton.mp he
              rfl
          · rw [Traced.bind_trace, Traced.bind_val, hval, htrace]
            rw [connectorEvents_append, performConnector, connectorEvents_map_connector]
            have hafter : (s₁.newConnection channel.fd ptr).val.connector.beingConnected fd = 0 :=
              Connector.beingConnected_of_ne (by
                show s₁.connector.state ≠ .kConnecting
                simp [hs₁, connector, ClientLoop.setConnector]) fd
            rw [hafter]
            simpa [connectorEvents] using haccounted.ledger fd
          · rw [Traced.bind_trace, Traced.bind_val, hval, htrace]
            show (s₁.newConnection channel.fd ptr).val.conns.map _ = _
            rw [hconns, List.map_append, List.map_singleton, hfd]
            rfl
      | abandoned hconnect =>
          rw [handleConnector_none (by rw [hx]; rfl), hx]
          refine safe_connector ⟨Function.update registered channel.fd none, ?_⟩ haccounted
            (by simp) rfl rfl
          rw [performConnector_of_reset rfl]
          exact hover

/-! ## Events of a connection -/

/-- The next callback of a connection. -/
theorem Tied.callback (h : Tied s registered) {cb : ChannelCallback}
    {handling : List (Nat × ChannelCallback)} (hhandling : s.handling = (i, cb) :: handling)
    (input : TcpConnection.Input) :
    Safe s ({ s with handling }.callConn i fun c => c.handle input cb) := by
  obtain ⟨c, rest, rfl, hdue⟩ := h.owns.due hhandling
  have hchannel : s.connector.channel ≠ none → s.connector.state = .kConnecting := by
    intro hne
    by_contra hstate
    have hnil := (h.timed.pending hstate hne).handling
    simp [hhandling] at hnil
  have htied := h.handles hdue.phase hdue.rest fun hne => Or.inl (hchannel hne)
  set s₀ : ClientLoop := { s with handling := rest.map fun cb => (i, cb) } with hs₀
  have hi₀ : s₀.numbered i = some c := hdue.conn
  rw [callConn_of_numbered hi₀]
  by_cases hup : c.Up
  · have hserving := htied.hosting.serving hi₀ hup
    have hnone : s.connector.channel = none := by
      by_contra hne
      exact h.owns.resting_of_up hi₀ hup (hchannel hne)
    have hkeeps {x : Traced TcpConnection.Event TcpConnection}
        (hx : TcpConnection.Keeps (c.on s₀.poller) registered x) :
        Safe s (s₀.performConn i x) :=
      safe_conn hi₀ ⟨_, htied.keeps hi₀ hup hx⟩ hx.fd rfl rfl
    cases cb with
    | closeCallback => exact absurd rfl hdue.noClose.1
    | errorCallback =>
        exact hkeeps (TcpConnection.keeps_of_same hserving rfl rfl hserving.state
          TcpConnection.silent_nil.calm)
    | writeCallback => exact hkeeps (TcpConnection.keeps_handleWrite hserving input.write)
    | readCallback =>
        rcases TcpConnection.serving_handle hserving input .readCallback with hx | hx
        · exact hkeeps hx
        · exact safe_conn hi₀ ⟨_, htied.closes hi₀ hup hx hdue.phase hnone hdue.inactive rfl
            hdue.nodup hdue.noClose.2 hdue.first⟩ hx.fd rfl rfl
  · have hnothing : (c.on s₀.poller).handle input cb = pure (c.on s₀.poller) :=
      hdue.handle_down hup input
    rw [hnothing]
    exact safe_conn hi₀ ⟨_, htied.still hi₀⟩ rfl rfl rfl

/-- The connection that was closed is dropped, and the connector may be restarted. -/
theorem Tied.removeConnection (h : Tied s registered) (hclosing : s.closing = some i)
    {a : Attempt} (hfresh : s.Fresh a) :
    Safe s ({ s with closing := none }.removeConnection i a) := by
  obtain ⟨htied, hconnected, hchannel, hwaiting, hcalled⟩ := h.removed hclosing
  have hsocket : s.connector.connectingSocket = none := by
    simp [Connector.connectingSocket, hconnected]
  rw [removeConnection_eq (h.closing i hclosing)]
  split_ifs with hretry
  · have hrestarted := htied.restarted rfl hconnected hchannel hwaiting hcalled
    refine hrestarted.attempt rfl hchannel hwaiting hfresh hcalled rfl ?_ rfl
    rw [hsocket]
    exact if_neg (by simp [ClientLoop.setConnector, connector])
  · exact safe_pure ⟨registered, htied⟩ rfl rfl

/-! ## Steps -/

/-- The next channel handles its event. -/
theorem Tied.next (h : Tied s registered) {o : ClientChannel}
    {iteration : Iteration ClientChannel ClientFunctor}
    (hnext : s.iteration.next = some (o, iteration)) :
    Tied { s with iteration } registered ∧ iteration.phase = .handling ∧ o ∈ s.iteration.active ∧
      o ∉ iteration.active := by
  obtain ⟨howns, hphase', hmem, hinactive⟩ := h.owns.next hnext
  obtain ⟨hphase, hactive, heq⟩ := Iteration.next_eq_some.mp hnext
  have hbegan : iteration.began = s.iteration.began := by rw [heq]
  refine ⟨howns.tied (h.timed.moved ?_ ?_ ?_), hphase', hmem, hinactive⟩
  · intro _
    rw [hbegan]
    exact h.time (by simp [hphase])
  · rw [hbegan]
    exact h.past
  · intro _ _ hpend
    refine ⟨by show iteration.phase ≠ _; simp [hphase'], fun i hi => hpend.active i ?_,
      hpend.handling, hpend.closing, hpend.expired, ?_⟩
    · rw [hactive]
      exact List.mem_cons_of_mem _ hi
    · show ∀ t ∈ s.timers.scheduled, iteration.began + kInitRetryDelay ≤ t.expiration
      rw [hbegan]
      exact hpend.later

/-- A step that only moves on in the iteration. -/
theorem Tied.proceeds (h : Tied s registered) (hidle : s.Idle)
    {iteration : Iteration ClientChannel ClientFunctor}
    (hmoved : s.iteration.wake s.timers.clock = some iteration ∨
      s.iteration.swap = some iteration ∨ s.iteration.finish = some iteration) :
    Tied { s with iteration } registered := by
  refine (h.owns.proceeds hidle _ hmoved).tied ?_
  rcases hmoved with hstep | hstep | hstep
  · obtain ⟨hphase, rfl⟩ := Iteration.wake_eq_some.mp hstep
    refine h.timed.moved (fun _ => ?_) (Nat.le_refl _) fun _ _ hpend => absurd hphase hpend.phase
    exact Nat.lt_add_of_pos_right (by decide)
  · obtain ⟨hphase, -, rfl⟩ := Iteration.swap_eq_some.mp hstep
    exact h.timed.moved (fun _ => h.time (by simp [hphase])) h.past fun _ _ hpend =>
      ⟨by simp, hpend.active, hpend.handling, hpend.closing, hpend.expired, hpend.later⟩
  · obtain ⟨hphase, -, rfl⟩ := Iteration.finish_eq_some.mp hstep
    refine h.timed.moved (fun hnot => absurd rfl hnot) h.past fun hstate hchannel _ => ?_
    -- The batch has run the `resetChannel` that was queued before it.
    cases (h.owns.proceeds hidle 0 (Or.inr (Or.inr hstep))).attempting with
    | trying channel attempt _ _ _ => exact absurd attempt.state hstate
    | resting _ _ _ hpolled => exact absurd rfl (hpolled hchannel)

/-- The timers of a batch are over before any pending reset. -/
theorem Tied.runTimer (h : Tied s registered) {shot : Shot ClientTimer}
    (hshot : shot ∈ s.timers.expired) :
    Tied (s.setConnector { s.connector with timers := s.timers.run shot }) registered ∧
      s.connector.state = .kDisconnected ∧ s.connector.channel = none ∧
      (s.timers.run shot).waiting = [] ∧ s.called = true := by
  have hperm := OneShots.waiting_run hshot
  have hone := h.one
  have hlength := hperm.length_eq
  rw [List.length_cons] at hlength
  have hnil : (s.timers.run shot).waiting = [] :=
    List.length_eq_zero_iff.mp (by omega)
  have hsome : s.timers.waiting ≠ [] := by
    intro hnone
    rw [hnone] at hlength
    simp at hlength
  have hrun : Tied (s.setConnector { s.connector with timers := s.timers.run shot }) registered :=
    h.switched s.client.retry_ s.client.connect_ s.connector.connect_ s.called (s.timers.run shot)
      id (by omega) h.time h.past fun hpend => ⟨by simp [OneShots.run, hpend.expired], hpend.later⟩
  have hcalled : s.called = true := by
    by_contra hno
    exact hsome (h.uncalled (by simpa using hno)).2.2
  cases h.mode with
  | trying _ _ _ _ _ hwaiting => exact absurd hwaiting hsome
  | resting hstate _ _ hconnected hpend =>
      refine ⟨hrun, ?_, ?_, hnil, hcalled⟩
      · cases hs : s.connector.state with
        | kDisconnected => rfl
        | kConnecting => exact absurd hs hstate
        | kConnected => exact absurd (hconnected hs) hsome
      · by_contra hne
        have hexpired := (hpend hne).expired
        rw [hexpired] at hshot
        simp at hshot

/-- What a permitted step does is safe. -/
theorem safe_advance (h : Tied s registered) {l : Label} {x : Traced Event ClientLoop}
    (hl : s.Permitted l) (hx : s.advance l = some x) : Safe s x := by
  have hcases := advance_cases hx
  cases l with
  | call c =>
      rw [show x = s.call c from hcases]
      exact safe_call h hl
  | tick micros =>
      rw [show x = _ from hcases]
      refine safe_pure ⟨registered, ?_⟩ rfl rfl
      exact h.switched s.client.retry_ s.client.connect_ s.connector.connect_ s.called
        (s.timers.tick micros) id
        (Nat.le_refl _) hl (h.past.trans (Nat.le_add_right _ _))
        fun hpend => ⟨hpend.expired, hpend.later⟩
  | activate o revents =>
      cases o with
      | connector =>
          obtain ⟨channel, iteration, hchannel, -, hstep, rfl⟩ := hcases
          refine safe_pure (h.activated hchannel hstep) ?_ rfl
          show Connector.connectingSocket { s.connector with
            channel := some { channel with revents } } = s.connector.connectingSocket
          rw [Connector.connectingSocket, Connector.connectingSocket, hchannel]
          rfl
      | connection i =>
          obtain ⟨c, iteration, hi, hindex, -, hdeliverable, hstep, rfl⟩ := hcases
          refine safe_pure (h.activatedConn hi hindex hdeliverable hstep) rfl ?_
          exact sockets_performConn hi (x := ⟨{ c with channel := { c.channel with revents } }, []⟩)
            rfl
  | wake =>
      obtain ⟨hidle, iteration, hstep, rfl⟩ := hcases
      exact safe_pure ⟨registered, h.proceeds hidle (Or.inl hstep)⟩ rfl rfl
  | handleEvent status ptr =>
      obtain ⟨hidle, ⟨iteration, hnext, rfl⟩ | ⟨i, c, iteration, hnext, hi, rfl⟩⟩ := hcases
      · obtain ⟨htied, hphase, hmem, hinactive⟩ := h.next hnext
        cases h.mode with
        | resting _ hidle' _ _ _ => exact absurd hmem hidle'
        | trying channel attempt _ _ _ _ =>
            obtain ⟨hstable, hsound, hledger, hmade⟩ :=
              htied.handleConnector attempt hidle hphase hinactive status ptr
            exact ⟨hstable, hsound, hledger, hmade⟩
      · obtain ⟨htied, hphase, hmem, hinactive⟩ := h.next hnext
        obtain ⟨c', hi', hup, hclose⟩ := h.active i hmem
        obtain rfl := Option.some.inj (hi.symm.trans hi')
        refine safe_pure ⟨registered, htied.handles hphase (.event i c _ hi hinactive
          (Channel.nodup_handleEvent _) hclose (Or.inl hup)) fun hne => ?_⟩ rfl rfl
        cases h.mode with
        | trying _ attempt _ _ _ _ => exact Or.inl attempt.state
        | resting _ _ _ _ hpend => exact absurd hmem ((hpend hne).active i)
  | callback input =>
      obtain ⟨i, cb, handling, hhandling, -, rfl⟩ := hcases
      exact h.callback hhandling input
  | closeCallback a =>
      obtain ⟨i, hclosing, rfl⟩ := hcases
      exact h.removeConnection hclosing hl
  | expire =>
      obtain ⟨hphase, ⟨-, -, hexpired⟩, rfl⟩ := hcases
      refine safe_pure ⟨registered, ?_⟩ rfl rfl
      refine h.switched s.client.retry_ s.client.connect_ s.connector.connect_ s.called
        s.timers.handleRead id
        (OneShots.waiting_handleRead hexpired).length_eq.le h.time h.past fun hpend => ⟨?_, ?_⟩
      · -- The iteration is shorter than the delay of the timer.
        refine List.filter_eq_nil_iff.mpr fun t ht => ?_
        have htime := h.time (by simp [hphase])
        have hlater := hpend.later t ht
        simp only [decide_eq_true_eq]
        omega
      · exact fun t ht => hpend.later t (List.mem_of_mem_filter ht)
  | runTimer t a =>
      obtain ⟨hphase, hshot, hcallback⟩ := hcases
      obtain ⟨htied, hstate, hchannel, hwaiting, hcalled⟩ := h.runTimer hshot
      rcases hcallback with rfl | rfl
      · cases hconnect : s.connector.connect_ with
        | true => exact htied.attempt hstate hchannel hwaiting hl hcalled hconnect rfl rfl
        | false =>
            rw [Connector.startInLoop_idle (c := { s.connector with timers := s.timers.run t })
              hstate hconnect]
            refine safe_connector ⟨registered, ?_⟩ (Connector.accounted_pure _) (by simp) rfl rfl
            rw [performConnector_of_nil rfl]
            exact htied
      · exact safe_pure ⟨registered, htied⟩ rfl rfl
  | swap =>
      obtain ⟨hidle, iteration, hstep, rfl⟩ := hcases
      exact safe_pure ⟨registered, h.proceeds hidle (Or.inr (Or.inl hstep))⟩ rfl rfl
  | runFunctor =>
      obtain ⟨f, iteration, hnext, rfl⟩ := hcases
      cases f with
      | resetChannel =>
          obtain ⟨htied, hstate⟩ := h.resetChannel hnext
          refine safe_pure ⟨registered, htied⟩ ?_ rfl
          show (s.connector.resetChannel).connectingSocket = _
          rw [Connector.connectingSocket, Connector.connectingSocket, if_neg hstate, if_neg]
          exact hstate
      | connectionDestroyed i =>
          have hqueued := (h.turn.nextFunctor hnext).2
          have hsome : s.numbered i ≠ none := by
            intro hnone
            have hzero := h.unborn i hnone
            rw [queuedCount, hqueued, List.count_cons_self] at hzero
            simp at hzero
          obtain ⟨c, hi⟩ := Option.ne_none_iff_exists'.mp hsome
          obtain ⟨htied, hfd⟩ := h.destroyed hnext hi
          rw [invoke, callConn_of_numbered (s := { s with iteration }) hi]
          exact safe_conn (t := { s with iteration }) hi ⟨_, htied⟩ hfd rfl rfl
      | user i u =>
          exact safe_pure ⟨registered, h.nextFunctor hnext ⟨by simp, by simp⟩⟩ rfl rfl
  | finish =>
      obtain ⟨hidle, iteration, hstep, rfl⟩ := hcases
      exact safe_pure ⟨registered, h.proceeds hidle (Or.inr (Or.inr hstep))⟩ rfl rfl

/-- The step lemma: no assertion ends the step early. -/
theorem safe_step {l : Label} {es : List Event} (h : Stable s) (hl : s.Permitted l)
    (hstep : Step s l es t) : Safe s ⟨t, es⟩ := by
  obtain ⟨registered, htied⟩ := h
  obtain ⟨-, x, hx, heq⟩ := step_cases hstep
  have hsafe := safe_advance htied hl hx
  rw [untilFailure_of hsafe.sound] at heq
  rw [heq]
  exact hsafe

/-! ## Runs -/

/-- A property that at most one index has is counted once at most. -/
theorem countP_le_one {α : Type*} {p : α → Bool} {l : List α}
    (h : ∀ (i j : Nat) (a b : α), l[i]? = some a → l[j]? = some b →
      p a = true → p b = true → i = j) :
    l.countP p ≤ 1 := by
  induction l with
  | nil => simp
  | cons a l ih =>
      have htail : l.countP p ≤ 1 := by
        refine ih fun i j b c hb hc hpb hpc => ?_
        have heq := h (i + 1) (j + 1) b c hb hc hpb hpc
        omega
      rw [List.countP_cons]
      split_ifs with hpa
      · have hnone : l.countP p = 0 := by
          refine List.countP_eq_zero.mpr fun b hb hpb => ?_
          obtain ⟨j, hj⟩ := List.mem_iff_getElem?.mp hb
          have heq := h 0 (j + 1) a b rfl hj hpa hpb
          omega
        omega
      · exact htail

/-- The number of connections that are not down. -/
def upCount (s : ClientLoop) : Nat := s.conns.countP fun c => c.state ≠ .kDisconnected

/-- The number of sockets that are being connected. -/
def connectingCount (s : ClientLoop) : Nat := s.connector.connectingSocket.toList.length

theorem Stage.up_of_state (h : Stage s i c) (hstate : c.state ≠ .kDisconnected) : c.Up := by
  cases h with
  | up hup _ _ _ => exact hup
  | closing hdown _ _ _ => exact absurd hdown.state hstate
  | removed hdown _ _ => exact absurd hdown.state hstate
  | gone hgone _ _ => exact absurd hgone.state hstate

theorem Tied.at_most_one (h : Tied s registered) : s.connectingCount + s.upCount ≤ 1 := by
  have hup {i : Nat} {c : TcpConnection} (hi : s.conns[i]? = some c)
      (hstate : decide (c.state ≠ .kDisconnected) = true) : s.client.connection = some i :=
    ((h.stages i c hi).index_of_up
      ((h.stages i c hi).up_of_state (by simpa using hstate))).1
  cases h.mode with
  | trying channel attempt _ hconnection _ _ =>
      have hone : s.connectingCount = 1 := by
        simp [connectingCount, Connector.connectingSocket, attempt.state, attempt.current]
      have hnone : s.upCount = 0 := by
        refine List.countP_eq_zero.mpr fun c hc hstate => ?_
        obtain ⟨i, hi⟩ := List.mem_iff_getElem?.mp hc
        have hsome := hup hi hstate
        simp [hconnection] at hsome
      omega
  | resting hstate _ _ _ _ =>
      have hnone : s.connectingCount = 0 := by
        simp [connectingCount, Connector.connectingSocket, hstate]
      have hone : s.upCount ≤ 1 := by
        refine countP_le_one fun i j c d hi hj hc hd => ?_
        exact Option.some.inj ((hup hi hc).symm.trans (hup hj hd))
      omega

/-- Between the events of the loop the client has the connection that is up. -/
theorem Tied.connection_iff (h : Tied s registered) (hclosing : s.closing = none) (i : Nat) :
    s.client.connection = some i ↔ ∃ c, s.conns[i]? = some c ∧ c.state ≠ .kDisconnected := by
  constructor
  · intro hconnection
    obtain ⟨c, hi⟩ := Option.ne_none_iff_exists'.mp (h.connection i hconnection).1
    refine ⟨c, hi, ?_⟩
    cases h.stages i c hi with
    | up hup _ _ _ =>
        rcases hup.state with hstate | hstate <;> simp [hstate]
    | closing _ _ hcl _ => simp [hclosing] at hcl
    | removed _ hc _ => exact absurd hconnection hc
    | gone _ hc _ => exact absurd hconnection hc
  · rintro ⟨c, hi, hstate⟩
    have hstage := h.stages i c hi
    exact (hstage.index_of_up (hstage.up_of_state hstate)).1

/-- In every run in which `connect()` is called once and every iteration is shorter than the
first retry delay: at most one socket is being connected or belongs to a connection that is not
down; the client has the connection that is up; every socket that was made is being connected,
was closed by the connector, or was handed over; the connections are those that were handed
over; and no assertion of the connector or of `removeConnection` fails. -/
theorem at_most_one_connection {clock numCreated : Nat} {writeComplete : Bool} {ls : List Label}
    {es : List Event}
    (h : Run (restrict Permitted Step) (start clock numCreated writeComplete) ls es t) :
    t.connectingCount + t.upCount ≤ 1 ∧
      (t.closing = none → ∀ i, t.client.connection = some i ↔
        ∃ c, t.conns[i]? = some c ∧ c.state ≠ .kDisconnected) ∧
      (∀ fd, (connectorEvents es).count (.socket fd) =
        (connectorEvents es).count (.close fd) +
          (connectorEvents es).count (.newConnectionCallback fd) +
          if t.connector.connectingSocket = some fd then 1 else 0) ∧
      t.sockets = handed es ∧ ∀ e ∈ es, e.isFailure = false := by
  have hrun := h.history (I := fun past u => Stable u ∧
      (∀ fd, Connector.ledger (connectorEvents past) fd = u.connector.beingConnected fd) ∧
      u.sockets = handed past ∧ ∀ e ∈ past, e.isFailure = false)
    [] ⟨stable_start clock numCreated writeComplete, fun fd => by
      simp [start, TcpClient.create, Connector.create, connector], rfl, by simp⟩
    fun past u l es v hpast hstep => by
      obtain ⟨hstable, hledger, hmade, hsound⟩ := hpast
      have hsafe := safe_step hstable hstep.1 hstep.2
      refine ⟨hsafe.stable, fun fd => ?_, ?_, fun e he => ?_⟩
      · rw [connectorEvents_append, Connector.ledger_append, hledger, hsafe.ledger]
        show _ + (v.connector.beingConnected fd - _) = v.connector.beingConnected fd
        omega
      · rw [handed_append, ← hmade]
        exact hsafe.made
      · rcases List.mem_append.mp he with he | he
        · exact hsound e he
        · exact hsafe.sound e he
  rw [List.nil_append] at hrun
  obtain ⟨⟨registered, htied⟩, hledger, hmade, hsound⟩ := hrun
  refine ⟨htied.at_most_one, htied.connection_iff, fun fd => ?_, hmade, hsound⟩
  have hfd := hledger fd
  rw [Connector.ledger, Connector.beingConnected] at hfd
  split_ifs at hfd ⊢ <;> omega

/-- A refused attempt, a retry, and two connections, one after the other. -/
def reconnected : List Label :=
  [.call (.connect ⟨7, .EINPROGRESS, 1⟩), .call .enableRetry,
    .activate .connector (POLLERR ||| POLLOUT), .wake, .handleEvent ⟨111, false⟩ 2, .swap,
    .runFunctor, .finish,
    .tick 500001, .wake, .expire, .runTimer ⟨0, 500000, .startInLoop⟩ ⟨7, .EINPROGRESS, 3⟩, .swap,
    .finish,
    .activate .connector POLLOUT, .wake, .handleEvent ⟨0, false⟩ 4, .swap, .runFunctor, .finish,
    .activate (.connection 0) POLLIN, .wake, .handleEvent ⟨0, false⟩ 0,
    .callback ⟨some [], 0, .error false⟩, .closeCallback ⟨8, .EINPROGRESS, 5⟩, .swap, .runFunctor,
    .finish,
    .activate .connector POLLOUT, .wake, .handleEvent ⟨0, false⟩ 6, .call .disconnect]

theorem at_most_one_connection_reconnected :
    ∃ es t, Run (restrict Permitted Step) (start 0 0 false) reconnected es t ∧
      t.client.connection = some 1 ∧ t.sockets = [7, 8] ∧ t.connectingCount + t.upCount ≤ 1 := by
  obtain ⟨es, t, hrun, hconnection, hsockets⟩ : ∃ es t,
      Run (restrict Permitted Step) (start 0 0 false) reconnected es t ∧
        t.client.connection = some 1 ∧ t.sockets = [7, 8] :=
    Run.exists_of_exec_guarded _ (by decide +kernel)
  exact ⟨es, t, hrun, hconnection, hsockets, (at_most_one_connection hrun).1⟩

end ClientLoop
end Chaonet
