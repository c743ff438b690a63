import Chaonet.Relay.Members

/-!
# Flow control and closed clients

The callbacks of the flow control use `clientConn_`, which `teardown` resets, and they run after the
handlers of an iteration.  They find it set if the client is not closed while one of them is queued,
and if `serverConn_`, whose callback for a completed write `teardown` does not unset, is not drained
after that (`nullClient_not_mem`).

A tunnel waits for its client, has it, or has lost it (`Stage`).  The functors of the flow control
are queued in the second of these stages only, as long as all steps are `Permitted`.  A client that
closes in the iteration in which its output buffer reaches the high-water mark shows what happens
otherwise (`not_nullClient_not_mem`).
-/

namespace Chaonet

open Foundation

open TcpConnection (Unqueued Handled)

namespace Tunnel

variable {s t : Tunnel} {which : ServerClient} {x : Traced TcpConnection.Event TcpConnection}

/-! ## The stages -/

/-- Where a tunnel is with its client. -/
inductive Stage (s : Tunnel) : Prop
  /-- `newConnection` has not been called. -/
  | waiting (apart : s.clientConn = false ∧ s.context = false) (made : s.made = none)
      (unset : s.serverConn.writeCompleteCallback = false)
      (queue : ∀ f ∈ s.queued, f = .connectionDestroyed .kServer)
  | joined (clientConn : s.clientConn = true)
      (queue : .connectionDestroyed .kClient ∉ s.queued)
  /-- `teardown` has been called. -/
  | torn (apart : s.clientConn = false ∧ s.context = false) (c : TcpConnection)
      (made : s.made = some c) (down : c.state = .kDisconnected ∧ ¬c.channel.isWriting)
      (server : s.serverConn.state ≠ .kConnected) (queue : ∀ f ∈ s.queued, f.isFlow = false)

/-- The connection of the client stays, or stays away. -/
structure Steady (s t : Tunnel) : Prop where
  none : s.made = none → t.made = none
  down : ∀ c, s.made = some c → c.state = .kDisconnected ∧ ¬c.channel.isWriting →
    ∃ c', t.made = some c' ∧ c'.state = .kDisconnected ∧ ¬c'.channel.isWriting

/-- What the stage depends on has not changed. -/
structure Keeps (s t : Tunnel) : Prop where
  clientConn : t.clientConn = s.clientConn
  context : t.context = s.context
  made : Steady s t
  server : s.serverConn.state ≠ .kConnected → t.serverConn.state ≠ .kConnected
  unset : t.serverConn.writeCompleteCallback = s.serverConn.writeCompleteCallback
  queued : ∀ f ∈ t.queued, f ∈ s.queued ∨ f = .connectionDestroyed .kServer

theorem Keeps.stage (h : Keeps s t) (hstage : Stage s) : Stage t := by
  cases hstage with
  | waiting apart made unset queue =>
      refine .waiting ⟨h.clientConn.trans apart.1, h.context.trans apart.2⟩ (h.made.none made)
        (h.unset.trans unset) fun f hf => ?_
      exact (h.queued f hf).elim (queue f) id
  | joined clientConn queue =>
      refine .joined (h.clientConn.trans clientConn) fun hf => ?_
      exact (h.queued _ hf).elim queue nofun
  | torn apart c made down server queue =>
      obtain ⟨c', hmade, hdown⟩ := h.made.down c made down
      refine .torn ⟨h.clientConn.trans apart.1, h.context.trans apart.2⟩ c' hmade hdown
        (h.server server) fun f hf => ?_
      rcases h.queued f hf with hbefore | rfl
      · exact queue f hbefore
      · rfl

theorem Steady.of_eq (h : t.made = s.made) : Steady s t :=
  ⟨fun hnone => h.trans hnone, fun c hc hdown => ⟨c, h.trans hc, hdown⟩⟩

theorem Steady.trans {u : Tunnel} (h : Steady s t) (h' : Steady t u) : Steady s u := by
  refine ⟨fun hnone => h'.none (h.none hnone), fun c hc hdown => ?_⟩
  obtain ⟨c', hc', hdown'⟩ := h.down c hc hdown
  exact h'.down c' hc' hdown'

theorem Keeps.refl (s : Tunnel) : Keeps s s :=
  ⟨rfl, rfl, .of_eq rfl, id, rfl, fun _ => .inl⟩

theorem Keeps.trans {u : Tunnel} (h : Keeps s t) (h' : Keeps t u) : Keeps s u := by
  refine ⟨h'.clientConn.trans h.clientConn, h'.context.trans h.context, h.made.trans h'.made,
    fun hserver => h'.server (h.server hserver), h'.unset.trans h.unset, fun f hf => ?_⟩
  rcases h'.queued f hf with hbefore | hdestroyed
  · exact h.queued f hbefore
  · exact .inr hdestroyed

theorem Keeps.bind {y : Traced Event Tunnel} {use : Tunnel → Traced Event Tunnel}
    (h : Keeps s y.val) (h' : Keeps y.val (use y.val).val) : Keeps s (y >>= use).val :=
  h.trans h'

/-- A member of `serverConn_` that queues nothing. -/
theorem keeps_perform_server (hqueued : Unqueued x.trace)
    (hstate : s.serverConn.state ≠ .kConnected → x.val.state ≠ .kConnected)
    (hunset : x.val.writeCompleteCallback = s.serverConn.writeCompleteCallback) :
    Keeps s (s.perform .kServer x).val := by
  refine ⟨rfl, rfl, .of_eq rfl, hstate, hunset, fun f hf => .inl ?_⟩
  rwa [perform_queued, queuedBy_of_unqueued hqueued, List.append_nil] at hf

/-- A member of the connection of the client that queues nothing. -/
theorem keeps_perform_client {c : TcpConnection} (hmade : s.made = some c)
    (hqueued : Unqueued x.trace) (hdown : c.state = .kDisconnected ∧ ¬c.channel.isWriting →
      x.val.state = .kDisconnected ∧ ¬x.val.channel.isWriting) :
    Keeps s (s.perform .kClient x).val := by
  refine ⟨rfl, rfl, ⟨fun hnone => ?_, fun d hd hdead => ?_⟩, id, rfl, fun f hf => .inl ?_⟩
  · rw [hmade] at hnone
    exact absurd hnone (Option.some_ne_none c)
  · obtain rfl := Option.some.inj (hmade.symm.trans hd)
    exact ⟨x.val, rfl, hdown hdead⟩
  · rwa [perform_queued, queuedBy_of_unqueued hqueued, List.append_nil] at hf

theorem keeps_disconnect (s : Tunnel) : Keeps s s.disconnect.val := by
  unfold disconnect call conn?
  dsimp only
  split_ifs
  · cases hmade : s.made with
    | none => exact .refl s
    | some c =>
        refine keeps_perform_client hmade (TcpConnection.unqueued_shutdown _) fun hdown => ?_
        have hsame : (c.on s.poller).shutdown = pure (c.on s.poller) :=
          TcpConnection.shutdown_disconnected hdown.1
        dsimp only
        rw [hsame]
        exact hdown
  · exact .refl s

/-- `onServerConnection` for a connection that is down. -/
theorem keeps_onDown_server (s : Tunnel) : Keeps s (s.onDown .kServer).val := by
  simp only [onDown, Traced.bind_val]
  split_ifs
  · obtain ⟨hclient, hcontext, hmade, hserver, hunset, hqueued⟩ := s.keeps_disconnect
    exact ⟨hclient, hcontext, ⟨hmade.none, hmade.down⟩, hserver, hunset, hqueued⟩
  · exact .refl s

theorem keeps_removeConnection_server (s : Tunnel) :
    Keeps s (s.removeConnection .kServer).val := by
  refine ⟨rfl, rfl, .of_eq rfl, id, rfl, fun f hf => ?_⟩
  have hpushed : (s.removeConnection .kServer).val.queued =
      s.queued ++ [.connectionDestroyed .kServer] := Iteration.queued_push _ _
  rw [hpushed, List.mem_append, List.mem_singleton] at hf
  exact hf

/-! ## What is shown -/

theorem set_call (s : Tunnel) (which : ServerClient)
    (member : TcpConnection → Traced TcpConnection.Event TcpConnection) :
    .nullClient ∉ (s.call which member).trace :=
  (flows_call s which member).set

theorem set_onDown (s : Tunnel) (which : ServerClient) : .nullClient ∉ (s.onDown which).trace := by
  cases which with
  | kServer =>
      simp only [onDown, Traced.bind_trace, List.mem_append, Traced.mem_check_trace, not_or]
      refine ⟨by simp, ?_⟩
      split_ifs
      · unfold disconnect
        split_ifs
        · simpa using set_call s .kClient _
        · simp
      · simp
  | kClient => simpa [onDown, teardown] using set_call _ .kServer _

theorem set_removeConnection (s : Tunnel) (which : ServerClient) :
    .nullClient ∉ (s.removeConnection which).trace := by
  cases which <;> simp [removeConnection, Traced.mem_check_trace]

/-- A callback that closes a connection. -/
theorem set_close (s : Tunnel) (which : ServerClient)
    (x : Traced TcpConnection.Event TcpConnection) :
    .nullClient ∉ (s.perform which x >>= fun s => s.onDown which >>= fun s =>
      s.removeConnection which).trace := by
  simp only [Traced.bind_trace, List.mem_append, not_or]
  exact ⟨(flows_perform s which x).set, set_onDown _ _, set_removeConnection _ _⟩

/-- A step that ends in one of the stages, with `clientConn_` set where it was used. -/
structure Safe (x : Traced Event Tunnel) : Prop where
  stage : Stage x.val
  set : .nullClient ∉ x.trace

theorem Keeps.safe {y : Traced Event Tunnel} (h : Keeps s y.val) (hstage : Stage s)
    (hset : .nullClient ∉ y.trace) : Safe y :=
  ⟨h.stage hstage, hset⟩

theorem Flows.safe {y : Traced Event Tunnel} (h : Flows s y) (hclient : s.clientConn = true)
    (hqueue : .connectionDestroyed .kClient ∉ s.queued) : Safe y := by
  refine ⟨.joined (h.clientConn.trans hclient) fun hf => ?_, h.set⟩
  exact (h.queued _ hf).elim hqueue (by simp [TunnelFunctor.isFlow])

/-- What follows a step and does nothing. -/
theorem Safe.bind_pure {y : Traced Event Tunnel} {use : Tunnel → Traced Event Tunnel} (h : Safe y)
    (hstill : use y.val = pure y.val) : Safe (y >>= use) := by
  constructor
  · rw [Traced.bind_val, hstill]
    exact h.stage
  · rw [Traced.bind_trace, hstill]
    exact fun hm => (List.mem_append.mp hm).elim h.set List.not_mem_nil

/-- The tunnel has its client, or has none and no functor of the flow control is queued. -/
theorem Stage.joined_or_apart (h : Stage s) :
    (s.clientConn = true ∧ .connectionDestroyed .kClient ∉ s.queued) ∨
      s.clientConn = false ∧ s.context = false ∧ ∀ f ∈ s.queued, f.isFlow = false := by
  cases h with
  | waiting apart _ _ queue =>
      refine .inr ⟨apart.1, apart.2, fun f hf => ?_⟩
      rw [queue f hf]
      rfl
  | joined clientConn queue => exact .inl ⟨clientConn, queue⟩
  | torn apart _ _ _ _ queue => exact .inr ⟨apart.1, apart.2, queue⟩

/-! ## Callbacks of `serverConn_` -/

/-- `serverConn_` is closed. -/
theorem keeps_close_server (hqueued : Unqueued x.trace) (hstate : x.val.state = .kDisconnected)
    (hunset : x.val.writeCompleteCallback = s.serverConn.writeCompleteCallback) :
    Keeps s (s.perform .kServer x >>= fun s => s.onDown .kServer >>= fun s =>
      s.removeConnection .kServer).val := by
  have hperform := keeps_perform_server hqueued (fun _ => by simp [hstate]) hunset
  exact hperform.bind ((keeps_onDown_server _).bind (keeps_removeConnection_server _))

/-- A callback of the channel of `serverConn_`. -/
theorem Stage.server {read : Option Bytes} {write : WriteResult} {cb : ChannelCallback}
    (hstage : Stage s) (h : Handled (s.serverConn.on s.poller) read write cb x)
    (hdrained : cb = .writeCallback → s.clientConn = false →
      s.serverConn.writeCompleteCallback = true → ¬s.serverConn.DrainedBy write) :
    Safe (s.react .kServer x write) := by
  have hset := (flows_perform s .kServer x).set
  cases h with
  | still same _ queued hmessage hdown hclose =>
      rw [react_still s .kServer write hmessage hdown hclose]
      rcases hstage.joined_or_apart with ⟨hclient, hqueue⟩ | ⟨hclient, -, -⟩
      · exact (flows_perform s .kServer x).safe hclient hqueue
      · -- What is drained has no callback for it.
        have hunqueued : Unqueued x.trace := by
          rcases queued with hunqueued | ⟨rfl, hcallback, hdrains⟩
          · exact hunqueued
          · exact absurd hdrains (hdrained rfl hclient hcallback)
        have hstate : s.serverConn.state ≠ .kConnected → x.val.state ≠ .kConnected := by
          rw [same.1]
          exact id
        exact (keeps_perform_server hunqueued hstate same.2).safe hstage hset
  | message same _ queued hmessage hdown hclose =>
      rw [react_message s .kServer write hmessage hdown hclose]
      rcases hstage.joined_or_apart with ⟨hclient, hqueue⟩ | ⟨-, hcontext, -⟩
      · exact ((flows_perform s .kServer x).bind (flows_onMessage _ write .kServer)).safe hclient
          hqueue
      · have hstate : s.serverConn.state ≠ .kConnected → x.val.state ≠ .kConnected := by
          rw [same.1]
          exact id
        -- Without a context the bytes stay in the input buffer.
        refine ((keeps_perform_server queued hstate same.2).safe hstage hset).bind_pure ?_
        rw [onMessage, perform_context, hcontext]
        rfl
  | close _ same _ queued hmessage hdown hclose =>
      rw [react_close s .kServer write hmessage hdown hclose]
      exact (keeps_close_server queued same.1 same.2).safe hstage (set_close s .kServer x)

/-! ## Callbacks of the connection of the client -/

theorem shutdown_state (c : TcpConnection) : c.shutdown.val.state ≠ .kConnected := by
  unfold TcpConnection.shutdown
  split_ifs with hstate
  · simp
  · exact hstate

/-- The client is closed. -/
theorem stage_close_client (hqueued : Unqueued x.trace)
    (hdown : x.val.state = .kDisconnected ∧ ¬x.val.channel.isWriting)
    (hunflowing : ∀ f ∈ s.queued, f.isFlow = false) :
    Stage (s.perform .kClient x >>= fun s => s.onDown .kClient >>= fun s =>
      s.removeConnection .kClient).val := by
  -- `teardown` shuts `serverConn_` down, which queues nothing.
  refine .torn ⟨rfl, rfl⟩ x.val rfl hdown (shutdown_state _) fun f hf => ?_
  have hqueue : (s.perform .kClient x >>= fun s => s.onDown .kClient >>= fun s =>
      s.removeConnection .kClient).val.queued =
        s.queued ++ queuedBy .kClient x.trace ++
          queuedBy .kServer (s.serverConn.on x.val.poller).shutdown.trace ++
            [.connectionDestroyed .kClient] := by
    simp only [queued, ← Iteration.queued_push]
    rfl
  rw [hqueue, queuedBy_of_unqueued hqueued, List.append_nil,
    queuedBy_of_unqueued (TcpConnection.unqueued_shutdown _), List.append_nil] at hf
  rcases List.mem_append.mp hf with hbefore | hdestroyed
  · exact hunflowing f hbefore
  · rw [List.mem_singleton.mp hdestroyed]
    rfl

theorem sendBuffer_of_shut {source : ServerClient} {r : WriteResult}
    (h : s.serverConn.state ≠ .kConnected) : s.sendBuffer source .kServer r = pure s := by
  unfold sendBuffer
  cases s.conn? source with
  | none => rfl
  | some c => exact if_neg h

/-- A callback of the channel of the connection of the client. -/
theorem Stage.client {read : Option Bytes} {write : WriteResult} {cb : ChannelCallback}
    {c : TcpConnection} (hstage : Stage s) (hmade : s.made = some c)
    (h : Handled (c.on s.poller) read write cb x)
    (hclosed : cb = .closeCallback ∨ cb = .readCallback ∧ read = some [] →
      ∀ f ∈ s.queued, f.isFlow = false) : Safe (s.react .kClient x write) := by
  have hset := (flows_perform s .kClient x).set
  cases h with
  | still same writing queued hmessage hdown hclose =>
      rw [react_still s .kClient write hmessage hdown hclose]
      cases hstage with
      | waiting _ hnone => exact absurd (hmade.symm.trans hnone) (Option.some_ne_none c)
      | joined clientConn queue => exact (flows_perform s .kClient x).safe clientConn queue
      | torn apart d hd down server queue =>
          obtain rfl := Option.some.inj (hmade.symm.trans hd)
          have hunqueued : Unqueued x.trace := by
            rcases queued with hunqueued | ⟨-, -, hdrains⟩
            · exact hunqueued
            · exact absurd hdrains.1 down.2
          refine (keeps_perform_client hmade hunqueued fun hdead => ?_).safe
            (.torn apart c hd down server queue) hset
          exact ⟨same.1.trans hdead.1, writing hdead.2⟩
  | message same writing queued hmessage hdown hclose =>
      rw [react_message s .kClient write hmessage hdown hclose]
      cases hstage with
      | waiting _ hnone => exact absurd (hmade.symm.trans hnone) (Option.some_ne_none c)
      | joined clientConn queue =>
          exact ((flows_perform s .kClient x).bind (flows_onMessage _ write .kClient)).safe
            clientConn queue
      | torn apart d hd down server queue =>
          obtain rfl := Option.some.inj (hmade.symm.trans hd)
          have hperform := keeps_perform_client hmade queued fun hdead =>
            ⟨same.1.trans hdead.1, writing ▸ hdead.2⟩
          -- `serverConn_` has been shut down, so that `send` does nothing.
          refine (hperform.safe (.torn apart c hd down server queue) hset).bind_pure ?_
          rw [onMessage]
          exact sendBuffer_of_shut (hperform.server server)
  | close cause same idle queued hmessage hdown hclose =>
      rw [react_close s .kClient write hmessage hdown hclose]
      have hidle := Channel.not_isWriting_of_isNoneEvent idle
      exact ⟨stage_close_client queued ⟨same.1, hidle⟩ (hclosed cause), set_close s .kClient x⟩

/-! ## The new connection -/

theorem adds_onClientUp (s : Tunnel) (r : WriteResult) : Adds s (s.onClientUp r) := by
  unfold onClientUp
  refine ((flows_call _ .kServer _).toAdds.bind ?_).of_same (modify_queued s .kClient _)
  dsimp only
  split_ifs
  · exact (flows_sendBuffer _ .kServer .kClient r).toAdds.of_same rfl
  · exact adds_pure rfl

theorem onClientUp_clientConn (s : Tunnel) (r : WriteResult) :
    (s.onClientUp r).val.clientConn = true := by
  simp only [onClientUp, Traced.bind_val]
  split_ifs
  · exact (flows_sendBuffer _ .kServer .kClient r).clientConn
  · rfl

theorem Stage.newConnection (hstage : Stage s) (hnone : s.made = none) (sockfd : Int)
    (ptr : ChannelPtr) (r : WriteResult) : Safe (s.newConnection sockfd ptr r) := by
  have hqueue : .connectionDestroyed .kClient ∉ s.queued := by
    cases hstage with
    | waiting _ _ _ queue => exact fun hf => nomatch queue _ hf
    | joined _ queue => exact queue
    | torn _ c hc => exact absurd (hc.symm.trans hnone) (Option.some_ne_none c)
  have hadds : Adds s (s.newConnection sockfd ptr r) :=
    ((flows_call _ .kClient _).toAdds.bind (adds_onClientUp _ r)).of_same rfl
  refine ⟨.joined (onClientUp_clientConn _ r) fun hf => ?_, hadds.set⟩
  exact (hadds.queued _ hf).elim hqueue (by simp [TunnelFunctor.isFlow])

/-! ## The functors -/

theorem connectionDestroyed_told (c : TcpConnection) :
    .messageCallback ∉ c.connectionDestroyed.trace ∧
      .closeCallback ∉ c.connectionDestroyed.trace ∧
      (c.state ≠ .kConnected → .connectionCallback false ∉ c.connectionDestroyed.trace) := by
  by_cases hstate : c.state = .kConnected
  · simp [TcpConnection.connectionDestroyed, TcpConnection.updateChannel,
      TcpConnection.removeChannel, hstate]
  · simp [TcpConnection.connectionDestroyed, TcpConnection.removeChannel, hstate]

theorem connectionDestroyed_writeComplete (c : TcpConnection) :
    c.connectionDestroyed.val.writeCompleteCallback = c.writeCompleteCallback := by
  by_cases hstate : c.state = .kConnected
  · simp [TcpConnection.connectionDestroyed, TcpConnection.updateChannel,
      TcpConnection.removeChannel, hstate]
  · simp [TcpConnection.connectionDestroyed, TcpConnection.removeChannel, hstate]

theorem Stage.connectionDestroyed_server (hstage : Stage s) (r : WriteResult) :
    Safe (s.react .kServer (s.serverConn.on s.poller).connectionDestroyed r) := by
  obtain ⟨hmessage, hclose, -⟩ := connectionDestroyed_told (s.serverConn.on s.poller)
  have hset := (flows_perform s .kServer (s.serverConn.on s.poller).connectionDestroyed).set
  have hperform : Keeps s
      (s.perform .kServer (s.serverConn.on s.poller).connectionDestroyed).val := by
    refine keeps_perform_server (TcpConnection.unqueued_connectionDestroyed _) (fun hstate => ?_)
      (connectionDestroyed_writeComplete _)
    rcases TcpConnection.connectionDestroyed_state (s.serverConn.on s.poller) with hsame | hdead
    · rw [hsame]
      exact hstate
    · simp [hdead]
  by_cases hdown : .connectionCallback false ∈ (s.serverConn.on s.poller).connectionDestroyed.trace
  · rw [react_down s .kServer r hmessage hdown hclose]
    refine (hperform.bind (keeps_onDown_server _)).safe hstage fun hm => ?_
    exact (List.mem_append.mp hm).elim hset (set_onDown _ _)
  · rw [react_still s .kServer r hmessage hdown hclose]
    exact hperform.safe hstage hset

theorem Stage.connectionDestroyed_client (hstage : Stage s) {c : TcpConnection}
    (hmade : s.made = some c) (hclient : s.clientConn = false) (r : WriteResult) :
    Safe (s.react .kClient (c.on s.poller).connectionDestroyed r) := by
  cases hstage with
  | waiting _ hnone => exact absurd (hmade.symm.trans hnone) (Option.some_ne_none c)
  | joined clientConn => exact absurd (clientConn.symm.trans hclient) Bool.noConfusion
  | torn apart d hd down server queue =>
      obtain rfl := Option.some.inj (hmade.symm.trans hd)
      have hstate : (c.on s.poller).state ≠ .kConnected := by
        rw [show (c.on s.poller).state = .kDisconnected from down.1]
        decide
      obtain ⟨hmessage, hclose, hdown⟩ := connectionDestroyed_told (c.on s.poller)
      rw [react_still s .kClient r hmessage (hdown hstate) hclose]
      refine (keeps_perform_client hmade (TcpConnection.unqueued_connectionDestroyed _)
        fun hdead => ?_).safe (.torn apart c hd down server queue)
        (flows_perform s .kClient _).set
      -- The channel is taken out of the poller as it is.
      have hval : (c.on s.poller).connectionDestroyed = (c.on s.poller).removeChannel := by
        simp [TcpConnection.connectionDestroyed, hstate]
      rw [hval]
      refine ⟨hdead.1, ?_⟩
      have hchannel : (c.on s.poller).removeChannel.val.channel =
          { c.channel with index := kNew } := EPoller.removeChannel_snd s.poller c.channel
      rw [hchannel]
      exact hdead.2

/-- A functor that has been queued. -/
theorem Stage.invoke (hstage : Stage s) {f : TunnelFunctor} {u : Tunnel}
    (hkeeps : Keeps s u) (hf : f ∈ s.queued) : Safe (u.invoke f) := by
  have hstage' := hkeeps.stage hstage
  cases f with
  | connectionDestroyed which =>
      cases which with
      | kServer => exact hstage'.connectionDestroyed_server _
      | kClient =>
          have hclient : u.clientConn = false := by
            rcases hstage.joined_or_apart with ⟨-, hqueue⟩ | ⟨hclient, -, -⟩
            · exact absurd hf hqueue
            · exact hkeeps.clientConn.trans hclient
          cases hmade : u.made with
          | none =>
              rw [Tunnel.invoke, conn?, hmade]
              exact ⟨hstage', List.not_mem_nil⟩
          | some c =>
              rw [Tunnel.invoke, conn?, hmade]
              exact hstage'.connectionDestroyed_client hmade hclient _
  | flow which g =>
      -- While `clientConn_` is null no such functor is queued.
      rcases hstage.joined_or_apart with ⟨hclient, hqueue⟩ | ⟨-, -, hunflowing⟩
      · have hclient' : u.clientConn = true := hkeeps.clientConn.trans hclient
        have hqueue' : .connectionDestroyed .kClient ∉ u.queued := fun hm =>
          (hkeeps.queued _ hm).elim hqueue nofun
        unfold Tunnel.invoke
        dsimp only
        split_ifs
        · cases g with
          | writeCompleteCallback =>
              exact (flows_onWriteComplete hclient' which).safe hclient' hqueue'
          | highWaterMarkCallback len =>
              exact (flows_onHighWaterMark hclient' which).safe hclient' hqueue'
        · exact ⟨hstage', List.not_mem_nil⟩
      · exact absurd (hunflowing _ hf) (by simp [TunnelFunctor.isFlow])

/-! ## Steps -/

/-- The client is not closed while a functor of the flow control is queued, and after that
`serverConn_` is not drained if it has a callback for this. -/
def Permitted (s : Tunnel) : Label → Prop
  | .callback read write =>
      match s.handling with
      | (.kServer, .writeCallback) :: _ => s.clientConn = false →
          s.serverConn.writeCompleteCallback = true → ¬s.serverConn.DrainedBy write
      | (.kClient, cb) :: _ => cb = .closeCallback ∨ cb = .readCallback ∧ read = some [] →
          ∀ f ∈ s.queued, f.isFlow = false
      | _ => True
  | _ => True

instance (s : Tunnel) : ∀ l, Decidable (s.Permitted l)
  | .callback read write =>
      match h : s.handling with
      | (.kServer, .writeCallback) :: _ =>
          decidable_of_iff (s.clientConn = false → s.serverConn.writeCompleteCallback = true →
            ¬s.serverConn.DrainedBy write) (by simp only [Permitted, h])
      | (.kClient, cb) :: _ =>
          decidable_of_iff (cb = .closeCallback ∨ cb = .readCallback ∧ read = some [] →
            ∀ f ∈ s.queued, f.isFlow = false) (by simp only [Permitted, h])
      | [] | (.kServer, .closeCallback) :: _ | (.kServer, .errorCallback) :: _
      | (.kServer, .readCallback) :: _ => isTrue (by simp only [Permitted, h])
  | .activate .. | .wake | .handleEvent | .newConnection .. | .swap | .runFunctor | .finish =>
      isTrue trivial

/-- The iteration goes on. -/
theorem keeps_moved (s : Tunnel) {iteration : Iteration ServerClient TunnelFunctor}
    (hqueue : ∀ f ∈ iteration.queue.queued, f ∈ s.queued) (functors : List TunnelFunctor)
    (handling : List (ServerClient × ChannelCallback)) :
    Keeps s { s with iteration, functors, handling } :=
  ⟨rfl, rfl, .of_eq rfl, id, rfl, fun f hf => .inl (hqueue f hf)⟩

/-- `poll` sets `revents_`. -/
theorem keeps_revents {c : TcpConnection} (hc : s.conn? which = some c) (revents : EventMask) :
    Keeps s (s.setConn which { c with channel := { c.channel with revents } }) := by
  cases which with
  | kServer =>
      obtain rfl := Option.some.inj hc
      exact ⟨rfl, rfl, .of_eq rfl, id, rfl, fun _ => .inl⟩
  | kClient =>
      obtain ⟨d, hd, rfl⟩ := Option.map_eq_some_iff.mp hc
      refine ⟨rfl, rfl, ⟨fun hnone => ?_, fun d' hd' hdead => ?_⟩, id, rfl, fun _ => .inl⟩
      · exact absurd (hd.symm.trans hnone) (Option.some_ne_none d)
      · obtain rfl := Option.some.inj (hd.symm.trans hd')
        exact ⟨_, rfl, hdead⟩

theorem Keeps.safe_pure (h : Keeps s t) (hstage : Stage s) : Safe (pure t) :=
  ⟨h.stage hstage, List.not_mem_nil⟩

/-- The next callback of an event. -/
theorem Stage.callback (hstage : Stage s) {read : Option Bytes} {write : WriteResult}
    (hpermitted : s.Permitted (.callback read write)) {y : Traced Event Tunnel}
    (hstep : s.step (.callback read write) = some y) : Safe y := by
  simp only [Tunnel.step] at hstep
  split at hstep
  · simp at hstep
  · rename_i which cb handling hhandling
    obtain ⟨c, hc, rfl⟩ := Option.map_eq_some_iff.mp hstep
    have hhandled := TcpConnection.handled_handle c read write cb
    have hstage' : Stage { s with handling } := (keeps_moved s (fun _ => id) _ _).stage hstage
    cases which with
    | kServer =>
        obtain rfl := Option.some.inj hc
        refine hstage'.server hhandled ?_
        rintro rfl
        simpa only [Permitted, hhandling] using hpermitted
    | kClient =>
        obtain ⟨d, hd, rfl⟩ := Option.map_eq_some_iff.mp hc
        simp only [Permitted, hhandling] at hpermitted
        exact Stage.client (s := { s with handling }) hstage' hd hhandled hpermitted

theorem Stage.step (hstage : Stage s) {l : Label} {es : List Event} (hpermitted : s.Permitted l)
    (hstep : Step s l es t) : Safe ⟨t, es⟩ := by
  have hstep : s.step l = some ⟨t, es⟩ := hstep
  cases l with
  | activate which revents =>
      simp only [Tunnel.step] at hstep
      split at hstep
      · simp at hstep
      · rename_i c hc
        split_ifs at hstep
        obtain ⟨iteration, hiteration, heq⟩ := Option.map_eq_some_iff.mp hstep
        obtain ⟨-, -, rfl⟩ := Iteration.activate_eq_some.mp hiteration
        rw [← heq]
        have hrevents := keeps_revents hc revents
        refine (hrevents.trans (keeps_moved _ ?_ _ _)).safe_pure hstage
        rw [setConn_queued]
        exact fun _ => id
  | wake =>
      simp only [Tunnel.step] at hstep
      split_ifs at hstep
      obtain ⟨iteration, hiteration, heq⟩ := Option.map_eq_some_iff.mp hstep
      obtain ⟨-, rfl⟩ := Iteration.wake_eq_some.mp hiteration
      rw [← heq]
      refine (keeps_moved s ?_ _ _).safe_pure hstage
      exact fun _ => id
  | handleEvent =>
      simp only [Tunnel.step] at hstep
      split_ifs at hstep
      split at hstep
      · simp at hstep
      · rename_i which iteration hnext
        obtain ⟨c, -, heq⟩ := Option.map_eq_some_iff.mp hstep
        obtain ⟨-, -, hiteration⟩ := Iteration.next_eq_some.mp hnext
        rw [← heq]
        refine (keeps_moved s (fun f hf => ?_) _ _).safe_pure hstage
        rw [hiteration] at hf
        exact hf
  | callback read write => exact hstage.callback hpermitted hstep
  | newConnection sockfd ptr write =>
      simp only [Tunnel.step] at hstep
      split_ifs at hstep with henabled
      rw [← Option.some.inj hstep]
      exact hstage.newConnection (Option.isNone_iff_eq_none.mp henabled.2.2.1) sockfd ptr write
  | swap =>
      simp only [Tunnel.step] at hstep
      split_ifs at hstep
      obtain ⟨iteration, hiteration, heq⟩ := Option.map_eq_some_iff.mp hstep
      obtain ⟨-, -, rfl⟩ := Iteration.swap_eq_some.mp hiteration
      rw [← heq]
      refine (keeps_moved s (fun f hf => ?_) _ _).safe_pure hstage
      -- The batch is what was pending.
      have hpending : f ∈ s.iteration.queue.pending := by
        simpa [BatchQueue.queued, BatchQueue.swap] using hf
      exact List.mem_append_right _ hpending
  | runFunctor =>
      obtain ⟨⟨f, iteration⟩, hnext, heq⟩ := Option.map_eq_some_iff.mp hstep
      obtain ⟨-, rest, hbatch, rfl⟩ := Iteration.nextFunctor_eq_some.mp hnext
      have hqueued := BatchQueue.queued_proceed hbatch
      rw [← heq]
      refine hstage.invoke (keeps_moved s (fun g hg => ?_) _ _) ?_
      · rw [queued, hqueued]
        exact List.mem_cons_of_mem f hg
      · rw [queued, hqueued]
        exact List.mem_cons_self
  | finish =>
      obtain ⟨iteration, hiteration, heq⟩ := Option.map_eq_some_iff.mp hstep
      obtain ⟨-, hbatch, rfl⟩ := Iteration.finish_eq_some.mp hiteration
      rw [← heq]
      refine (keeps_moved s (fun f hf => ?_) _ _).safe_pure hstage
      rw [queued, ← BatchQueue.queued_finish hbatch]
      exact hf

theorem Start.stage (h : Start s) : Stage s := by
  obtain ⟨c, iteration, handling, -, writeComplete, -, -, -, -, -, queue⟩ := h
  refine .waiting ⟨rfl, rfl⟩ rfl writeComplete fun f hf => ?_
  rw [queued, show (create c iteration handling).iteration.queue = .empty from queue] at hf
  exact absurd hf List.not_mem_nil

/-- **The flow control uses no null pointer.**  In every run of a tunnel whose steps are permitted,
`clientConn_` is set whenever `onHighWaterMark` or `onWriteComplete` uses it. -/
theorem nullClient_not_mem {ls : List Label} {es : List Event} (hstart : Start s)
    (hrun : Run (restrict Permitted Step) s ls es t) : .nullClient ∉ es := by
  intro hm
  obtain ⟨s', l, es', t', hstage, ⟨hpermitted, hstep⟩, hshown⟩ :=
    hrun.event hstart.stage (fun _ _ _ _ hstage hstep => (hstage.step hstep.1 hstep.2).stage) hm
  exact (hstage.step hpermitted hstep).set hshown

def readable (c : TcpConnection) : TcpConnection :=
  { c with channel := { c.channel with revents := POLLIN } }

/-- An accepted connection, after the request has been read from it. -/
def accepted : TcpConnection :=
  readable (TcpConnection.create (Channel.create 0 5) .create false
    false).connectionEstablished.val

/-- The tunnel that is set up for it, with what has been read since then. -/
def accepting (input : Buffer) : Tunnel :=
  create { accepted with inputBuffer := input } ⟨.handling, [], .empty, 0⟩ []

theorem start_accepting {input : Buffer} (hinput : input.Valid) : Start (accepting input) := by
  refine .setup _ _ _ rfl rfl ?_ hinput Buffer.fresh_valid ⟨fun _ => rfl, nofun, .nil⟩ rfl rfl
    (List.forall_mem_nil _) (List.forall_mem_nil _)
  exact .added rfl rfl rfl

/-- The client closes in the iteration in which it is sent something, which it takes at once. -/
def brief : List Label :=
  [.newConnection 6 1 (.error true), .swap, .finish, .activate .kServer POLLIN,
    .activate .kClient POLLIN, .wake, .handleEvent, .callback (some [1, 2]) (.count 2),
    .handleEvent, .callback (some []) (.error true), .swap, .runFunctor, .finish]

theorem nullClient_not_mem_brief : ∃ es t,
    Run (restrict Permitted Step) (accepting .fresh) brief es t ∧ t.clientConn = false ∧
      .nullClient ∉ es := by
  obtain ⟨es, t, hrun, hclient⟩ : ∃ es t,
      Run (restrict Permitted Step) (accepting .fresh) brief es t ∧ t.clientConn = false :=
    Run.exists_of_exec_guarded _ (by decide +kernel)
  exact ⟨es, t, hrun, hclient, nullClient_not_mem (start_accepting Buffer.fresh_valid) hrun⟩

/-! ## A client that is closed too early -/

/-- Some run uses `clientConn_` while it is null. -/
def Fails (s : Tunnel) : Prop := ∃ ls es t, Run Step s ls es t ∧ .nullClient ∈ es

variable {l : Label} {y : Traced Event Tunnel}

theorem Fails.now (h : s.step l = some y) (hshown : .nullClient ∈ y.trace) : Fails s :=
  ⟨[l], y.trace, y.val, .single h, hshown⟩

theorem Fails.step (h : s.step l = some y) (hfails : Fails y.val) : Fails s := by
  obtain ⟨ls, es, u, hrun, hshown⟩ := hfails
  exact ⟨l :: ls, y.trace ++ es, u, .cons h hrun, List.mem_append_right _ hshown⟩

theorem fails_of_batch {len : Nat} {rest : List TunnelFunctor}
    (hphase : s.iteration.phase = .functors)
    (hbatch : s.iteration.queue.batch = some (.flow .kClient (.highWaterMarkCallback len) :: rest))
    (hclient : s.clientConn = false) (hmapped : s.mapped = true) : Fails s := by
  have hnext := Iteration.nextFunctor_eq_some.mpr ⟨hphase, rest, hbatch, rfl⟩
  refine .now (l := .runFunctor) (by rw [Tunnel.step, hnext]; rfl) ?_
  simp [invoke, Alive, onHighWaterMark, useClient, hmapped, hclient]

/-- The high-water mark of the client is the next functor, but the client is closed. -/
theorem fails_of_pending (len : Nat) (hidle : s.handling = [])
    (hphase : s.iteration.phase = .handling) (hactive : s.iteration.active = [])
    (hpending : s.iteration.queue.pending.head? =
      some (.flow .kClient (.highWaterMarkCallback len)))
    (hclient : s.clientConn = false) (hmapped : s.mapped = true) : Fails s := by
  obtain ⟨rest, hrest⟩ := List.head?_eq_some_iff.mp hpending
  have hswap := Iteration.swap_eq_some.mpr ⟨hphase, hactive, rfl⟩
  refine .step (l := .swap) (by rw [Tunnel.step, if_pos hidle, hswap]; rfl) ?_
  exact fails_of_batch rfl (congrArg some hrest) hclient hmapped

/-- The client closes while that functor is queued. -/
theorem fails_of_close {c : TcpConnection} {len : Nat}
    (hhandling : s.handling = [(.kClient, .readCallback)]) (hmade : s.made = some c)
    (hphase : s.iteration.phase = .handling) (hactive : s.iteration.active = [])
    (hpending : s.iteration.queue.pending.head? =
      some (.flow .kClient (.highWaterMarkCallback len)))
    (hmapped : s.mapped = true) : Fails s := by
  obtain ⟨inputBuffer, hend⟩ := (c.on s.poller).handleRead_end
  have hclosed : (c.on s.poller).handle ⟨some [], 0, .error true⟩ .readCallback =
      { c.on s.poller with inputBuffer }.handleClose := hend
  have hstep : s.step (.callback (some []) (.error true)) =
      some ({ s with handling := [] }.react .kClient
        { c.on s.poller with inputBuffer }.handleClose (.error true)) := by
    simp only [Tunnel.step, hhandling, conn?, hmade, handled, hclosed, Option.map_some]
  obtain ⟨hmessage, hdown, hclose⟩ :=
    TcpConnection.handleClose_told { c.on s.poller with inputBuffer }
  refine .step hstep ?_
  rw [react_close _ _ _ hmessage hdown hclose]
  refine fails_of_pending len rfl hphase hactive ?_ rfl hmapped
  -- What the callbacks queue comes after that functor.
  change (s.iteration.queue.pending ++ _ ++ _ ++ _).head? = _
  simp only [List.head?_append, hpending, Option.some_or]

/-! ### A run that fails -/

theorem step_activate {c : TcpConnection} {revents : EventMask}
    {iteration : Iteration ServerClient TunnelFunctor} (hc : s.conn? which = some c)
    (hindex : c.channel.index = kAdded) (hset : s.poller.epollSet c.channel.fd ≠ none)
    (hdeliverable : CallbackSession.Deliverable c.channel revents)
    (hactivate : s.iteration.activate which = some iteration) :
    s.step (.activate which revents) = some (pure
      { s.setConn which { c with channel := { c.channel with revents } } with iteration }) := by
  simp only [step, hc, hindex, hset, hdeliverable, hactivate, ne_eq, not_false_eq_true, and_self,
    if_true, Option.map_some]

theorem step_handleEvent {c : TcpConnection} {cbs : List ChannelCallback}
    {iteration : Iteration ServerClient TunnelFunctor} (hidle : s.handling = [])
    (hnext : s.iteration.next = some (which, iteration)) (hc : s.conn? which = some c)
    (hcbs : c.channel.handleEvent = cbs) :
    s.step .handleEvent = some (pure
      { s with iteration, handling := cbs.map fun cb => (which, cb) }) := by
  simp only [step, hidle, hnext, hc, hcbs, if_true, Option.map_some]

/-- The connection of the client, when it has just been made. -/
def connected : TcpConnection :=
  (TcpConnection.create (Channel.create 1 6) accepted.poller false
    false).connectionEstablished.val.setHighWaterMarkCallback

/-- It waits to write `output`. -/
def blocked (output : Buffer) : TcpConnection :=
  ({ connected with outputBuffer := output }.updateChannel connected.channel.enableWriting).val

def joined (input : Buffer) : Tunnel :=
  { accepting input with
    serverConn := { (accepting input).serverConn with poller := connected.poller }
    made := some connected
    connection := true
    clientConn := true
    context := true
    poller := connected.poller }

def linked (input output : Buffer) : Tunnel := (joined input).setConn .kClient (blocked output)

/-- Both connections have something to read, and the event of `serverConn_` is handled first. -/
def polled (input output : Buffer) : Tunnel :=
  { ((linked input output).modify .kServer readable).modify .kClient readable with
    iteration := ⟨.handling, [.kClient], .empty, 0⟩
    handling := [(.kServer, .readCallback)] }

/-- The output buffer of the client has just reached its high-water mark. -/
def flooded (input output : Buffer) (len : Nat) : Tunnel :=
  { polled input output with
    iteration := ⟨.handling, [.kClient], ⟨[.flow .kClient (.highWaterMarkCallback len)], none⟩, 0⟩
    handling := [] }

theorem deliverable_accepted : CallbackSession.Deliverable accepted.channel POLLIN := by decide

theorem deliverable_blocked : CallbackSession.Deliverable (blocked .fresh).channel POLLIN := by
  decide

theorem handleEvent_accepted : accepted.channel.handleEvent = [.readCallback] := by decide

theorem handleEvent_blocked :
    (readable (blocked .fresh)).channel.handleEvent = [.readCallback] := by
  decide

variable {input output : Buffer}

theorem fails_flooded (input output : Buffer) (len : Nat) : Fails (flooded input output len) := by
  refine .step (l := .handleEvent) (step_handleEvent rfl rfl rfl handleEvent_blocked) ?_
  exact fails_of_close rfl rfl rfl rfl rfl rfl

theorem fails_polled (hinput : input.Valid) (hempty : input.content = []) (houtput : output.Valid)
    (hfull : output.readableBytes = 1024 * 1024 - 1) : Fails (polled input output) := by
  obtain ⟨inputBuffer, hvalid, hcontent, hread⟩ := TcpConnection.handleRead_bytes
    (c := (polled input output).serverConn) hinput [0] Nat.one_pos
  have hstep : step (polled input output) (.callback (some [0]) (.error true)) =
      some ({ polled input output with handling := [] }.react .kServer
        ((polled input output).serverConn.handleRead (some [0]) 0) (.error true)) := rfl
  have hdata : inputBuffer.retrieveAsString.1 = [0] := by
    rw [Buffer.retrieveAsString_fst hvalid, hcontent]
    exact congrArg (· ++ _) hempty
  have hforwarded : { polled inputBuffer output with handling := [] }.onMessage (.error true)
      .kServer = { polled inputBuffer.retrieveAsString.2 output with handling := [] }.perform
        .kClient ((readable (blocked output)).sendInLoop inputBuffer.retrieveAsString.1
          (.error true)) := rfl
  have hwriting : (readable (blocked output)).channel.isWriting := by
    change (blocked .fresh).channel.isWriting
    decide
  have hsent := TcpConnection.sendLater_reaches [0] houtput hwriting rfl
    (hfull.trans_lt (Nat.lt_succ_self _)) (congrArg (· + 1) hfull).ge
  have hsingle : 0 < ([0] : Bytes).length := Nat.one_pos
  refine .step hstep ?_
  rw [hread, react_message _ _ _ (List.mem_singleton_self _) (by simp) (by simp)]
  refine (congrArg Fails ?_).mpr (fails_flooded inputBuffer.retrieveAsString.2
    (output.append [0]).val (output.readableBytes + 1))
  change ({ polled inputBuffer output with handling := [] }.onMessage _ .kServer).val = _
  rw [hforwarded, hdata, TcpConnection.sendInLoop_refused hsingle, hsent]
  rfl

theorem fails_linked (h : Fails (polled input output)) : Fails (linked input output) := by
  refine .step (l := .swap) rfl ?_
  refine .step (l := .finish) rfl ?_
  refine .step (l := .activate .kServer POLLIN)
    (step_activate rfl rfl (fun h => nomatch h) deliverable_accepted rfl) ?_
  refine .step (l := .activate .kClient POLLIN)
    (step_activate rfl rfl (fun h => nomatch h) deliverable_blocked rfl) ?_
  refine .step (l := .wake) rfl ?_
  refine .step (l := .handleEvent) (step_handleEvent rfl rfl rfl handleEvent_accepted) ?_
  exact h

theorem newConnection_accepting (hinput : input.Valid) (hsome : 0 < input.readableBytes)
    (hbelow : input.readableBytes < 1024 * 1024) :
    ((accepting input).newConnection 6 1 (.error true)).val =
      linked input.retrieveAsString.2 (Buffer.fresh.append input.content).val := by
  have hdata := Buffer.retrieveAsString_fst hinput
  have hlength := Buffer.length_content hinput
  have hup : ((accepting input).newConnection 6 1 (.error true)).val =
      (if 0 < input.readableBytes then (joined input).sendBuffer .kServer .kClient (.error true)
        else pure (joined input)).val := by
    with_unfolding_all rfl
  have hforwarded : (joined input).sendBuffer .kServer .kClient (.error true) =
      (joined input.retrieveAsString.2).perform .kClient
        (connected.sendInLoop input.retrieveAsString.1 (.error true)) := rfl
  have hsent : connected.sendInLoop input.content (.error true) =
      connected.sendLater input.content 0 :=
    TcpConnection.sendInLoop_refused (hlength ▸ hsome) true
  have hunqueued := TcpConnection.unqueued_sendLater (c := connected) input.content
    Buffer.fresh_valid (by decide) (hlength ▸ (Nat.zero_add _).trans_lt hbelow)
  rw [hup, if_pos hsome, hforwarded, hdata, hsent, perform,
    TcpConnection.sendLater_val _ (by decide), queuedBy_of_unqueued hunqueued]
  rfl

theorem fails_accepting (hinput : input.Valid) (hfull : input.readableBytes = 1024 * 1024 - 1) :
    Fails (accepting input) := by
  obtain ⟨hvalid, hcontent, -⟩ := Buffer.append_keeps Buffer.fresh_valid input.content
  refine .step (l := .newConnection 6 1 (.error true)) rfl ?_
  rw [newConnection_accepting hinput (by omega) (by omega)]
  refine fails_linked (fails_polled (Buffer.retrieveAll_valid hinput)
    (Buffer.retrieveAll_content input) hvalid ?_)
  rw [← Buffer.length_content hvalid, hcontent, Buffer.fresh_content, List.nil_append,
    Buffer.length_content hinput, hfull]

/-- What is read before the client is there stays in the input buffer. -/
theorem fails_read (hinput : input.Valid) (data : Bytes) (hdata : 0 < data.length)
    (h : ∀ inputBuffer : Buffer, inputBuffer.Valid →
      inputBuffer.content = input.content ++ data → Fails (accepting inputBuffer)) :
    Fails (accepting input) := by
  obtain ⟨inputBuffer, hvalid, hcontent, hread⟩ := TcpConnection.handleRead_bytes
    (c := (accepting input).serverConn) hinput data hdata
  have hkept : (accepting input).react .kServer
      ((accepting input).serverConn.handleRead (some data) 0) (.error true) =
        ⟨accepting inputBuffer, [.conn .kServer .messageCallback]⟩ := by
    rw [hread, react_message _ _ _ (List.mem_singleton_self _) (by simp) (by simp)]
    rfl
  refine .step (l := .swap) rfl ?_
  refine .step (l := .finish) rfl ?_
  refine .step (l := .activate .kServer POLLIN)
    (step_activate rfl rfl (fun h => nomatch h) deliverable_accepted rfl) ?_
  refine .step (l := .wake) rfl ?_
  refine .step (l := .handleEvent) (step_handleEvent rfl rfl rfl handleEvent_accepted) ?_
  refine .step (l := .callback (some data) (.error true)) (congrArg some hkept) ?_
  exact h inputBuffer hvalid hcontent

/-- The bytes come in pieces that `extrabuf` has room for. -/
theorem fails_reads (n : Nat) : ∀ input : Buffer, input.Valid →
    input.readableBytes + n * 33825 = 1024 * 1024 - 1 → Fails (accepting input) := by
  induction n with
  | zero => exact fun input hinput hfull => fails_accepting hinput hfull
  | succ n ih =>
      intro input hinput hfull
      have hlength : (List.replicate 33825 (0 : UInt8)).length = 33825 := List.length_replicate
      refine fails_read hinput (List.replicate 33825 0) (by rw [hlength]; decide) ?_
      intro inputBuffer hvalid hcontent
      refine ih inputBuffer hvalid ?_
      rw [← Buffer.length_content hvalid, hcontent, List.length_append, hlength,
        Buffer.length_content hinput]
      omega

/-- The client closes in the iteration in which its output buffer reaches the high-water mark. -/
theorem not_nullClient_not_mem : ¬∀ (s : Tunnel) (ls : List Label) (es : List Event) (t : Tunnel),
    Start s → Run Step s ls es t → .nullClient ∉ es := by
  intro hsafe
  obtain ⟨ls, es, t, hrun, hshown⟩ := fails_reads 31 Buffer.fresh Buffer.fresh_valid rfl
  exact hsafe _ ls es t (start_accepting Buffer.fresh_valid) hrun hshown

end Tunnel
end Chaonet
