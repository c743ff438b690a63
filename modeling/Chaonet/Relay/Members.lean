import Chaonet.Connection.Handlers
import Chaonet.Relay.Tunnel

/-!
# What the members of a tunnel change

As long as a tunnel has its client, its members leave `clientConn_` as it is and queue functors of
the flow control only (`Flows`).  What a callback of a connection does to the tunnel depends on the
callbacks of the user that it calls (`react_still` and the lemmas after it).
-/

namespace Chaonet

open Foundation

open TcpConnection (Unqueued)

namespace Tunnel

/-- The functors that are still to be run. -/
def queued (s : Tunnel) : List TunnelFunctor := s.iteration.queue.queued

variable {s t : Tunnel} {which : ServerClient} {x : Traced TcpConnection.Event TcpConnection}
  {member : TcpConnection → Traced TcpConnection.Event TcpConnection}

/-! ## Members of a connection -/

@[simp] theorem setConn_clientConn (s : Tunnel) (which : ServerClient) (c : TcpConnection) :
    (s.setConn which c).clientConn = s.clientConn := by
  cases which <;> rfl

@[simp] theorem setConn_context (s : Tunnel) (which : ServerClient) (c : TcpConnection) :
    (s.setConn which c).context = s.context := by
  cases which <;> rfl

@[simp] theorem setConn_queued (s : Tunnel) (which : ServerClient) (c : TcpConnection) :
    (s.setConn which c).queued = s.queued := by
  cases which <;> rfl

@[simp] theorem perform_clientConn (s : Tunnel) (which : ServerClient)
    (x : Traced TcpConnection.Event TcpConnection) :
    (s.perform which x).val.clientConn = s.clientConn :=
  s.setConn_clientConn which x.val

@[simp] theorem perform_context (s : Tunnel) (which : ServerClient)
    (x : Traced TcpConnection.Event TcpConnection) :
    (s.perform which x).val.context = s.context :=
  s.setConn_context which x.val

theorem perform_queued (s : Tunnel) (which : ServerClient)
    (x : Traced TcpConnection.Event TcpConnection) :
    (s.perform which x).val.queued = s.queued ++ queuedBy which x.trace :=
  Iteration.queued_push _ _

theorem queuedBy_of_unqueued (h : Unqueued x.trace) : queuedBy which x.trace = [] := by
  rw [queuedBy, List.filterMap_eq_nil_iff]
  intro e he
  cases e with
  | queued f => exact absurd he (h f)
  | _ => rfl

theorem isFlow_of_mem_queuedBy {es : List TcpConnection.Event} {f : TunnelFunctor}
    (h : f ∈ queuedBy which es) : f.isFlow = true := by
  obtain ⟨e, -, he⟩ := List.mem_filterMap.mp h
  cases e with
  | queued g =>
      obtain rfl := Option.some.inj he
      rfl
  | _ => simp at he

@[simp] theorem call_clientConn (s : Tunnel) (which : ServerClient)
    (member : TcpConnection → Traced TcpConnection.Event TcpConnection) :
    (s.call which member).val.clientConn = s.clientConn := by
  unfold call
  cases s.conn? which with
  | none => rfl
  | some c => exact s.perform_clientConn which (member c)

@[simp] theorem modify_clientConn (s : Tunnel) (which : ServerClient)
    (f : TcpConnection → TcpConnection) : (s.modify which f).clientConn = s.clientConn := by
  unfold modify
  cases s.conn? which with
  | none => rfl
  | some c => exact s.setConn_clientConn which (f c)

@[simp] theorem modify_queued (s : Tunnel) (which : ServerClient)
    (f : TcpConnection → TcpConnection) : (s.modify which f).queued = s.queued := by
  unfold modify
  cases s.conn? which with
  | none => rfl
  | some c => exact s.setConn_queued which (f c)

@[simp] theorem modify_context (s : Tunnel) (which : ServerClient)
    (f : TcpConnection → TcpConnection) : (s.modify which f).context = s.context := by
  unfold modify
  cases s.conn? which with
  | none => rfl
  | some c => exact s.setConn_context which (f c)

/-! ## A tunnel that has its client -/

/-- Nothing but functors of the flow control is queued, and `clientConn_` is not null where it is
used. -/
structure Adds (s : Tunnel) (x : Traced Event Tunnel) : Prop where
  queued : ∀ f ∈ x.val.queued, f ∈ s.queued ∨ f.isFlow = true
  set : .nullClient ∉ x.trace

/-- In addition `clientConn_` stays what it is. -/
structure Flows (s : Tunnel) (x : Traced Event Tunnel) : Prop extends Adds s x where
  clientConn : x.val.clientConn = s.clientConn

theorem adds_pure (h : t.queued = s.queued) : Adds s (pure t) :=
  ⟨fun _ hf => .inl (h ▸ hf), List.not_mem_nil⟩

theorem Adds.bind {y : Traced Event Tunnel} {use : Tunnel → Traced Event Tunnel} (h : Adds s y)
    (h' : Adds y.val (use y.val)) : Adds s (y >>= use) := by
  constructor
  · intro f hf
    rcases h'.queued f hf with hbefore | hflow
    · exact h.queued f hbefore
    · exact .inr hflow
  · exact fun hm => (List.mem_append.mp hm).elim h.set h'.set

theorem flows_pure (hclient : t.clientConn = s.clientConn) (h : t.queued = s.queued) :
    Flows s (pure t) :=
  ⟨adds_pure h, hclient⟩

theorem Flows.bind {y : Traced Event Tunnel} {use : Tunnel → Traced Event Tunnel} (h : Flows s y)
    (h' : Flows y.val (use y.val)) : Flows s (y >>= use) :=
  ⟨h.toAdds.bind h'.toAdds, h'.clientConn.trans h.clientConn⟩

theorem Adds.of_same {y : Traced Event Tunnel} (h : Adds t y) (hqueued : t.queued = s.queued) :
    Adds s y :=
  ⟨fun f hf => hqueued ▸ h.queued f hf, h.set⟩

theorem Flows.of_same {y : Traced Event Tunnel} (h : Flows t y)
    (hclient : t.clientConn = s.clientConn) (hqueued : t.queued = s.queued) : Flows s y :=
  ⟨h.toAdds.of_same hqueued, h.clientConn.trans hclient⟩

theorem nullClient_not_mem_map (which : ServerClient) (es : List TcpConnection.Event) :
    .nullClient ∉ es.map (Event.conn which) := by
  intro hm
  obtain ⟨e, -, he⟩ := List.mem_map.mp hm
  exact nomatch he

theorem flows_perform (s : Tunnel) (which : ServerClient)
    (x : Traced TcpConnection.Event TcpConnection) : Flows s (s.perform which x) := by
  refine ⟨⟨fun f hf => ?_, nullClient_not_mem_map which x.trace⟩, s.perform_clientConn which x⟩
  rw [perform_queued] at hf
  exact (List.mem_append.mp hf).imp_right isFlow_of_mem_queuedBy

theorem flows_call (s : Tunnel) (which : ServerClient)
    (member : TcpConnection → Traced TcpConnection.Event TcpConnection) :
    Flows s (s.call which member) := by
  unfold call
  cases s.conn? which with
  | none => exact flows_pure rfl rfl
  | some c => exact flows_perform s which (member c)

/-- A call followed by a setter. -/
theorem flows_call_modify (s : Tunnel) (which other : ServerClient)
    (member : TcpConnection → Traced TcpConnection.Event TcpConnection)
    (f : TcpConnection → TcpConnection) :
    Flows s (s.call which member >>= fun s => pure (s.modify other f)) :=
  (flows_call s which member).bind (flows_pure (modify_clientConn _ _ _) (modify_queued _ _ _))

theorem flows_sendBuffer (s : Tunnel) (source target : ServerClient) (r : WriteResult) :
    Flows s (s.sendBuffer source target r) := by
  unfold sendBuffer
  cases s.conn? source with
  | none => exact flows_pure rfl rfl
  | some c =>
      cases s.conn? target with
      | none => exact flows_pure rfl rfl
      | some d =>
          dsimp only
          split_ifs
          · exact (flows_call _ target _).of_same (s.setConn_clientConn source _)
              (s.setConn_queued source _)
          · exact flows_pure rfl rfl

theorem flows_onMessage (s : Tunnel) (r : WriteResult) (which : ServerClient) :
    Flows s (s.onMessage r which) := by
  cases which with
  | kServer =>
      unfold onMessage
      dsimp only
      split_ifs
      · exact flows_sendBuffer s .kServer .kClient r
      · exact flows_pure rfl rfl
  | kClient => exact flows_sendBuffer s .kClient .kServer r

/-- The functors of the flow control, while `clientConn_` is set. -/
theorem flows_onHighWaterMark (h : s.clientConn = true) (which : ServerClient) :
    Flows s (s.onHighWaterMark which) := by
  cases which with
  | kServer =>
      unfold onHighWaterMark useClient
      dsimp only
      split_ifs
      · exact flows_call_modify s .kClient .kServer _ _
      · exact flows_pure rfl rfl
  | kClient =>
      unfold onHighWaterMark useClient
      dsimp only
      rw [if_pos h]
      split_ifs
      · exact flows_call_modify s .kServer .kClient _ _
      · exact flows_pure rfl rfl

theorem flows_onWriteComplete (h : s.clientConn = true) (which : ServerClient) :
    Flows s (s.onWriteComplete which) := by
  cases which with
  | kServer =>
      unfold onWriteComplete useClient
      dsimp only
      rw [if_pos h]
      exact flows_call_modify s .kClient .kServer _ _
  | kClient =>
      unfold onWriteComplete useClient
      dsimp only
      refine (flows_call s .kServer _).bind ?_
      rw [if_pos (by rw [call_clientConn, h])]
      exact flows_pure (modify_clientConn _ _ _) (modify_queued _ _ _)

/-! ## Callbacks of a connection -/

/-- A member that calls no callback. -/
theorem react_still (s : Tunnel) (which : ServerClient) (r : WriteResult)
    (hmessage : .messageCallback ∉ x.trace) (hdown : .connectionCallback false ∉ x.trace)
    (hclose : .closeCallback ∉ x.trace) : s.react which x r = s.perform which x := by
  simp [react, hmessage, hdown, hclose]

/-- A member that calls the message callback. -/
theorem react_message (s : Tunnel) (which : ServerClient) (r : WriteResult)
    (hmessage : .messageCallback ∈ x.trace) (hdown : .connectionCallback false ∉ x.trace)
    (hclose : .closeCallback ∉ x.trace) :
    s.react which x r = s.perform which x >>= fun s => s.onMessage r which := by
  simp [react, hmessage, hdown, hclose]

/-- A member that calls the connection callback alone. -/
theorem react_down (s : Tunnel) (which : ServerClient) (r : WriteResult)
    (hmessage : .messageCallback ∉ x.trace) (hdown : .connectionCallback false ∈ x.trace)
    (hclose : .closeCallback ∉ x.trace) :
    s.react which x r = s.perform which x >>= fun s => s.onDown which := by
  simp [react, hmessage, hdown, hclose]

/-- A member that closes the connection. -/
theorem react_close (s : Tunnel) (which : ServerClient) (r : WriteResult)
    (hmessage : .messageCallback ∉ x.trace) (hdown : .connectionCallback false ∈ x.trace)
    (hclose : .closeCallback ∈ x.trace) : s.react which x r =
      s.perform which x >>= fun s => s.onDown which >>= fun s => s.removeConnection which := by
  simp [react, hmessage, hdown, hclose]

end Tunnel
end Chaonet
