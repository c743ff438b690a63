import Chaonet.Connection.Service

/-!
# The two ends of the ping-pong benchmark

The server sends back what it receives.  A session of the client sends a message when it is
connected, and from then on sends back what it receives as well, and counts.  Both send what they
receive (`SendsBack`), so that a connection has passed on every byte that it has read as long as it
is up (`Echoes`).
-/

namespace Chaonet

open Foundation

open Service (member handed)
open TcpConnection (Buffered Passes received)

namespace PingPong

/-- The server: `conn->send(buf->retrieveAsString())`. -/
def onServerMessage (u : Unit) (c : TcpConnection) (write : WriteResult) :
    Traced (Service.Event Empty) (Unit × TcpConnection) := do
  let (message, inputBuffer) := c.inputBuffer.retrieveAsString
  let c ← member ({ c with inputBuffer }.send message write)
  pure (u, c)

def server : Service Unit WriteResult Empty := ⟨onServerMessage, fun u c _ => pure (u, c)⟩

/-- `Session` of the client.  Its counters are `int64_t` in the source, so that a run stands for one
that has read fewer than 2^63 bytes. -/
structure Session where
  bytesRead : Nat
  bytesWritten : Nat
  messagesRead : Nat
deriving DecidableEq, Repr

namespace Session

def onMessage (u : Session) (c : TcpConnection) (write : WriteResult) :
    Traced (Service.Event Empty) (Session × TcpConnection) := do
  let u : Session :=
    { bytesRead := u.bytesRead + c.inputBuffer.readableBytes
      bytesWritten := u.bytesWritten + c.inputBuffer.readableBytes
      messagesRead := u.messagesRead + 1 }
  let c ← member (c.sendBuffer write)
  pure (u, c)

/-- What a session does when it is connected. -/
def onConnection (c : TcpConnection) (message : Bytes) (write : WriteResult) :
    Traced TcpConnection.Event TcpConnection :=
  c.send message write

end Session

def client : Service Session WriteResult Empty := ⟨Session.onMessage, fun u c _ => pure (u, c)⟩

/-! ## Sending back -/

/-- A member that sends what has been read, if the connection is up, and nothing otherwise. -/
structure Sends (c : TcpConnection) (x : Traced TcpConnection.Event TcpConnection) : Prop where
  buffered : Buffered x.val
  state : x.val.state = c.state
  sent : c.state = .kConnected → Passes c.retrieved [] c.inputBuffer.content x
  dropped : c.state ≠ .kConnected → x.trace = [] ∧ x.val.outputBuffer = c.outputBuffer

/-- A user whose message callback sends what has been read, and that does nothing otherwise. -/
structure SendsBack {υ : Type} (service : Service υ WriteResult Empty) : Prop where
  onMessage : ∀ u {c} w, Buffered c → ∃ x, Sends c x ∧
    (service.onMessage u c w).trace = x.trace.map .conn ∧ (service.onMessage u c w).val.2 = x.val
  onWriteComplete : ∀ u c w, service.onWriteComplete u c w = pure (u, c)

variable {c : TcpConnection}

theorem sendsBack_server : SendsBack server := by
  refine ⟨fun u c w h => ?_, fun u c w => rfl⟩
  have hcontent : c.inputBuffer.retrieveAsString.1 = c.inputBuffer.content :=
    Buffer.retrieveAsString_fst h.input
  have hsend := TcpConnection.passes_send (TcpConnection.buffered_retrieved h)
    c.inputBuffer.content w
  refine ⟨c.retrieved.send c.inputBuffer.content w, ?_, ?_, ?_⟩
  · constructor
    case buffered => exact hsend.buffered
    case state => exact TcpConnection.send_state _ _ _
    case sent =>
      intro hup
      rwa [if_pos (show c.retrieved.state = .kConnected from hup)] at hsend
    case dropped =>
      intro hdown
      have hnothing : c.retrieved.send c.inputBuffer.content w = pure c.retrieved := if_neg hdown
      rw [hnothing]
      exact ⟨rfl, rfl⟩
  · simp [server, onServerMessage, hcontent, TcpConnection.retrieved]
  · simp [server, onServerMessage, hcontent, TcpConnection.retrieved]

theorem sendsBack_client : SendsBack client := by
  refine ⟨fun u c w h => ⟨c.sendBuffer w, ?_, ?_, rfl⟩, fun u c w => rfl⟩
  · by_cases hup : c.state = .kConnected
    · have hsend := TcpConnection.passes_sendBuffer h hup w
      exact ⟨hsend.buffered, TcpConnection.sendBuffer_state c w, fun _ => hsend,
        fun hdown => absurd hup hdown⟩
    · have hnothing : c.sendBuffer w = pure c := if_neg hup
      rw [hnothing]
      exact ⟨h, rfl, fun hagain => absurd hagain hup, fun _ => ⟨rfl, rfl⟩⟩
  · simp [client, Session.onMessage]

/-! ## Passing on what is read -/

/-- What has been passed to `sendInLoop` are the bytes `first`, which the connection sends on its own
account, and then what it has read. -/
structure Echoes (first : Bytes) (past : List (Service.Event Empty)) (read : Bytes)
    (c : TcpConnection) : Prop where
  buffered : Buffered c
  handed_prefix : handed past c <+: first ++ read
  up : c.state = .kConnected → handed past c = first ++ read ∧ c.inputBuffer.content = []

variable {υ : Type} {service : Service υ WriteResult Empty} {first read data : Bytes}
  {past : List (Service.Event Empty)}

/-- A member that neither reads nor sends. -/
theorem Echoes.quiet (h : Echoes first past read c) {x : Traced TcpConnection.Event TcpConnection}
    (hx : Passes c [] [] x) (hstate : x.val.state = c.state ∨ x.val.state = .kDisconnected) :
    Echoes first (past ++ x.trace.map .conn) read x.val := by
  have hhanded : handed (past ++ x.trace.map .conn) x.val = handed past c := by
    rw [Service.handed_member past hx, List.append_nil]
  refine ⟨hx.buffered, hhanded ▸ h.handed_prefix, fun hup => ?_⟩
  obtain ⟨hall, hempty⟩ := h.up (TcpConnection.up_of_or hstate hup)
  exact ⟨hhanded ▸ hall, by rw [hx.input, hempty, List.append_nil]⟩

/-- What has been read waits for the message callback, which sends it. -/
theorem Echoes.message (h : Echoes first past read c)
    {x y : Traced TcpConnection.Event TcpConnection} (hx : Passes c data [] x)
    (hstate : x.val.state = c.state ∨ x.val.state = .kDisconnected) (hy : Sends x.val y) :
    Echoes first (past ++ (x.trace.map .conn ++ y.trace.map .conn)) (read ++ data) y.val := by
  have hread : handed (past ++ x.trace.map .conn) x.val = handed past c := by
    rw [Service.handed_member past hx, List.append_nil]
  rw [← List.append_assoc]
  by_cases hup : x.val.state = .kConnected
  · obtain ⟨hall, hempty⟩ := h.up (TcpConnection.up_of_or hstate hup)
    have hinput : x.val.inputBuffer.content = data := by
      rw [hx.input, hempty, List.nil_append]
    have hsent := hy.sent hup
    have hhanded : handed (past ++ x.trace.map .conn ++ y.trace.map .conn) y.val =
        first ++ (read ++ data) := by
      have hafter := Service.handed_member (past ++ x.trace.map .conn) hsent
      have hretrieved : handed (past ++ x.trace.map .conn) x.val.retrieved =
          handed (past ++ x.trace.map .conn) x.val := rfl
      rw [hafter, hretrieved, hread, hall, hinput, List.append_assoc]
    refine ⟨hy.buffered, hhanded ▸ List.prefix_refl _, fun _ => ⟨hhanded, ?_⟩⟩
    rw [hsent.input, TcpConnection.retrieved_content, List.append_nil]
  · -- The connection has been closed while the event was handled, and nothing is sent.
    obtain ⟨htrace, houtput⟩ := hy.dropped hup
    have hhanded : handed (past ++ x.trace.map .conn ++ y.trace.map .conn) y.val =
        handed past c := by
      rw [← hread, htrace, List.map_nil, List.append_nil, handed, handed, houtput]
    refine ⟨hy.buffered, ?_, fun hagain => absurd (hy.state.symm.trans hagain) hup⟩
    rw [hhanded, ← List.append_assoc]
    exact h.handed_prefix.trans (List.prefix_append _ _)

theorem Echoes.onEvent (hservice : SendsBack service) (h : Echoes first past read c) (u : υ)
    (cb : ChannelCallback) (data : Option Bytes) (write w : WriteResult) :
    Echoes first (past ++ (service.onEvent u c cb data write w).trace) (read ++ received cb data)
      (service.onEvent u c cb data write w).val.2 := by
  have hx := TcpConnection.passes_handle h.buffered data write cb
  have hstate := TcpConnection.handle_state c data write cb
  have hquiet (hnot : .messageCallback ∉ (c.handle ⟨data, 0, write⟩ cb).trace) :=
    TcpConnection.received_of_handle_quiet h.buffered hnot
  unfold Service.onEvent
  generalize c.handle ⟨data, 0, write⟩ cb = x at hx hstate hquiet
  by_cases hmessage : .messageCallback ∈ x.trace
  · obtain ⟨y, hy, htrace, hval⟩ := hservice.onMessage u w hx.buffered
    simpa [hmessage, htrace, hval] using h.message hx hstate hy
  · rw [hquiet hmessage] at hx ⊢
    simpa [hmessage] using h.quiet hx hstate

theorem Echoes.onFunctor (hservice : SendsBack service) (h : Echoes first past read c) (u : υ)
    (f : Service.Functor) (w : WriteResult) :
    Echoes first (past ++ (service.onFunctor u c w f).trace) read
      (service.onFunctor u c w f).val.2 := by
  cases f with
  | connectionDestroyed =>
      have hdestroyed := h.quiet (TcpConnection.passes_connectionDestroyed h.buffered)
        (TcpConnection.connectionDestroyed_state c)
      simpa [Service.onFunctor] using hdestroyed
  | user f =>
      cases f with
      | writeCompleteCallback => simpa [Service.onFunctor, hservice.onWriteComplete] using h
      | highWaterMarkCallback len => simpa [Service.onFunctor] using h

theorem kept_echoes (hservice : SendsBack service) (first : Bytes) :
    Served.Kept service fun past read _ c _ => Echoes first past read c := by
  constructor
  case revents =>
    intro past read u c fs revents h
    exact ⟨h.buffered.revents revents, h.handed_prefix, h.up⟩
  case event =>
    intro past before u c fs cb read write w h
    exact h.onEvent hservice u cb read write w
  case functor =>
    intro past read u c f rest w h
    exact h.onFunctor hservice u f w

/-! ## Counting -/

/-- As long as the connection is up, the session has counted every byte that it has read, and has
written as many. -/
structure Counts (read : Bytes) (u : Session) (c : TcpConnection) : Prop where
  buffered : Buffered c
  same : u.bytesWritten = u.bytesRead
  up : c.state = .kConnected → u.bytesRead = read.length ∧ c.inputBuffer.content = []

theorem Counts.quiet {u : Session} (h : Counts read u c)
    {x : Traced TcpConnection.Event TcpConnection} (hx : Passes c [] [] x)
    (hstate : x.val.state = c.state ∨ x.val.state = .kDisconnected) : Counts read u x.val := by
  refine ⟨hx.buffered, h.same, fun hup => ?_⟩
  obtain ⟨hcount, hempty⟩ := h.up (TcpConnection.up_of_or hstate hup)
  exact ⟨hcount, by rw [hx.input, hempty, List.append_nil]⟩

theorem Counts.onEvent {u : Session} (h : Counts read u c) (cb : ChannelCallback)
    (data : Option Bytes) (write w : WriteResult) :
    Counts (read ++ received cb data) (client.onEvent u c cb data write w).val.1
      (client.onEvent u c cb data write w).val.2 := by
  have hx := TcpConnection.passes_handle h.buffered data write cb
  have hstate := TcpConnection.handle_state c data write cb
  have hquiet (hnot : .messageCallback ∉ (c.handle ⟨data, 0, write⟩ cb).trace) :=
    TcpConnection.received_of_handle_quiet h.buffered hnot
  unfold Service.onEvent
  generalize c.handle ⟨data, 0, write⟩ cb = x at hx hstate hquiet
  by_cases hmessage : .messageCallback ∈ x.trace
  · obtain ⟨y, hy, -, hval⟩ := sendsBack_client.onMessage u w hx.buffered
    simp only [Traced.bind_val, Service.member_val, hmessage, if_true]
    rw [hval]
    refine ⟨hy.buffered, by simp [client, Session.onMessage, h.same], fun hup => ?_⟩
    have hbefore : x.val.state = .kConnected := hy.state.symm.trans hup
    obtain ⟨hcount, hempty⟩ := h.up (TcpConnection.up_of_or hstate hbefore)
    have hinput : x.val.inputBuffer.content = received cb data := by
      rw [hx.input, hempty, List.nil_append]
    refine ⟨?_, ?_⟩
    · have hlength := Buffer.length_content hx.buffered.input
      rw [hinput] at hlength
      simp [client, Session.onMessage, hcount, hlength]
    · rw [(hy.sent hbefore).input, TcpConnection.retrieved_content, List.append_nil]
  · rw [hquiet hmessage] at hx ⊢
    simpa [hmessage] using h.quiet hx hstate

theorem kept_counts : Served.Kept client fun _ read u c _ => Counts read u c := by
  constructor
  case revents =>
    intro past read u c fs revents h
    exact ⟨h.buffered.revents revents, h.same, h.up⟩
  case event =>
    intro past before u c fs cb read write w h
    exact h.onEvent cb read write w
  case functor =>
    intro past read u c f rest w h
    cases f with
    | connectionDestroyed =>
        have hdestroyed := h.quiet (TcpConnection.passes_connectionDestroyed h.buffered)
          (TcpConnection.connectionDestroyed_state c)
        simpa [Service.onFunctor] using hdestroyed
    | user f => cases f <;> simpa [Service.onFunctor, client] using h

end PingPong
end Chaonet
