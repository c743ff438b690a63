import Chaonet.Connection.OutputStream

/-!
# What the member functions do

Only `handleClose` and `connectionDestroyed` change the state of a connection, and only
to `kDisconnected`.  A member is `Quiet` if it neither sends the `FIN` nor runs
`closeCallback_`; a write event is the only channel event that sends the `FIN`, and it
does so last, when it has drained the output buffer of a connection that is
disconnecting.  `Effect` says what a member can do to the channel.
-/

namespace Chaonet

open Foundation

namespace TcpConnection

/-! ## The state -/

@[simp] theorem handleClose_state (c : TcpConnection) :
    (c.handleClose).val.state = .kDisconnected := rfl

@[simp] theorem sendInLoop_state (c : TcpConnection) (message : Bytes) (r : WriteResult) :
    (c.sendInLoop message r).val.state = c.state := by
  by_cases hrest : (c.sendDirectly message r).val.toNat < message.length
  · by_cases hwriting : c.channel.isWriting <;> simp [sendInLoop, sendLater, hrest, hwriting]
  · simp [sendInLoop, hrest]

@[simp] theorem startReadInLoop_state (c : TcpConnection) :
    (c.startReadInLoop).val.state = c.state := by
  unfold startReadInLoop
  split_ifs <;> simp

@[simp] theorem stopReadInLoop_state (c : TcpConnection) :
    (c.stopReadInLoop).val.state = c.state := by
  unfold stopReadInLoop
  split_ifs <;> simp

/-- Nothing but writes and the assertions of the buffer. -/
def Outgoing (es : List Event) : Prop := ∀ e ∈ es, (∃ bytes, e = .wrote bytes) ∨ ∃ a, e = .buffer a

/-- A write event takes bytes from the output buffer and then, if that has drained it,
does what `handleDrained` does. -/
theorem handleWrite_cases (c : TcpConnection) (r : WriteResult) :
    ∃ outputBuffer front,
      Outgoing front ∧
        (c.handleWrite r = ⟨{ c with outputBuffer }, front⟩ ∨
          c.channel.isWriting ∧ outputBuffer.readableBytes = 0 ∧
            0 < (write r c.outputBuffer.retrieveAsString.1).val ∧
            outputBuffer = (c.outputBuffer.retrieve
              (write r c.outputBuffer.retrieveAsString.1).val.toNat).val ∧
            c.handleWrite r = ⟨{ c with outputBuffer }.handleDrained.val,
              front ++ { c with outputBuffer }.handleDrained.trace⟩) := by
  by_cases hwriting : c.channel.isWriting
  swap
  · exact ⟨c.outputBuffer, [], by simp [Outgoing], Or.inl (by simp [handleWrite, hwriting]; rfl)⟩
  have hdata : segment c.outputBuffer.buffer c.outputBuffer.peek
    (c.outputBuffer.peek + c.outputBuffer.readableBytes) = c.outputBuffer.retrieveAsString.1 := rfl
  generalize c.outputBuffer.retrieveAsString.1 = data at hdata
  have hwrote : ∀ e ∈ (write r data).trace, ∃ bytes, e = .wrote bytes := by
    cases r <;> simp [write]
  by_cases hpos : 0 < (write r data).val
  swap
  · refine ⟨c.outputBuffer, (write r data).trace, fun e he => Or.inl (hwrote e he), Or.inl ?_⟩
    simp only [handleWrite, hwriting, if_true, hdata]
    simp [bind, pure, hpos]
  have hfront : Outgoing ((write r data).trace ++
      (c.outputBuffer.retrieve (write r data).val.toNat).trace.map Event.buffer) := by
    intro e he
    rcases List.mem_append.mp he with he | he
    · exact Or.inl (hwrote e he)
    · obtain ⟨a, -, rfl⟩ := List.mem_map.mp he
      exact Or.inr ⟨a, rfl⟩
  refine ⟨(c.outputBuffer.retrieve (write r data).val.toNat).val, _, hfront, ?_⟩
  by_cases hdrained :
      (c.outputBuffer.retrieve (write r data).val.toNat).val.readableBytes = 0
  · refine Or.inr ⟨hwriting, hdrained, hpos, rfl, ?_⟩
    simp only [handleWrite, hwriting, if_true, hdata]
    simp [bind, hpos, hdrained, Traced.lift]
  · apply Or.inl
    simp only [handleWrite, hwriting, if_true, hdata]
    simp [bind, pure, hpos, hdrained, Traced.lift]

@[simp] theorem handleWrite_state (c : TcpConnection) (r : WriteResult) :
    (c.handleWrite r).val.state = c.state := by
  obtain ⟨outputBuffer, front, -, heq | ⟨-, -, -, -, heq⟩⟩ := handleWrite_cases c r
  · rw [heq]
  · rw [heq]
    rfl

theorem handleRead_state (c : TcpConnection) (r : Option Bytes) (consumed : Nat) :
    (c.handleRead r consumed).val.state = c.state ∨
      (c.handleRead r consumed).val.state = .kDisconnected := by
  by_cases hpos : 0 < (c.inputBuffer.readFd r).val.1
  · exact Or.inl (by simp [handleRead, hpos])
  · by_cases hzero : (c.inputBuffer.readFd r).val.1 = 0
    · exact Or.inr (by simp [handleRead, hzero])
    · exact Or.inl (by simp [handleRead, hpos, hzero])

theorem connectionDestroyed_state (c : TcpConnection) :
    (c.connectionDestroyed).val.state = c.state ∨
      (c.connectionDestroyed).val.state = .kDisconnected := by
  by_cases hconnected : c.state = .kConnected
  · exact Or.inr (by simp [connectionDestroyed, removeChannel, hconnected])
  · exact Or.inl (by simp [connectionDestroyed, removeChannel, hconnected])

/-! ## Quiet members -/

/-- No `FIN` and no close among the events. -/
def Quiet (es : List Event) : Prop := .shutdownWrite ∉ es ∧ .closeCallback ∉ es

@[simp] theorem quiet_nil : Quiet [] := by simp [Quiet]

@[simp] theorem quiet_append {es es' : List Event} : Quiet (es ++ es') ↔ Quiet es ∧ Quiet es' := by
  simp only [Quiet, List.mem_append, not_or]
  exact and_and_and_comm

@[simp] theorem quiet_map_poller (es : List EPoller.Event) : Quiet (es.map .poller) := by
  simp [Quiet]

@[simp] theorem quiet_map_buffer (es : List Buffer.Assertion) : Quiet (es.map .buffer) := by
  simp [Quiet]

theorem Outgoing.quiet {es : List Event} (h : Outgoing es) : Quiet es := by
  constructor
  · intro hmem
    simpa using h _ hmem
  · intro hmem
    simpa using h _ hmem

@[simp] theorem quiet_check (a : Assertion) (p : Prop) [Decidable p] :
    Quiet (Traced.check (Event.failed a) p).trace := by
  by_cases h : p <;> simp [Traced.check_trace, h, Quiet]

@[simp] theorem quiet_ite_queued (p : Prop) [Decidable p] (f : UserFunctor) :
    Quiet (if p then [.queued f] else []) := by
  by_cases h : p <;> simp [h, Quiet]

@[simp] theorem quiet_updateChannel (c : TcpConnection) (channel : Channel) :
    Quiet (c.updateChannel channel).trace := by
  simp [updateChannel]

@[simp] theorem quiet_write (r : WriteResult) (data : Bytes) : Quiet (write r data).trace := by
  cases r <;> simp [write, Quiet]

@[simp] theorem quiet_sendInLoop (c : TcpConnection) (message : Bytes) (r : WriteResult) :
    Quiet (c.sendInLoop message r).trace := by
  have hdirect : Quiet (c.sendDirectly message r).trace := by
    unfold sendDirectly
    split_ifs with hidle
    · by_cases hval : 0 ≤ (write r message).val <;> simp [hval]
    · simp
  by_cases hrest : (c.sendDirectly message r).val.toNat < message.length
  · by_cases hwriting : c.channel.isWriting <;>
      simp [sendInLoop, sendLater, hdirect, hrest, hwriting]
  · simp [sendInLoop, hdirect, hrest]

@[simp] theorem quiet_startReadInLoop (c : TcpConnection) : Quiet (c.startReadInLoop).trace := by
  unfold startReadInLoop
  split_ifs <;> simp

@[simp] theorem quiet_stopReadInLoop (c : TcpConnection) : Quiet (c.stopReadInLoop).trace := by
  unfold stopReadInLoop
  split_ifs <;> simp

/-- Switching reading on or off has no effect on the output path. -/
theorem startReadInLoop_streams {c : TcpConnection} {sent accepted : Bytes}
    (h : c.Streams sent accepted) :
    (c.startReadInLoop).val.Streams sent (accepted ++ bytesWritten (c.startReadInLoop).trace) := by
  unfold startReadInLoop
  split_ifs with hread
  · refine ⟨h.valid, ?_, ?_⟩
    · simpa using h.stream
    · simpa using h.interest
  · simpa using h

theorem stopReadInLoop_streams {c : TcpConnection} {sent accepted : Bytes}
    (h : c.Streams sent accepted) :
    (c.stopReadInLoop).val.Streams sent (accepted ++ bytesWritten (c.stopReadInLoop).trace) := by
  unfold stopReadInLoop
  split_ifs with hread
  · refine ⟨h.valid, ?_, ?_⟩
    · simpa using h.stream
    · simpa using h.interest
  · simpa using h

theorem closeCallback_mem_handleClose (c : TcpConnection) :
    .closeCallback ∈ (c.handleClose).trace := by
  simp [handleClose]

/-- Unless it closes the connection, a read event has no effect on the output path. -/
theorem handleRead_quiet {c : TcpConnection} {sent accepted : Bytes} {r : Option Bytes}
    {consumed : Nat} (h : c.Streams sent accepted)
    (hclose : .closeCallback ∉ (c.handleRead r consumed).trace) :
    (c.handleRead r consumed).val.state = c.state ∧ Quiet (c.handleRead r consumed).trace ∧
      (c.handleRead r consumed).val.Streams sent
        (accepted ++ bytesWritten (c.handleRead r consumed).trace) := by
  by_cases hpos : 0 < (c.inputBuffer.readFd r).val.1
  · have hmessage : Quiet [Event.messageCallback] := by simp [Quiet]
    refine ⟨?_, ?_, ?_, ?_, ?_⟩
    · simp [handleRead, hpos]
    · have hcons (es : List Event) : Quiet (.messageCallback :: es) ↔ Quiet es := by
        simp [Quiet]
      simp [handleRead, hpos, hcons]
    · simpa [handleRead, hpos] using h.valid
    · simpa [handleRead, hpos] using h.stream
    · simpa [handleRead, hpos] using h.interest
  · by_cases hzero : (c.inputBuffer.readFd r).val.1 = 0
    · refine absurd ?_ hclose
      simp [handleRead, hzero, closeCallback_mem_handleClose]
    · refine ⟨?_, ?_, ?_, ?_, ?_⟩
      · simp [handleRead, hpos, hzero]
      · simp [handleRead, hpos, hzero]
      · simpa [handleRead, hpos, hzero] using h.valid
      · simpa [handleRead, hpos, hzero] using h.stream
      · simpa [handleRead, hpos, hzero] using h.interest

/-- Whether a write with result `r` empties the output buffer. -/
def Drains (c : TcpConnection) : WriteResult → Prop
  | .count n => c.outputBuffer.readableBytes ≤ n
  | .error _ => False

instance (c : TcpConnection) : ∀ r, Decidable (c.Drains r)
  | .count _ => inferInstanceAs (Decidable (_ ≤ _))
  | .error _ => .isFalse id

/-- A drained connection sends the `FIN` last, if it is disconnecting. -/
theorem handleDrained_fin (c : TcpConnection) :
    (c.handleDrained).val.state = c.state ∧ ∃ front, Quiet front ∧
      (c.handleDrained).trace =
        front ++ if c.state = .kDisconnecting then [.shutdownWrite] else [] := by
  refine ⟨rfl, (c.updateChannel c.channel.disableWriting).trace ++
    if c.writeCompleteCallback = true then [.queued .writeCompleteCallback] else [], by simp, ?_⟩
  by_cases hstate : c.state = .kDisconnecting
  · simp [handleDrained, shutdownInLoop, hstate]
    rfl
  · simp [handleDrained, hstate]
    rfl

/-- A write that leaves nothing in the output buffer drains it. -/
theorem drains_of_retrieve {c : TcpConnection} {sent accepted : Bytes} (h : c.Streams sent accepted)
    (hwriting : c.channel.isWriting) {r : WriteResult}
    (hpos : 0 < (write r c.outputBuffer.retrieveAsString.1).val)
    (hdrained : (c.outputBuffer.retrieve
      (write r c.outputBuffer.retrieveAsString.1).val.toNat).val.readableBytes = 0) :
    c.Drains r := by
  rw [Buffer.retrieveAsString_fst h.valid] at hpos hdrained
  cases r with
  | count n =>
      have htaken : (write (.count n) c.outputBuffer.content).val.toNat =
          min n c.outputBuffer.readableBytes := by
        show ((c.outputBuffer.content.take n).length : Int).toNat = _
        rw [Int.toNat_natCast, List.length_take, Buffer.length_content h.valid]
      have hinterest := h.interest.mp hwriting
      rw [htaken] at hdrained
      simp only [Buffer.retrieve, Traced.bind_val, Traced.pure_val,
        Buffer.readableBytes] at hdrained hinterest
      simp only [Drains, Buffer.readableBytes]
      omega
  | error wouldBlock => simp [write] at hpos

/-- A write event sends the `FIN` as its last act, and only when it drains the output
buffer of a connection that is disconnecting. -/
theorem handleWrite_fin {c : TcpConnection} {sent accepted : Bytes} (h : c.Streams sent accepted)
    (r : WriteResult) :
    (c.handleWrite r).val.state = c.state ∧ ∃ front, Quiet front ∧
      ((c.handleWrite r).trace = front ∨
        (c.handleWrite r).trace = front ++ [.shutdownWrite] ∧ c.channel.isWriting ∧
          c.state = .kDisconnecting ∧ c.Drains r ∧
          ¬(c.handleWrite r).val.channel.isWriting) := by
  refine ⟨handleWrite_state c r, ?_⟩
  obtain ⟨outputBuffer, front, hfront, heq | ⟨hwriting, hdrained, hpos, rfl, heq⟩⟩ :=
    handleWrite_cases c r
  · exact ⟨front, hfront.quiet, Or.inl (by rw [heq])⟩
  · obtain ⟨-, tail, htail, htrace⟩ := handleDrained_fin { c with
      outputBuffer := (c.outputBuffer.retrieve
        (write r c.outputBuffer.retrieveAsString.1).val.toNat).val }
    refine ⟨front ++ tail, quiet_append.mpr ⟨hfront.quiet, htail⟩, ?_⟩
    rw [heq, htrace, ← List.append_assoc]
    by_cases hstate : c.state = .kDisconnecting
    · rw [if_pos hstate]
      exact Or.inr ⟨rfl, hwriting, hstate, drains_of_retrieve h hwriting hpos hdrained,
        (handleDrained_spec _).2.1⟩
    · rw [if_neg hstate, List.append_nil]
      exact Or.inl rfl

/-! ## Closing -/

theorem shutdownWrite_not_mem_handleClose (c : TcpConnection) :
    .shutdownWrite ∉ (c.handleClose).trace := by
  simp [handleClose, updateChannel, Traced.mem_check_trace]

/-- A read event that closes the connection sends no `FIN`. -/
theorem handleRead_closes {c : TcpConnection} {r : Option Bytes} {consumed : Nat}
    (hclose : .closeCallback ∈ (c.handleRead r consumed).trace) :
    (c.handleRead r consumed).val.state = .kDisconnected ∧
      .shutdownWrite ∉ (c.handleRead r consumed).trace := by
  by_cases hpos : 0 < (c.inputBuffer.readFd r).val.1
  · simp [handleRead, hpos] at hclose
  · by_cases hzero : (c.inputBuffer.readFd r).val.1 = 0
    · refine ⟨by simp [handleRead, hzero], ?_⟩
      simp [handleRead, hzero, shutdownWrite_not_mem_handleClose]
    · simp [handleRead, hpos, hzero] at hclose

/-! ## The channel -/

/-- A member function leaves the channel and the poller alone, or updates the channel
with a new interest set. -/
inductive Interest (c c' : TcpConnection) : Prop
  | same (channel : c'.channel = c.channel) (poller : c'.poller = c.poller)
  | updated (events : EventMask)
      (updated : (c'.poller, c'.channel) = (c.poller.updateChannel { c.channel with events }).val)

/-- What every member function but `connectionDestroyed` respects. -/
structure Effect (c : TcpConnection) (x : Traced Event TcpConnection) : Prop where
  state : x.val.state = c.state ∨ x.val.state = .kDisconnected
  interest : c.Interest x.val
  closes : .closeCallback ∈ x.trace → x.val.state = .kDisconnected
  asserts : .poller (.failed .removeIsNoneEvent) ∉ x.trace

@[simp] theorem removeIsNoneEvent_not_mem_updateChannel (c : TcpConnection) (channel : Channel) :
    .poller (.failed .removeIsNoneEvent) ∉ (c.updateChannel channel).trace := by
  simp [updateChannel]

theorem sendInLoop_effect (c : TcpConnection) (message : Bytes) (r : WriteResult) :
    c.Effect (c.sendInLoop message r) := by
  have hdirect : .poller (.failed .removeIsNoneEvent) ∉ (c.sendDirectly message r).trace := by
    unfold sendDirectly
    split_ifs with hidle
    · cases r <;> simp [write]
    · simp
  constructor
  case state => exact Or.inl (sendInLoop_state c message r)
  case interest =>
    by_cases hrest : (c.sendDirectly message r).val.toNat < message.length
    · by_cases hwriting : c.channel.isWriting
      · exact .same (by simp [sendInLoop, sendLater, hrest, hwriting])
          (by simp [sendInLoop, sendLater, hrest, hwriting])
      · apply Interest.updated (c.channel.events ||| kWriteEvent)
        simp [sendInLoop, sendLater, hrest, hwriting, updateChannel, Channel.enableWriting]
    · exact .same (by simp [sendInLoop, hrest]) (by simp [sendInLoop, hrest])
  case closes => exact fun hclose => absurd hclose (quiet_sendInLoop c message r).2
  case asserts =>
    by_cases hrest : (c.sendDirectly message r).val.toNat < message.length
    · by_cases hwriting : c.channel.isWriting <;>
        simp [sendInLoop, sendLater, hdirect, hrest, hwriting, Traced.mem_check_trace]
    · simp [sendInLoop, hdirect, hrest, Traced.mem_check_trace]

theorem startReadInLoop_effect (c : TcpConnection) : c.Effect c.startReadInLoop := by
  constructor
  case state => exact Or.inl (startReadInLoop_state c)
  case interest =>
    unfold startReadInLoop
    split_ifs
    · exact .updated (c.channel.events ||| kReadEvent) rfl
    · exact .same rfl rfl
  case closes => exact fun hclose => absurd hclose (quiet_startReadInLoop c).2
  case asserts =>
    unfold startReadInLoop
    split_ifs <;> simp

theorem stopReadInLoop_effect (c : TcpConnection) : c.Effect c.stopReadInLoop := by
  constructor
  case state => exact Or.inl (stopReadInLoop_state c)
  case interest =>
    unfold stopReadInLoop
    split_ifs
    · exact .updated (c.channel.events &&& ~~~kReadEvent) rfl
    · exact .same rfl rfl
  case closes => exact fun hclose => absurd hclose (quiet_stopReadInLoop c).2
  case asserts =>
    unfold stopReadInLoop
    split_ifs <;> simp

theorem handleClose_effect (c : TcpConnection) : c.Effect c.handleClose := by
  constructor
  case state => exact Or.inr rfl
  case interest => exact .updated kNoneEvent rfl
  case closes => exact fun _ => rfl
  case asserts => simp [handleClose, Traced.mem_check_trace]

theorem handleRead_effect (c : TcpConnection) (r : Option Bytes) (consumed : Nat) :
    c.Effect (c.handleRead r consumed) := by
  constructor
  case state => exact handleRead_state c r consumed
  case interest =>
    by_cases hpos : 0 < (c.inputBuffer.readFd r).val.1
    · exact .same (by simp [handleRead, hpos]) (by simp [handleRead, hpos])
    · by_cases hzero : (c.inputBuffer.readFd r).val.1 = 0
      · exact .updated kNoneEvent (by simp [handleRead, hzero]; rfl)
      · exact .same (by simp [handleRead, hpos, hzero]) (by simp [handleRead, hpos, hzero])
  case closes => exact fun hclose => (handleRead_closes hclose).1
  case asserts =>
    by_cases hpos : 0 < (c.inputBuffer.readFd r).val.1
    · simp [handleRead, hpos]
    · by_cases hzero : (c.inputBuffer.readFd r).val.1 = 0
      · -- The peer has closed, and `handleRead` does what `handleClose` does.
        have hclose := handleClose_effect { c with inputBuffer := (c.inputBuffer.readFd r).val.2 }
        simpa [handleRead, hzero] using hclose.asserts
      · simp [handleRead, hpos, hzero]

theorem handleWrite_effect (c : TcpConnection) (r : WriteResult) : c.Effect (c.handleWrite r) := by
  obtain ⟨outputBuffer, front, hfront, heq | ⟨-, -, -, -, heq⟩⟩ := handleWrite_cases c r
  · rw [heq]
    constructor
    case state => exact Or.inl rfl
    case interest => exact .same rfl rfl
    case closes => exact fun hclose => absurd hclose hfront.quiet.2
    case asserts =>
      intro hassert
      simpa using hfront _ hassert
  · rw [heq]
    constructor
    case state => exact Or.inl rfl
    case interest => exact .updated (c.channel.events &&& ~~~kWriteEvent) rfl
    case closes =>
      intro hclose
      rcases List.mem_append.mp hclose with hclose | hclose
      · exact absurd hclose hfront.quiet.2
      · obtain ⟨-, tail, hquiet, htrace⟩ := handleDrained_fin { c with outputBuffer }
        rw [htrace, List.mem_append] at hclose
        rcases hclose with hclose | hclose
        · exact absurd hclose hquiet.2
        · split_ifs at hclose <;> simp at hclose
    case asserts =>
      intro hassert
      rcases List.mem_append.mp hassert with hassert | hassert
      · simpa using hfront _ hassert
      · simp [handleDrained, shutdownInLoop] at hassert

end TcpConnection
end Chaonet
