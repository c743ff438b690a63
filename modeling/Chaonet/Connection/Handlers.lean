import Chaonet.Connection.Stages

/-!
# The callbacks of a channel

What a callback of the channel does with a connection, as far as its users can tell (`Handled`): it
calls none of their callbacks, it calls the message callback, or it closes the connection, which it
does if it is the close callback or finds the end of the stream.  Only a write that drains the
output buffer queues a functor.
-/

namespace Chaonet

open Foundation

namespace TcpConnection

/-- Nothing is passed to `queueInLoop`. -/
def Unqueued (es : List Event) : Prop := ∀ f, .queued f ∉ es

/-- `write` takes all that is in the output buffer. -/
def DrainedBy (c : TcpConnection) (write : WriteResult) : Prop :=
  c.channel.isWriting ∧ 0 < c.outputBuffer.readableBytes ∧
    match write with
    | .count n => c.outputBuffer.readableBytes ≤ n
    | .error _ => False

instance (c : TcpConnection) : ∀ write, Decidable (c.DrainedBy write)
  | .count _ => inferInstanceAs (Decidable (_ ∧ _ ∧ _))
  | .error _ => inferInstanceAs (Decidable (_ ∧ _ ∧ _))

variable {c : TcpConnection}

theorem unqueued_updateChannel (c : TcpConnection) (channel : Channel) :
    Unqueued (c.updateChannel channel).trace := by
  intro f hf
  simp [updateChannel] at hf

theorem unqueued_shutdown (c : TcpConnection) : Unqueued c.shutdown.trace := by
  unfold shutdown shutdownInLoop
  intro f hf
  split_ifs at hf with hstate <;> simp at hf

theorem unqueued_handleClose (c : TcpConnection) : Unqueued c.handleClose.trace := by
  intro f hf
  simp [handleClose, updateChannel, Traced.mem_check_trace] at hf

theorem unqueued_connectionDestroyed (c : TcpConnection) :
    Unqueued c.connectionDestroyed.trace := by
  intro f hf
  unfold connectionDestroyed at hf
  split_ifs at hf with hstate <;> simp [updateChannel, removeChannel] at hf

/-- What a callback of the channel does, as far as functors and callbacks of the user go. -/
inductive Handled (c : TcpConnection) (read : Option Bytes) (write : WriteResult)
    (cb : ChannelCallback) (x : Traced Event TcpConnection) : Prop
  | still (same : x.val.state = c.state ∧ x.val.writeCompleteCallback = c.writeCompleteCallback)
      (writing : ¬c.channel.isWriting → ¬x.val.channel.isWriting)
      (queued : Unqueued x.trace ∨
        cb = .writeCallback ∧ c.writeCompleteCallback = true ∧ c.DrainedBy write)
      (message : .messageCallback ∉ x.trace) (connection : .connectionCallback false ∉ x.trace)
      (close : .closeCallback ∉ x.trace)
  | message (same : x.val.state = c.state ∧ x.val.writeCompleteCallback = c.writeCompleteCallback)
      (writing : x.val.channel = c.channel) (queued : Unqueued x.trace)
      (message : .messageCallback ∈ x.trace) (connection : .connectionCallback false ∉ x.trace)
      (close : .closeCallback ∉ x.trace)
  | close (cause : cb = .closeCallback ∨ cb = .readCallback ∧ read = some [])
      (same : x.val.state = .kDisconnected ∧
        x.val.writeCompleteCallback = c.writeCompleteCallback)
      (idle : x.val.channel.isNoneEvent) (queued : Unqueued x.trace)
      (message : .messageCallback ∉ x.trace) (connection : .connectionCallback false ∈ x.trace)
      (close : .closeCallback ∈ x.trace)

@[simp] theorem handleClose_writeComplete (c : TcpConnection) :
    c.handleClose.val.writeCompleteCallback = c.writeCompleteCallback := rfl

theorem handleClose_idle (c : TcpConnection) : c.handleClose.val.channel.isNoneEvent := by
  simp [handleClose, updateChannel, Channel.isNoneEvent, Channel.disableAll]

theorem handleClose_told (c : TcpConnection) : .messageCallback ∉ c.handleClose.trace ∧
    .connectionCallback false ∈ c.handleClose.trace ∧ .closeCallback ∈ c.handleClose.trace := by
  simp [handleClose, updateChannel, Traced.mem_check_trace, connected]

theorem Outgoing.plain {es : List Event} (h : Outgoing es) : Unqueued es ∧
    .messageCallback ∉ es ∧ .connectionCallback false ∉ es ∧ .closeCallback ∉ es := by
  refine ⟨fun f hf => ?_, fun hm => ?_, fun hm => ?_, fun hm => ?_⟩
  · simpa using h _ hf
  · simpa using h _ hm
  · simpa using h _ hm
  · simpa using h _ hm

theorem outgoing_map_buffer (es : List Buffer.Assertion) : Outgoing (es.map .buffer) := by
  intro e he
  obtain ⟨a, -, rfl⟩ := List.mem_map.mp he
  exact .inr ⟨a, rfl⟩

/-- A write that makes `handleWrite` empty the output buffer. -/
theorem drainedBy_of_drained {write : WriteResult} {outputBuffer : Buffer}
    (hwriting : c.channel.isWriting) (hempty : outputBuffer.readableBytes = 0)
    (hwrote : 0 < (TcpConnection.write write c.outputBuffer.retrieveAsString.1).val)
    (hbuffer : outputBuffer = (c.outputBuffer.retrieve
      (TcpConnection.write write c.outputBuffer.retrieveAsString.1).val.toNat).val) :
    c.DrainedBy write := by
  have hlength : c.outputBuffer.retrieveAsString.1.length ≤ c.outputBuffer.readableBytes := by
    simp only [Buffer.retrieveAsString, Foundation.segment, List.length_take,
      Nat.add_sub_cancel_left]
    exact Nat.min_le_left _ _
  cases write with
  | error wouldBlock => simp [TcpConnection.write] at hwrote
  | count n =>
      have hval : (TcpConnection.write (.count n) c.outputBuffer.retrieveAsString.1).val.toNat =
          min n c.outputBuffer.retrieveAsString.1.length :=
        (Int.toNat_natCast _).trans List.length_take
      have htaken : c.outputBuffer.readableBytes ≤
          min n c.outputBuffer.retrieveAsString.1.length := by
        rw [hbuffer, hval] at hempty
        simp only [Buffer.retrieve, Buffer.readableBytes, Traced.bind_val, Traced.pure_val]
          at hempty ⊢
        omega
      refine ⟨hwriting, ?_, ?_⟩
      · omega
      · exact htaken.trans (Nat.min_le_left _ _)

theorem mem_handleDrained {e : Event} (he : e ∈ c.handleDrained.trace) :
    e = .queued .writeCompleteCallback ∧ c.writeCompleteCallback = true ∨ e = .shutdownWrite ∨
      ∃ a, e = .poller a := by
  simp only [handleDrained, updateChannel, shutdownInLoop, Traced.bind_trace, Traced.pure_trace,
    Traced.when_trace, Traced.lift_trace, List.append_nil, List.mem_append, List.mem_map] at he
  rcases he with ⟨a, -, rfl⟩ | hqueue | hfin
  · exact .inr (.inr ⟨a, rfl⟩)
  · split_ifs at hqueue with hset
    · exact .inl ⟨by simpa using hqueue, hset⟩
    · simp at hqueue
  · split_ifs at hfin
    · simp at hfin
    · exact .inr (.inl (by simpa using hfin))
    · simp at hfin

theorem handled_handleWrite (c : TcpConnection) (read : Option Bytes) (write : WriteResult) :
    Handled c read write .writeCallback (c.handleWrite write) := by
  obtain ⟨outputBuffer, front, hfront, heq | ⟨hwriting, hempty, hwrote, hbuffer, heq⟩⟩ :=
    handleWrite_cases c write
  · obtain ⟨hqueued, hmessage, hconnection, hclose⟩ := hfront.plain
    rw [heq]
    exact .still ⟨rfl, rfl⟩ id (.inl hqueued) hmessage hconnection hclose
  · obtain ⟨hqueued, hmessage, hconnection, hclose⟩ := hfront.plain
    have hdrained := drainedBy_of_drained hwriting hempty hwrote hbuffer
    rw [heq]
    refine .still ⟨rfl, rfl⟩ (fun hno => absurd hwriting hno) ?_ ?_ ?_ ?_
    · by_cases hset : c.writeCompleteCallback = true
      · exact .inr ⟨rfl, hset, hdrained⟩
      · refine .inl fun f hf => (List.mem_append.mp hf).elim (hqueued f) fun hm => ?_
        simpa [hset] using mem_handleDrained hm
    · exact fun hm => (List.mem_append.mp hm).elim hmessage fun hm => by
        simpa using mem_handleDrained hm
    · exact fun hm => (List.mem_append.mp hm).elim hconnection fun hm => by
        simpa using mem_handleDrained hm
    · exact fun hm => (List.mem_append.mp hm).elim hclose fun hm => by
        simpa using mem_handleDrained hm

theorem readFd_fst (b : Buffer) (data : Bytes) : (b.readFd (some data)).val.1 = data.length := by
  unfold Buffer.readFd
  dsimp only
  split_ifs <;> rfl

theorem retrieve_zero (b : Buffer) : b.retrieve 0 = ⟨b, []⟩ := by
  simp [Buffer.retrieve, Traced.check_of, bind, pure]

/-- The end of the stream closes the connection. -/
theorem handleRead_end (c : TcpConnection) :
    ∃ inputBuffer, c.handleRead (some []) 0 = { c with inputBuffer }.handleClose := by
  have hread : c.inputBuffer.readFd (some []) =
      pure (0, (c.inputBuffer.copyToBeginWrite []).hasWritten 0) := by
    simp [Buffer.readFd]
  refine ⟨(c.inputBuffer.copyToBeginWrite []).hasWritten 0, ?_⟩
  rw [handleRead, hread]
  rfl

theorem handled_handleRead (c : TcpConnection) (read : Option Bytes) (write : WriteResult) :
    Handled c read write .readCallback (c.handleRead read 0) := by
  have hfront := outgoing_map_buffer (c.inputBuffer.readFd read).trace
  obtain ⟨hqueued, hmessage, hconnection, hclose⟩ := hfront.plain
  cases read with
  | none =>
      -- An error is logged.
      exact .still ⟨rfl, rfl⟩ id (.inl hqueued) hmessage hconnection hclose
  | some data =>
      cases data with
      | nil =>
          obtain ⟨inputBuffer, hread⟩ := c.handleRead_end
          obtain ⟨hno, hdown, hremoved⟩ := handleClose_told { c with inputBuffer }
          rw [hread]
          exact .close (.inr ⟨rfl, rfl⟩) ⟨rfl, rfl⟩ (handleClose_idle _) (unqueued_handleClose _)
            hno hdown hremoved
      | cons byte data =>
          have hread : c.handleRead (some (byte :: data)) 0 =
              ⟨{ c with inputBuffer := (c.inputBuffer.readFd (some (byte :: data))).val.2 },
                (c.inputBuffer.readFd (some (byte :: data))).trace.map .buffer ++
                  [.messageCallback]⟩ := by
            simp [handleRead, bind, pure, readFd_fst, retrieve_zero, Traced.lift, Traced.emit]
          rw [hread]
          refine .message ⟨rfl, rfl⟩ rfl ?_ ?_ ?_ ?_
          · exact fun f hf => (List.mem_append.mp hf).elim (hqueued f) fun hm => by simp at hm
          · exact List.mem_append_right _ (List.mem_singleton_self _)
          · exact fun hm => (List.mem_append.mp hm).elim hconnection fun hm => by simp at hm
          · exact fun hm => (List.mem_append.mp hm).elim hclose fun hm => by simp at hm

theorem handled_handle (c : TcpConnection) (read : Option Bytes) (write : WriteResult)
    (cb : ChannelCallback) : Handled c read write cb (c.handle ⟨read, 0, write⟩ cb) := by
  cases cb with
  | closeCallback =>
      obtain ⟨hmessage, hconnection, hclose⟩ := handleClose_told c
      exact .close (.inl rfl) ⟨rfl, rfl⟩ (handleClose_idle c) (unqueued_handleClose c) hmessage
        hconnection hclose
  | errorCallback =>
      have hnil : Outgoing [] := fun e he => absurd he List.not_mem_nil
      obtain ⟨hqueued, hmessage, hconnection, hclose⟩ := hnil.plain
      exact .still ⟨rfl, rfl⟩ id (.inl hqueued) hmessage hconnection hclose
  | readCallback => exact handled_handleRead c read write
  | writeCallback => exact handled_handleWrite c read write

/-! ## What becomes of the bytes -/

/-- What is read is left to the message callback. -/
theorem handleRead_bytes (hinput : c.inputBuffer.Valid) (data : Bytes) (hdata : 0 < data.length) :
    ∃ inputBuffer : Buffer, inputBuffer.Valid ∧
      inputBuffer.content = c.inputBuffer.content ++ data ∧
      c.handleRead (some data) 0 = ⟨{ c with inputBuffer }, [.messageCallback]⟩ := by
  obtain ⟨⟨hvalid, hcontent, hasserted⟩, hcount⟩ := Buffer.readFd_keeps hinput data
  rw [Traced.map_val] at hvalid hcontent
  rw [Traced.map_trace] at hasserted
  refine ⟨_, hvalid, hcontent, ?_⟩
  simp [handleRead, bind, pure, hcount, hasserted, retrieve_zero, Traced.lift, Traced.emit, hdata]

/-- A message that the kernel takes nothing of. -/
theorem sendInLoop_refused {message : Bytes} (hmessage : 0 < message.length) (wouldBlock : Bool) :
    c.sendInLoop message (.error wouldBlock) = c.sendLater message 0 := by
  have hdirect : c.sendDirectly message (.error wouldBlock) = pure 0 := by
    unfold sendDirectly write
    split_ifs <;> rfl
  rw [sendInLoop, hdirect]
  change (if 0 < message.length then c.sendLater message 0 else pure c) = _
  rw [if_pos hmessage]

theorem sendLater_val (message : Bytes) (hidle : ¬c.channel.isWriting) :
    (c.sendLater message 0).val =
      ({ c with outputBuffer := (c.outputBuffer.append message).val }.updateChannel
        c.channel.enableWriting).val := by
  simp [sendLater, hidle]

/-- Bytes that stay below the high-water mark. -/
theorem unqueued_sendLater (message : Bytes) (houtput : c.outputBuffer.Valid)
    (hidle : ¬c.channel.isWriting)
    (hbelow : c.outputBuffer.readableBytes + message.length < c.highWaterMark) :
    Unqueued (c.sendLater message 0).trace := by
  obtain ⟨-, -, hasserted⟩ := Buffer.append_keeps houtput message
  have hupdate := unqueued_updateChannel
    { c with outputBuffer := (c.outputBuffer.append message).val } c.channel.enableWriting
  simpa [sendLater, hidle, hasserted, Nat.not_le.mpr hbelow] using hupdate

/-- Bytes that reach it. -/
theorem sendLater_reaches (message : Bytes) (houtput : c.outputBuffer.Valid)
    (hwriting : c.channel.isWriting) (hcallback : c.highWaterMarkCallback = true)
    (hbelow : c.outputBuffer.readableBytes < c.highWaterMark)
    (hreached : c.highWaterMark ≤ c.outputBuffer.readableBytes + message.length) :
    c.sendLater message 0 = ⟨{ c with outputBuffer := (c.outputBuffer.append message).val },
      [.queued (.highWaterMarkCallback (c.outputBuffer.readableBytes + message.length))]⟩ := by
  obtain ⟨-, -, hasserted⟩ := Buffer.append_keeps houtput message
  have hval : (c.sendLater message 0).val =
      { c with outputBuffer := (c.outputBuffer.append message).val } := by
    simp [sendLater, hwriting]
  have htrace : (c.sendLater message 0).trace =
      [.queued (.highWaterMarkCallback (c.outputBuffer.readableBytes + message.length))] := by
    simp [sendLater, hwriting, hcallback, hbelow, hreached, hasserted]
  rw [← hval, ← htrace]

end TcpConnection
end Chaonet
