import Chaonet.Connection.Handlers

/-!
# What passes through a connection

Bytes come in by `readv`, wait in the input buffer, are sent, wait in the output buffer and go out by
`::write`.  A member loses none of them (`Passes`): what was in the output buffer before, and what
the member has sent, is what it has written and what is in the output buffer after it, in this order,
and the bytes that it has read are at the end of the input buffer.
-/

namespace Chaonet

open Foundation

namespace TcpConnection

/-- The buffers are valid, and write interest is on exactly while bytes wait to be written, until
the connection is down. -/
structure Buffered (c : TcpConnection) : Prop where
  input : c.inputBuffer.Valid
  output : c.outputBuffer.Valid
  interest : c.state ≠ .kDisconnected → (c.channel.isWriting ↔ 0 < c.outputBuffer.readableBytes)
  idle : c.state = .kDisconnected → ¬c.channel.isWriting

/-- A member that reads `read` and sends `sent`. -/
structure Passes (c : TcpConnection) (read sent : Bytes) (x : Traced Event TcpConnection) : Prop where
  buffered : Buffered x.val
  input : x.val.inputBuffer.content = c.inputBuffer.content ++ read
  output : bytesWritten x.trace ++ x.val.outputBuffer.content = c.outputBuffer.content ++ sent

/-- What a callback of the channel reads from the socket. -/
def received : ChannelCallback → Option Bytes → Bytes
  | .readCallback, some data => data
  | _, _ => []

variable {c : TcpConnection}

theorem Buffered.streams (h : Buffered c) (hstate : c.state ≠ .kDisconnected) :
    c.Streams c.outputBuffer.content [] :=
  ⟨h.output, List.nil_append _, h.interest hstate⟩

/-- A member of a connection that is not down, and that leaves the input buffer alone. -/
theorem passes_of_streams {x : Traced Event TcpConnection} {sent : Bytes} (h : Buffered c)
    (hstate : x.val.state ≠ .kDisconnected) (hinput : x.val.inputBuffer = c.inputBuffer)
    (hstreams : x.val.Streams (c.outputBuffer.content ++ sent) (bytesWritten x.trace)) :
    Passes c [] sent x := by
  constructor
  · exact ⟨hinput ▸ h.input, hstreams.valid, fun _ => hstreams.interest,
      fun hdown => absurd hdown hstate⟩
  · rw [hinput, List.append_nil]
  · exact hstreams.stream

theorem passes_pure (h : Buffered c) : Passes c [] [] (pure c) :=
  ⟨h, (List.append_nil _).symm, (List.append_nil _).symm⟩

theorem buffered_create (channel : Channel) (poller : EPoller) (writeComplete highWater : Bool)
    (hidle : ¬channel.isWriting) : Buffered (create channel poller writeComplete highWater) :=
  ⟨Buffer.fresh_valid, Buffer.fresh_valid, fun _ => ⟨fun hwriting => absurd hwriting hidle,
    fun hpos => absurd hpos (Nat.lt_irrefl 0)⟩, fun _ => hidle⟩

theorem Buffered.revents (h : Buffered c) (revents : EventMask) :
    Buffered { c with channel := { c.channel with revents } } :=
  ⟨h.input, h.output, h.interest, h.idle⟩

theorem Buffered.on (h : Buffered c) (poller : EPoller) : Buffered (c.on poller) :=
  ⟨h.input, h.output, h.interest, h.idle⟩

theorem Buffered.of_on {poller : EPoller} (h : Buffered (c.on poller)) : Buffered c :=
  ⟨h.input, h.output, h.interest, h.idle⟩

/-! ## Members that only change the interest set -/

theorem passes_updateChannel (h : Buffered c) (channel : Channel)
    (hwriting : channel.isWriting ↔ c.channel.isWriting) :
    Passes c [] [] (c.updateChannel channel) := by
  refine ⟨⟨h.input, h.output, fun hstate => ?_, fun hstate => ?_⟩, (List.append_nil _).symm, ?_⟩
  · rw [updateChannel_isWriting, hwriting]
    exact h.interest hstate
  · rw [updateChannel_isWriting, hwriting]
    exact h.idle hstate
  · simp

theorem passes_startReadInLoop (h : Buffered c) : Passes c [] [] c.startReadInLoop := by
  unfold startReadInLoop
  split_ifs
  · obtain ⟨hbuffered, hinput, -⟩ := passes_updateChannel h c.channel.enableReading (by simp)
    exact ⟨⟨hbuffered.input, hbuffered.output, hbuffered.interest, hbuffered.idle⟩, hinput, by simp⟩
  · exact passes_pure h

theorem passes_stopReadInLoop (h : Buffered c) : Passes c [] [] c.stopReadInLoop := by
  unfold stopReadInLoop
  split_ifs
  · obtain ⟨hbuffered, hinput, -⟩ := passes_updateChannel h c.channel.disableReading (by simp)
    exact ⟨⟨hbuffered.input, hbuffered.output, hbuffered.interest, hbuffered.idle⟩, hinput, by simp⟩
  · exact passes_pure h

/-- The connection callback is called for a connection that is up. -/
theorem passes_connectionEstablished (h : Buffered c) (hstate : c.state = .kConnecting) :
    Passes c [] [] c.connectionEstablished := by
  have hup : Buffered { c with state := .kConnected } :=
    ⟨h.input, h.output, fun _ => h.interest (by simp [hstate]), nofun⟩
  obtain ⟨hbuffered, hinput, -⟩ := passes_updateChannel hup c.channel.enableReading (by simp)
  refine ⟨hbuffered, hinput, ?_⟩
  simp [connectionEstablished]

/-- A connection that has been established, with or without a callback for a completed write. -/
def established (ptr : ChannelPtr) (sockfd : Int) (poller : EPoller) (writeComplete : Bool) :
    TcpConnection :=
  (create (Channel.create ptr sockfd) poller writeComplete false).connectionEstablished.val

theorem buffered_established (ptr : ChannelPtr) (sockfd : Int) (poller : EPoller)
    (writeComplete : Bool) : Buffered (established ptr sockfd poller writeComplete) := by
  have hnew := buffered_create (Channel.create ptr sockfd) poller writeComplete false
    (by simp [Channel.create, Channel.isWriting])
  exact (passes_connectionEstablished hnew rfl).buffered

/-- A connection that goes down keeps what is in its buffers. -/
theorem Buffered.disabled (h : Buffered c) :
    Buffered ({ c with state := .kDisconnected }.updateChannel c.channel.disableAll).val :=
  ⟨h.input, h.output, fun hstate => absurd rfl hstate, fun _ => by
    simp [Channel.not_isWriting_of_isNoneEvent]⟩

theorem passes_handleClose (h : Buffered c) : Passes c [] [] c.handleClose :=
  ⟨h.disabled, (List.append_nil _).symm, by simp [handleClose]⟩

theorem passes_connectionDestroyed (h : Buffered c) : Passes c [] [] c.connectionDestroyed := by
  have hremoved (d : TcpConnection) : d.removeChannel.val.channel.events = d.channel.events := by
    simp [removeChannel, EPoller.removeChannel_snd]
  unfold connectionDestroyed
  split_ifs with hstate
  · obtain ⟨hinput, houtput, -, hidle⟩ := h.disabled
    refine ⟨⟨hinput, houtput, fun hup => absurd rfl hup, fun _ => ?_⟩, (List.append_nil _).symm, ?_⟩
    · simp only [Traced.bind_val, Traced.pure_val, Channel.isWriting, hremoved]
      exact hidle rfl
    · simp [removeChannel]
  · refine ⟨⟨h.input, h.output, fun hup => ?_, fun hdown => ?_⟩, (List.append_nil _).symm, ?_⟩
    · simp only [Traced.bind_val, Traced.pure_val, Channel.isWriting, hremoved]
      exact h.interest hup
    · simp only [Traced.bind_val, Traced.pure_val, Channel.isWriting, hremoved]
      exact h.idle hdown
    · simp [removeChannel]

theorem passes_shutdown (h : Buffered c) : Passes c [] [] c.shutdown := by
  unfold shutdown shutdownInLoop
  split_ifs with hstate
  · have hinterest := h.interest (by simp [hstate])
    refine ⟨⟨h.input, h.output, fun _ => hinterest, by simp⟩, (List.append_nil _).symm, ?_⟩
    by_cases hwriting : c.channel.isWriting <;> simp [hwriting]
  · exact passes_pure h

/-! ## Sending and writing -/

@[simp] theorem sendInLoop_inputBuffer (c : TcpConnection) (message : Bytes) (r : WriteResult) :
    (c.sendInLoop message r).val.inputBuffer = c.inputBuffer := by
  by_cases hrest : (c.sendDirectly message r).val.toNat < message.length
  · by_cases hwriting : c.channel.isWriting
    · simp [sendInLoop, sendLater, hrest, hwriting]
    · simp [sendInLoop, sendLater, hrest, hwriting, updateChannel]
  · simp [sendInLoop, hrest]

@[simp] theorem send_inputBuffer (c : TcpConnection) (message : Bytes) (r : WriteResult) :
    (c.send message r).val.inputBuffer = c.inputBuffer := by
  unfold send
  split_ifs
  · exact sendInLoop_inputBuffer c message r
  · rfl

@[simp] theorem shutdown_inputBuffer (c : TcpConnection) :
    c.shutdown.val.inputBuffer = c.inputBuffer := by
  unfold shutdown
  split_ifs <;> rfl

@[simp] theorem handleWrite_inputBuffer (c : TcpConnection) (r : WriteResult) :
    (c.handleWrite r).val.inputBuffer = c.inputBuffer := by
  obtain ⟨outputBuffer, front, -, heq | ⟨-, -, -, -, heq⟩⟩ := handleWrite_cases c r
  · rw [heq]
  · rw [heq]
    rfl

theorem passes_sendInLoop (h : Buffered c) (hstate : c.state ≠ .kDisconnected) (message : Bytes)
    (r : WriteResult) : Passes c [] message (c.sendInLoop message r) :=
  passes_of_streams h (by rwa [sendInLoop_state]) (sendInLoop_inputBuffer c message r)
    (sendInLoop_streams (h.streams hstate) message r)

/-- `send` drops the message unless the connection is up. -/
theorem passes_send (h : Buffered c) (message : Bytes) (r : WriteResult) :
    Passes c [] (if c.state = .kConnected then message else []) (c.send message r) := by
  unfold send
  split_ifs with hstate
  · exact passes_sendInLoop h (by simp [hstate]) message r
  · exact passes_pure h

@[simp] theorem send_state (c : TcpConnection) (message : Bytes) (r : WriteResult) :
    (c.send message r).val.state = c.state := by
  unfold send
  split_ifs
  · exact sendInLoop_state c message r
  · rfl

theorem passes_handleWrite (h : Buffered c) (r : WriteResult) :
    Passes c [] [] (c.handleWrite r) := by
  by_cases hstate : c.state = .kDisconnected
  · have hstill : c.handleWrite r = pure c := if_neg (h.idle hstate)
    rw [hstill]
    exact passes_pure h
  · refine passes_of_streams h (by rwa [handleWrite_state]) (handleWrite_inputBuffer c r) ?_
    rw [List.append_nil]
    exact handleWrite_streams (h.streams hstate) r

/-! ## Reading -/

/-- The bytes are left to the message callback, which takes them itself. -/
theorem passes_handleRead (h : Buffered c) (read : Option Bytes) :
    Passes c (received .readCallback read) [] (c.handleRead read 0) := by
  cases read with
  | none => exact passes_pure h
  | some data =>
      by_cases hsome : 0 < data.length
      · obtain ⟨inputBuffer, hvalid, hcontent, hread⟩ := handleRead_bytes h.input data hsome
        rw [hread]
        exact ⟨⟨hvalid, h.output, h.interest, h.idle⟩, hcontent, by simp⟩
      · -- The end of the stream closes the connection.
        obtain rfl : data = [] := List.length_eq_zero_iff.mp (Nat.eq_zero_of_not_pos hsome)
        obtain ⟨⟨hvalid, hcontent, -⟩, -⟩ := Buffer.readFd_keeps h.input []
        have hread : c.handleRead (some []) 0 =
            { c with inputBuffer := (c.inputBuffer.readFd (some [])).val.2 }.handleClose := rfl
        rw [hread]
        obtain ⟨hbuffered, -, houtput⟩ := passes_handleClose
          (c := { c with inputBuffer := (c.inputBuffer.readFd (some [])).val.2 })
          ⟨hvalid, h.output, h.interest, h.idle⟩
        exact ⟨hbuffered, hcontent, houtput⟩

/-- Whoever reads bytes tells the message callback. -/
theorem messageCallback_mem_handle (h : Buffered c) (read : Option Bytes) (write : WriteResult)
    (cb : ChannelCallback) (hread : received cb read ≠ []) :
    .messageCallback ∈ (c.handle ⟨read, 0, write⟩ cb).trace := by
  cases cb with
  | readCallback =>
      cases read with
      | none => exact absurd rfl hread
      | some data =>
          obtain ⟨inputBuffer, -, -, heq⟩ := handleRead_bytes h.input data
            (List.length_pos_iff.mpr hread)
          rw [handle, heq]
          exact List.mem_singleton_self _
  | closeCallback | errorCallback | writeCallback => exact absurd rfl hread

/-- Where the message callback is not called, nothing has been read. -/
theorem received_of_handle_quiet (h : Buffered c) {read : Option Bytes} {write : WriteResult}
    {cb : ChannelCallback} (hquiet : .messageCallback ∉ (c.handle ⟨read, 0, write⟩ cb).trace) :
    received cb read = [] := by
  by_contra hread
  exact hquiet (messageCallback_mem_handle h read write cb hread)

theorem passes_handle (h : Buffered c) (read : Option Bytes) (write : WriteResult)
    (cb : ChannelCallback) :
    Passes c (received cb read) [] (c.handle ⟨read, 0, write⟩ cb) := by
  cases cb with
  | closeCallback => exact passes_handleClose h
  | errorCallback => exact passes_pure h
  | readCallback => exact passes_handleRead h read
  | writeCallback => exact passes_handleWrite h write

/-! ## Taking what has been read -/

/-- The connection after `retrieveAsString` of its input buffer. -/
def retrieved (c : TcpConnection) : TcpConnection :=
  { c with inputBuffer := c.inputBuffer.retrieveAsString.2 }

theorem buffered_retrieved (h : Buffered c) : Buffered c.retrieved :=
  ⟨Buffer.retrieveAll_valid h.input, h.output, h.interest, h.idle⟩

theorem retrieved_content (c : TcpConnection) : c.retrieved.inputBuffer.content = [] :=
  Buffer.retrieveAll_content c.inputBuffer

/-- `send(buf)` with the input buffer. -/
def sendBuffer (c : TcpConnection) (r : WriteResult) : Traced Event TcpConnection :=
  if c.state = .kConnected then c.retrieved.sendInLoop c.inputBuffer.retrieveAsString.1 r
  else pure c

@[simp] theorem sendBuffer_state (c : TcpConnection) (r : WriteResult) :
    (c.sendBuffer r).val.state = c.state := by
  unfold sendBuffer
  split_ifs
  · exact sendInLoop_state _ _ _
  · rfl

/-- All that has been read is sent. -/
theorem passes_sendBuffer (h : Buffered c) (hup : c.state = .kConnected) (r : WriteResult) :
    Passes c.retrieved [] c.inputBuffer.content (c.sendBuffer r) := by
  have hsent := passes_sendInLoop (buffered_retrieved h) (by simp [retrieved, hup])
    c.inputBuffer.content r
  rwa [sendBuffer, if_pos hup, Buffer.retrieveAsString_fst h.input]

/-! ## The state -/

theorem handle_state (c : TcpConnection) (read : Option Bytes) (write : WriteResult)
    (cb : ChannelCallback) : (c.handle ⟨read, 0, write⟩ cb).val.state = c.state ∨
      (c.handle ⟨read, 0, write⟩ cb).val.state = .kDisconnected := by
  cases handled_handle c read write cb with
  | still same => exact .inl same.1
  | message same => exact .inl same.1
  | close _ same => exact .inr same.1

/-- A member that may close a connection connects none. -/
theorem up_of_or {x : TcpConnection} (h : x.state = c.state ∨ x.state = .kDisconnected)
    (hup : x.state = .kConnected) : c.state = .kConnected := by
  rcases h with hsame | hdown
  · exact hsame.symm.trans hup
  · exact nomatch hdown.symm.trans hup

theorem shutdown_up (h : c.shutdown.val.state = .kConnected) : c.state = .kConnected := by
  unfold shutdown at h
  split_ifs at h with hstate
  exact absurd h hstate

/-! ## The end of the stream -/

theorem Buffered.content_eq_nil (h : Buffered c) (hstate : c.state ≠ .kDisconnected)
    (hidle : ¬c.channel.isWriting) : c.outputBuffer.content = [] :=
  (h.streams hstate).content_eq_nil hidle

theorem shutdownWrite_not_mem_send (c : TcpConnection) (message : Bytes) (r : WriteResult) :
    .shutdownWrite ∉ (c.send message r).trace := by
  unfold send
  split_ifs
  · exact (quiet_sendInLoop c message r).1
  · exact List.not_mem_nil

theorem shutdownWrite_not_mem_connectionDestroyed (c : TcpConnection) :
    .shutdownWrite ∉ c.connectionDestroyed.trace := by
  unfold connectionDestroyed
  split_ifs <;> simp [updateChannel, removeChannel]

/-- `shutdown` of a connection that is up sends the `FIN` unless something waits to be written. -/
theorem shutdown_fin (h : Buffered c) (hfin : .shutdownWrite ∈ c.shutdown.trace) :
    c.state = .kConnected ∧ c.outputBuffer.content = [] := by
  unfold shutdown shutdownInLoop at hfin
  split_ifs at hfin with hstate
  · refine ⟨hstate, h.content_eq_nil (by simp [hstate]) fun hwriting => ?_⟩
    simp [hwriting] at hfin
  · simp at hfin

theorem shutdownWrite_not_mem_handleRead (h : Buffered c) (read : Option Bytes) :
    .shutdownWrite ∉ (c.handleRead read 0).trace := by
  cases read with
  | none => simp [handleRead, Buffer.readFd]
  | some data =>
      by_cases hsome : 0 < data.length
      · obtain ⟨inputBuffer, -, -, hread⟩ := handleRead_bytes h.input data hsome
        rw [hread]
        simp
      · obtain rfl : data = [] := List.length_eq_zero_iff.mp (Nat.eq_zero_of_not_pos hsome)
        obtain ⟨inputBuffer, hread⟩ := c.handleRead_end
        rw [hread]
        exact shutdownWrite_not_mem_handleClose _

/-- A callback sends the `FIN` when it has written all that has been waiting. -/
theorem handle_fin (h : Buffered c) {read : Option Bytes} {write : WriteResult}
    {cb : ChannelCallback} (hfin : .shutdownWrite ∈ (c.handle ⟨read, 0, write⟩ cb).trace) :
    c.state = .kDisconnecting ∧ (c.handle ⟨read, 0, write⟩ cb).val.state = .kDisconnecting ∧
      (c.handle ⟨read, 0, write⟩ cb).val.outputBuffer.content = [] := by
  cases cb with
  | closeCallback => exact absurd hfin (shutdownWrite_not_mem_handleClose c)
  | errorCallback => exact absurd hfin List.not_mem_nil
  | readCallback => exact absurd hfin (shutdownWrite_not_mem_handleRead h read)
  | writeCallback =>
      have hup : c.state ≠ .kDisconnected := by
        intro hdown
        have hstill : c.handleWrite write = pure c := if_neg (h.idle hdown)
        rw [handle, hstill] at hfin
        exact absurd hfin List.not_mem_nil
      obtain ⟨hstate, front, hquiet, htrace | ⟨-, -, hdisconnecting, -, hidle⟩⟩ :=
        handleWrite_fin (h.streams hup) write
      · rw [handle, htrace] at hfin
        exact absurd hfin hquiet.1
      · have hafter : (c.handleWrite write).val.state = .kDisconnecting :=
          hstate.trans hdisconnecting
        exact ⟨hdisconnecting, hafter,
          (passes_handleWrite h write).buffered.content_eq_nil (by rw [hafter]; decide) hidle⟩

end TcpConnection
end Chaonet
