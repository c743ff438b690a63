import Chaonet.Connection.TcpConnection
import Chaonet.Foundation.Run

/-!
# The outgoing byte stream

Every message that reaches `sendInLoop` takes one of four ways to the socket: written
at once, written in part and buffered, buffered after a failed write, or buffered
behind earlier data.  `Streams` is the invariant on which they agree: the accepted
bytes followed by the buffered ones are the stream of all messages, and write interest
is on exactly while something is buffered.
-/

namespace Chaonet

open Foundation

namespace TcpConnection

/-- The bytes an event adds to the stream on the socket. -/
@[simp] def Event.bytes : Event → Bytes
  | .wrote bytes => bytes
  | _ => []

/-- The bytes `::write` accepted, in order. -/
def bytesWritten (es : List Event) : Bytes := es.flatMap Event.bytes

@[simp] theorem bytesWritten_nil : bytesWritten [] = [] := rfl

@[simp] theorem bytesWritten_cons (e : Event) (es : List Event) :
    bytesWritten (e :: es) = e.bytes ++ bytesWritten es := rfl

@[simp] theorem bytesWritten_append (es es' : List Event) :
    bytesWritten (es ++ es') = bytesWritten es ++ bytesWritten es' := List.flatMap_append

@[simp] theorem bytesWritten_ite (p : Prop) [Decidable p] (es es' : List Event) :
    bytesWritten (if p then es else es') = if p then bytesWritten es else bytesWritten es' :=
  apply_ite bytesWritten p es es'

@[simp] theorem bytesWritten_map_poller (es : List EPoller.Event) :
    bytesWritten (es.map .poller) = [] := by
  simp [bytesWritten, List.flatMap_map]

@[simp] theorem bytesWritten_map_buffer (es : List Buffer.Assertion) :
    bytesWritten (es.map .buffer) = [] := by
  simp [bytesWritten, List.flatMap_map]

@[simp] theorem bytesWritten_check (a : Assertion) (p : Prop) [Decidable p] :
    bytesWritten (Traced.check (Event.failed a) p).trace = [] := by
  by_cases h : p <;> simp [Traced.check_trace, h]

/-! ## What changing the interest set leaves alone -/

section Frame

variable (c : TcpConnection) (channel : Channel)

@[simp] theorem updateChannel_state : (c.updateChannel channel).val.state = c.state := rfl

@[simp] theorem updateChannel_outputBuffer :
    (c.updateChannel channel).val.outputBuffer = c.outputBuffer := rfl

@[simp] theorem updateChannel_channel_events :
    (c.updateChannel channel).val.channel.events = channel.events :=
  EPoller.updateChannel_events c.poller channel

@[simp] theorem updateChannel_isWriting :
    (c.updateChannel channel).val.channel.isWriting ↔ channel.isWriting := by
  simp [Channel.isWriting]

@[simp] theorem updateChannel_isNoneEvent :
    (c.updateChannel channel).val.channel.isNoneEvent ↔ channel.isNoneEvent := by
  simp [Channel.isNoneEvent]

@[simp] theorem bytesWritten_updateChannel :
    bytesWritten (c.updateChannel channel).trace = [] := by
  simp [updateChannel]

end Frame

/-! ## The two paths of `sendInLoop` -/

/-- `::write` reports how much of a prefix of the data it accepted, or a negative value
and then accepts nothing. -/
theorem write_spec (r : WriteResult) (data : Bytes) :
    (∃ n, n ≤ data.length ∧ (write r data).val = n ∧
        bytesWritten (write r data).trace = data.take n) ∨
      ((write r data).val < 0 ∧ bytesWritten (write r data).trace = []) := by
  cases r with
  | count n =>
      refine Or.inl ⟨min n data.length, Nat.min_le_right _ _, ?_, ?_⟩
      · simp [write]
      · simp [write]
  | error wouldBlock => exact Or.inr ⟨by simp [write], rfl⟩

/-- The fast path writes a prefix of the message and reports its length; it writes
something only when nothing was waiting. -/
theorem sendDirectly_spec (c : TcpConnection) (message : Bytes) (r : WriteResult) :
    ∃ n, n ≤ message.length ∧ (c.sendDirectly message r).val = n ∧
      bytesWritten (c.sendDirectly message r).trace = message.take n ∧
      (0 < n → c.outputBuffer.readableBytes = 0) := by
  unfold sendDirectly
  split_ifs with hidle
  · rcases write_spec r message with ⟨n, hle, hval, hwritten⟩ | ⟨hneg, hwritten⟩
    · refine ⟨n, hle, ?_, ?_, fun _ => hidle.2⟩
      · simp [hval]
      · simp [hval, hwritten]
    · refine ⟨0, Nat.zero_le _, ?_, ?_, fun h => absurd h (Nat.lt_irrefl 0)⟩
      · simp [Int.not_le.mpr hneg]
      · simp [Int.not_le.mpr hneg, hwritten]
  · exact ⟨0, Nat.zero_le _, rfl, rfl, fun h => absurd h (Nat.lt_irrefl 0)⟩

/-- The slow path appends the rest of the message and turns write interest on. -/
theorem sendLater_spec {c : TcpConnection} (message : Bytes) (nwrote : Nat)
    (h : c.outputBuffer.Valid) :
    (c.sendLater message nwrote).val.outputBuffer.Valid ∧
      (c.sendLater message nwrote).val.outputBuffer.content =
        c.outputBuffer.content ++ message.drop nwrote ∧
      (c.sendLater message nwrote).val.channel.isWriting ∧
      bytesWritten (c.sendLater message nwrote).trace = [] := by
  obtain ⟨hvalid, hcontent, -⟩ := Buffer.append_keeps h (message.drop nwrote)
  by_cases hwriting : c.channel.isWriting
  · refine ⟨?_, ?_, ?_, ?_⟩
    · simpa [sendLater, hwriting] using hvalid
    · simpa [sendLater, hwriting] using hcontent
    · simp [sendLater, hwriting]
    · simp [sendLater, hwriting]
  · refine ⟨?_, ?_, ?_, ?_⟩
    · simpa [sendLater, hwriting] using hvalid
    · simpa [sendLater, hwriting] using hcontent
    · simp [sendLater, hwriting]
    · simp [sendLater, hwriting]

/-! ## The invariant -/

/-- `sent` is what was passed to `sendInLoop` and `accepted` what `::write` took. -/
structure Streams (c : TcpConnection) (sent accepted : Bytes) : Prop where
  valid : c.outputBuffer.Valid
  stream : accepted ++ c.outputBuffer.content = sent
  interest : c.channel.isWriting ↔ 0 < c.outputBuffer.readableBytes

theorem Streams.content_eq_nil {c : TcpConnection} {sent accepted : Bytes}
    (h : c.Streams sent accepted) (hidle : ¬c.channel.isWriting) :
    c.outputBuffer.content = [] :=
  (Buffer.content_eq_nil h.valid).mpr
    (Nat.eq_zero_of_not_pos fun hpos => hidle (h.interest.mpr hpos))

/-- With write interest off everything sent has been accepted. -/
theorem Streams.all_accepted {c : TcpConnection} {sent accepted : Bytes}
    (h : c.Streams sent accepted) (hidle : ¬c.channel.isWriting) : accepted = sent := by
  rw [← h.stream, h.content_eq_nil hidle, List.append_nil]

/-- Whatever way a message takes, it extends the stream by itself. -/
theorem sendInLoop_streams {c : TcpConnection} {sent accepted : Bytes}
    (h : c.Streams sent accepted) (message : Bytes) (r : WriteResult) :
    (c.sendInLoop message r).val.Streams (sent ++ message)
      (accepted ++ bytesWritten (c.sendInLoop message r).trace) := by
  obtain ⟨n, hle, hval, hwritten, hfast⟩ := sendDirectly_spec c message r
  by_cases hrest : n < message.length
  · obtain ⟨hvalid, hcontent, hwriting, hlater⟩ := sendLater_spec message n h.valid
    have hres : (c.sendInLoop message r).val = (c.sendLater message n).val := by
      simp [sendInLoop, hval, hrest]
    have htrace : bytesWritten (c.sendInLoop message r).trace = message.take n := by
      simp [sendInLoop, hwritten, hval, hrest, hlater]
    rw [hres, htrace]
    refine ⟨hvalid, ?_, ?_⟩
    · rw [hcontent, ← h.stream]
      rcases Nat.eq_zero_or_pos n with rfl | hpos
      · simp
      · have hempty := (Buffer.content_eq_nil h.valid).mpr (hfast hpos)
        simp [hempty]
    · have hne : (c.sendLater message n).val.outputBuffer.content ≠ [] := by
        rw [hcontent]
        simp [hrest]
      refine ⟨fun _ => Nat.pos_of_ne_zero fun hzero => ?_, fun _ => hwriting⟩
      exact hne ((Buffer.content_eq_nil hvalid).mpr hzero)
  · have hall : message.take n = message := List.take_of_length_le (Nat.le_of_not_lt hrest)
    have hres : (c.sendInLoop message r).val = c := by
      simp [sendInLoop, hval, hrest]
    have htrace : bytesWritten (c.sendInLoop message r).trace = message := by
      simp [sendInLoop, hwritten, hval, hrest, hall]
    rw [hres, htrace]
    refine ⟨h.valid, ?_, h.interest⟩
    -- The whole message was written, so it is empty or the buffer was.
    rcases Nat.eq_zero_or_pos n with rfl | hpos
    · have hnil : message = [] := by simpa using hall.symm
      simp [hnil, h.stream]
    · have hempty := (Buffer.content_eq_nil h.valid).mpr (hfast hpos)
      rw [← h.stream, hempty]
      simp

/-- A drained connection has write interest off and an untouched buffer. -/
theorem handleDrained_spec (c : TcpConnection) :
    (c.handleDrained).val.outputBuffer = c.outputBuffer ∧
      ¬(c.handleDrained).val.channel.isWriting ∧
      bytesWritten (c.handleDrained).trace = [] := by
  refine ⟨rfl, ?_, ?_⟩
  · simp [handleDrained]
  · simp [handleDrained, shutdownInLoop]

/-- A write event moves bytes from the buffer to the socket. -/
theorem handleWrite_streams {c : TcpConnection} {sent accepted : Bytes}
    (h : c.Streams sent accepted) (r : WriteResult) :
    (c.handleWrite r).val.Streams sent
      (accepted ++ bytesWritten (c.handleWrite r).trace) := by
  by_cases hwriting : c.channel.isWriting
  swap
  · simpa [handleWrite, hwriting] using h
  have hdata : segment c.outputBuffer.buffer c.outputBuffer.peek
      (c.outputBuffer.peek + c.outputBuffer.readableBytes) = c.outputBuffer.content :=
    Buffer.retrieveAsString_fst h.valid
  rcases write_spec r c.outputBuffer.content with ⟨n, hle, hval, hwritten⟩ | ⟨hneg, hwritten⟩
  · rcases Nat.eq_zero_or_pos n with rfl | hpos
    · simpa [handleWrite, hwriting, hdata, hval, hwritten] using h
    rw [Buffer.length_content h.valid] at hle
    obtain ⟨hvalid, hcontent, -⟩ := Buffer.retrieve_keeps h.valid hle
    have hmoved : accepted ++ c.outputBuffer.content.take n ++ c.outputBuffer.content.drop n =
        sent := by
      rw [List.append_assoc, List.take_append_drop, h.stream]
    by_cases hdrained : (c.outputBuffer.retrieve n).val.readableBytes = 0
    · obtain ⟨hbuffer, hoff, hquiet⟩ := handleDrained_spec
        { c with outputBuffer := (c.outputBuffer.retrieve n).val }
      refine ⟨?_, ?_, ?_⟩
      · simpa [handleWrite, hwriting, hdata, hval, hpos, hdrained, hbuffer] using hvalid
      · simpa [handleWrite, hwriting, hdata, hval, hpos, hdrained, hbuffer, hwritten, hquiet,
          hcontent] using hmoved
      · simp [handleWrite, hwriting, hdata, hval, hpos, hdrained, hbuffer, hoff]
    · refine ⟨?_, ?_, ?_⟩
      · simpa [handleWrite, hwriting, hdata, hval, hpos, hdrained] using hvalid
      · simpa [handleWrite, hwriting, hdata, hval, hpos, hdrained, hwritten,
          hcontent] using hmoved
      · simp [handleWrite, hwriting, hdata, hval, hpos, hdrained, Nat.pos_of_ne_zero]
  · have hnot : ¬0 < (write r c.outputBuffer.content).val := by omega
    simpa [handleWrite, hwriting, hdata, hnot, hwritten] using h

/-! ## Runs -/

/-- The two entries of the output path on the loop thread. -/
inductive OutputCall
  | sendInLoop (message : Bytes) (r : WriteResult)
  | handleWrite (r : WriteResult)
deriving DecidableEq, Repr

def outputCall (c : TcpConnection) : OutputCall → Traced Event TcpConnection
  | .sendInLoop message r => c.sendInLoop message r
  | .handleWrite r => c.handleWrite r

def OutputStep : TcpConnection → OutputCall → List Event → TcpConnection → Prop :=
  stepOf fun c call => some (c.outputCall call)

/-- The messages passed to `sendInLoop`, concatenated in call order. -/
def messagesSent (calls : List OutputCall) : Bytes :=
  calls.flatMap fun
    | .sendInLoop message _ => message
    | .handleWrite _ => []

theorem outputCall_streams {c : TcpConnection} {sent accepted : Bytes}
    (h : c.Streams sent accepted) (call : OutputCall) :
    (c.outputCall call).val.Streams (sent ++ messagesSent [call])
      (accepted ++ bytesWritten (c.outputCall call).trace) := by
  cases call with
  | sendInLoop message r => simpa [messagesSent, outputCall] using sendInLoop_streams h message r
  | handleWrite r => simpa [messagesSent, outputCall] using handleWrite_streams h r

theorem run_streams {c c' : TcpConnection} {calls : List OutputCall} {es : List Event}
    (h : Run OutputStep c calls es c') {sent accepted : Bytes} (hstart : c.Streams sent accepted) :
    c'.Streams (sent ++ messagesSent calls) (accepted ++ bytesWritten es) := by
  induction h generalizing sent accepted with
  | nil c => simpa [messagesSent] using hstart
  | @cons c t u call calls es es' hstep _ ih =>
      have hnext := outputCall_streams hstart call
      obtain rfl : (c.outputCall call).val = t := congrArg Traced.val (Option.some.inj hstep)
      obtain rfl : (c.outputCall call).trace = es := congrArg Traced.trace (Option.some.inj hstep)
      simpa [messagesSent] using ih hnext

/-- **The outgoing stream.**  From a connected connection with nothing buffered and write
interest off, after every sequence of `sendInLoop` calls and write events with arbitrary
write results, the accepted bytes followed by the buffered ones are the messages in call
order, and write interest is on exactly while something is buffered. -/
theorem output_stream {c c' : TcpConnection} {calls : List OutputCall} {es : List Event}
    (hvalid : c.outputBuffer.Valid) (hempty : c.outputBuffer.readableBytes = 0)
    (hidle : ¬c.channel.isWriting) (h : Run OutputStep c calls es c') :
    bytesWritten es ++ c'.outputBuffer.content = messagesSent calls ∧
      (c'.channel.isWriting ↔ 0 < c'.outputBuffer.readableBytes) := by
  have hstart : c.Streams [] [] :=
    ⟨hvalid, (Buffer.content_eq_nil hvalid).mpr hempty, by simp [hidle, hempty]⟩
  have hend := run_streams h hstart
  exact ⟨hend.stream, hend.interest⟩

/-- The theorem on a new connection that sends two messages, the first of which is written
in part. -/
theorem output_stream_two_messages :
    ∃ es, ∃ c' : TcpConnection, bytesWritten es ++ c'.outputBuffer.content = messagesSent
        [.sendInLoop [1, 2, 3] (.count 2), .sendInLoop [4] (.error true), .handleWrite (.count 2)] ∧
      (c'.channel.isWriting ↔ 0 < c'.outputBuffer.readableBytes) :=
  ⟨_, _, output_stream (c := create (Channel.create 1 7) EPoller.create false false)
    Buffer.fresh_valid rfl (by decide) (.cons rfl (.cons rfl (.cons rfl (.nil _))))⟩

end TcpConnection
end Chaonet
