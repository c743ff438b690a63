import Chaonet.Buffer.Queue
import Chaonet.Protobuf.Delivery

/-!
# One frame

`fillEmptyBuffer` frames a message in any empty buffer that operations other than `shrink` have
left (`fillEmptyBuffer_frames`), and on its frames the tests of `parse` succeed.

On other bytes `parse` should report which of them failed.  It has no branch for the checksum and
no return statement, so that it never does (`parse_errorCode`).
-/

namespace Chaonet

open Foundation

namespace ProtobufCodecLite

variable {M : Type*} (c : ProtobufCodecLite M)

/-! ## Framing a message -/

/-- An empty buffer has the whole reserved head in front, wherever its indices are. -/
theorem kCheapPrepend_le_prependable {b : Buffer} (h : b.Valid) (hempty : b.readableBytes = 0) :
    kCheapPrepend ≤ b.prependableBytes := by
  have hhead := h.cheapPrepend_le_writer
  rw [Buffer.readableBytes] at hempty
  rw [Buffer.prependableBytes]
  omega

/-- **What `fillEmptyBuffer` makes of a message**, and how the bytes behind its header are read. -/
theorem fillEmptyBuffer_frames (message : M) {calls : List BufferCall} {es : List BufferEvent}
    {p : Buffers.Pool} (hrun : Run Buffers.Step Buffers.fresh calls es p) (i : Nat)
    (hempty : (p i).readableBytes = 0)
    (hlen : (c.prototype.serialize message).length + 8 + c.tag.length < 2147483648) :
    let payload := c.prototype.serialize message
    let n := c.tag.length + payload.length + 4
    let filled := c.fillEmptyBuffer (p i) message
    let bytes := filled.val.content.drop kHeaderLen
    filled.trace = [] ∧
      filled.val.content = networkOrder (UInt32.ofNat n) ++ c.tag ++ payload ++
        networkOrder (c.adler32 (c.tag ++ payload)) ∧
      (asInt32 filled.val.content).toInt = n ∧ bytes.length = n ∧
      c.validateChecksum bytes = true ∧ bytes.take c.tag.length = c.tag ∧
      c.data bytes = payload ∧
      c.parsed bytes = (if (c.prototype.parseFromArray payload).1 then .kNoError else .kParseError,
        (c.prototype.parseFromArray payload).2) := by
  have hvalid := Buffers.valid_of_run hrun i
  have hfront : kHeaderLen ≤ (p i).prependableBytes :=
    (by decide : kHeaderLen ≤ kCheapPrepend).trans (kCheapPrepend_le_prependable hvalid hempty)
  obtain ⟨-, hcontent, htrace⟩ := c.fillEmptyBuffer_keeps message hvalid hempty hfront
  have hbytes : (c.fillEmptyBuffer (p i) message).val.content.drop kHeaderLen = c.body message := by
    rw [hcontent, frame]
    exact List.drop_left' rfl
  have hheader : (c.frame message).take 4 = networkOrder (UInt32.ofNat (c.bodyLength message)) := by
    rw [frame]
    exact List.take_left' rfl
  -- The bound on the length keeps the header from being read as a negative int.
  have hlength : (asInt32 (c.frame message)).toInt = c.bodyLength message := by
    rw [asInt32, hheader, hostOrder_networkOrder, UInt32.toInt32_ofNat',
      Int32.toInt_ofNat_of_lt]
    rw [bodyLength, kChecksumLen]
    omega
  refine ⟨htrace, ?_, ?_, ?_, ?_, ?_, ?_, ?_⟩
  · rw [hcontent, frame, body, bodyLength, kChecksumLen]
    simp only [List.append_assoc]
  · rw [hcontent, hlength]
    rfl
  · rw [hbytes, length_body]
    rfl
  · rw [hbytes, validateChecksum_body]
  · rw [hbytes, take_body]
  · rw [hbytes, data_body]
  · rw [hbytes, parsed_body]

/-- A message in the buffer of a run that has retrieved what it had appended. -/
theorem fillEmptyBuffer_frames_retrieved :
    ∃ (es : List BufferEvent) (p : Buffers.Pool),
      Run Buffers.Step Buffers.fresh [.append 0 [1, 2], .retrieve 0 2] es p ∧
        (p 0).readerIndex = kCheapPrepend + 2 ∧
          (rpcCodec.fillEmptyBuffer (p 0) [8, 1]).trace = [] ∧
            (rpcCodec.fillEmptyBuffer (p 0) [8, 1]).val.content =
              [0, 0, 0, 10, 82, 80, 67, 48, 8, 1] ++
                networkOrder (zlibAdler32 [82, 80, 67, 48, 8, 1]) := by
  obtain ⟨es, p, hrun, hreader, hempty⟩ : ∃ es p,
      Run Buffers.Step Buffers.fresh [.append 0 [1, 2], .retrieve 0 2] es p ∧
        (p 0).readerIndex = kCheapPrepend + 2 ∧ (p 0).readableBytes = 0 :=
    Run.exists_of_exec _ (by decide +kernel)
  obtain ⟨htrace, hcontent, -⟩ :=
    rpcCodec.fillEmptyBuffer_frames [8, 1] hrun 0 hempty (by decide)
  exact ⟨es, p, hrun, hreader, htrace, hcontent⟩

/-! ## Corrupt frames -/

/-- The error that the tests of `parse` stand for: the first one that fails. -/
def expectedError (bytes : Bytes) : ErrorCode :=
  if c.validateChecksum bytes = false then .kCheckSumError
  else if bytes.take c.tag.length ≠ c.tag then .kUnkownMessageType
  else if (c.prototype.parseFromArray (c.data bytes)).1 = false then .kParseError
  else .kNoError

/-- The local variable of `parse` is right at the end where the checksum matches. -/
theorem parsed_eq_expectedError_iff (bytes : Bytes) :
    (c.parsed bytes).1 = c.expectedError bytes ↔ c.validateChecksum bytes = true := by
  cases hchecksum : c.validateChecksum bytes with
  | false => simp [parsed, expectedError, hchecksum]
  | true =>
      by_cases htag : bytes.take c.tag.length = c.tag
      · cases hparse : (c.prototype.parseFromArray (c.data bytes)).1 with
        | false =>
            simp [parsed, expectedError, hchecksum, htag, hparse]
        | true =>
            simp [parsed, expectedError, hchecksum, htag, hparse]
      · simp [parsed, expectedError, hchecksum, htag]

/-- **What `parse` reports.**  On no bytes is it determined that the caller reads the error that
the tests stand for; what `parse` has computed at its end is that error exactly if the checksum
matches. -/
theorem parse_errorCode (bytes : Bytes) :
    (¬∀ returned, (c.parse returned bytes).1 = c.expectedError bytes) ∧
      ((c.parsed bytes).1 = c.expectedError bytes ↔ c.validateChecksum bytes = true) := by
  refine ⟨fun h => ?_, c.parsed_eq_expectedError_iff bytes⟩
  -- Two values that the caller may read cannot both be the right one.
  have hfirst : ErrorCode.kNoError = c.expectedError bytes := h .kNoError
  have hsecond : ErrorCode.kInvalidNameLen = c.expectedError bytes := h .kInvalidNameLen
  exact absurd (hfirst.trans hsecond.symm) (by decide)

/-- A body with the tag and a payload, and a checksum of zero. -/
def corrupt : Bytes := [82, 80, 67, 48, 8, 1, 0, 0, 0, 0]

/-- The checksum does not match, and the message is taken for one without an error. -/
theorem parse_corrupt :
    rpcCodec.kMinMessageLen ≤ corrupt.length ∧ corrupt.length ≤ kMaxMessageLen ∧
      rpcCodec.expectedError corrupt = .kCheckSumError ∧
        (rpcCodec.parsed corrupt).1 = .kNoError ∧
          ∃ returned, (rpcCodec.parse returned corrupt).1 ≠ rpcCodec.expectedError corrupt := by
  refine ⟨by decide, by decide, by decide, by decide, .kNoError, ?_⟩
  decide

variable {c}

/-- Whatever the bytes are, their message is delivered if the result of `parse` is read as
`kNoError`; the checksum has no part in it. -/
theorem onMessageStep_delivers_iff (returned : Nat → ErrorCode) {s : Receiver}
    {bytes rest : Bytes} (hraw : c.rawCb = none) (h : s.buf.Valid)
    (hcontent : s.buf.content = networkOrder (UInt32.ofNat bytes.length) ++ bytes ++ rest)
    (hmin : c.kMinMessageLen ≤ bytes.length) (hmax : bytes.length ≤ kMaxMessageLen)
    (hfull : kMaxMessageLen + kHeaderLen ≤ s.buf.readableBytes) :
    .messageCallback (c.parsed bytes).2 ∈ (c.onMessageStep returned s).trace ↔
      returned s.parses = .kNoError := by
  obtain ⟨buf, -, -, hstep⟩ := onMessageStep_bytes returned hraw h hcontent hmin hmax hfull
  rw [hstep]
  by_cases hreturned : returned s.parses = .kNoError
  · simp [hreturned]
  · simp [hreturned]

end ProtobufCodecLite
end Chaonet
