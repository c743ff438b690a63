import Chaonet.Buffer.Model

/-!
# Protobuf framing

`ProtobufCodecLite` embeds the class of the same name.  The protobuf library and the checksum of
zlib are parameters.  An `int` of the codec is an `Int`, and `sizeT` casts it to `size_t`.

`parse` has no return statement: what its caller reads as the result is whatever the place of the
return value holds.  That value is an input here (`returned`), and `parsed` is what the function
has computed when it ends.
-/

namespace Chaonet

open Foundation

/-- What the codec uses of a message type. -/
structure Prototype (M : Type*) where
  /-- `New()`. -/
  new : M
  /-- What `SerializeWithCachedSizesToArray` writes, as many bytes as `ByteSizeLong` says. -/
  serialize : M → Bytes
  /-- `ParseFromArray` on a new message: whether it succeeds, and the message then. -/
  parseFromArray : Bytes → Bool × M

/-- `ProtobufCodecLite::ErrorCode`. -/
inductive ErrorCode
  | kNoError
  | kInvalidLengeth
  | kCheckSumError
  | kInvalidNameLen
  | kUnkownMessageType
  | kParseError
  /-- A value of the underlying type that is none of them. -/
  | unnamed (value : Int)
deriving DecidableEq, Repr

structure ProtobufCodecLite (M : Type*) where
  prototype : Prototype M
  tag : Bytes
  /-- `rawCb_`, and what it returns for a frame. -/
  rawCb : Option (Bytes → Bool)
  /-- `::adler32(1, buf, len)`. -/
  adler32 : Bytes → UInt32

namespace ProtobufCodecLite

inductive Assertion
  /-- `assert(buf->readableBytes() == 0)` of `fillEmptyBuffer`. -/
  | fillEmptyBufferEmpty
  /-- The other assertion of `fillEmptyBuffer`. -/
  | fillEmptyBufferLength
  | buffer (a : Buffer.Assertion)
deriving DecidableEq, Repr

def kHeaderLen : Nat := 4

def kChecksumLen : Nat := 4

/-- `64 * 1024 * 1024`. -/
def kMaxMessageLen : Nat := 67108864

/-- `static_cast<size_t>`. -/
def sizeT (n : Int) : Nat := (n % (kSizeMax + 1)).toNat

variable {M : Type*}

/-- The constructor; it does not store its argument `rawCb`. -/
def create (prototype : Prototype M) (tagArg : Bytes) (_rawCb : Option (Bytes → Bool))
    (adler32 : Bytes → UInt32) : ProtobufCodecLite M :=
  { prototype
    tag := tagArg
    rawCb := none
    adler32 }

variable (c : ProtobufCodecLite M)

/-- `kMinMessageLen`, an `int`. -/
def kMinMessageLen : Int := (Int32.ofNat (c.tag.length + kChecksumLen)).toInt

/-- `checksum(buf, len)`. -/
def checksum (bytes : Bytes) : Int32 := (c.adler32 bytes).toInt32

/-- `asInt32(buf)`. -/
def asInt32 (bytes : Bytes) : Int32 := (hostOrder (bytes.take 4)).toInt32

/-! ## Sending -/

/-- `serializeToBuffer(message, buf)`. -/
def serializeToBuffer (message : M) (b : Buffer) : Traced Buffer.Assertion Buffer := do
  let data := c.prototype.serialize message
  let b ← b.ensureWritableBytes (data.length + kChecksumLen)
  pure ((b.copyToBeginWrite data).hasWritten data.length)

/-- `fillEmptyBuffer(buf, message)`. -/
def fillEmptyBuffer (b : Buffer) (message : M) : Traced Assertion Buffer := do
  Traced.check .fillEmptyBufferEmpty (b.readableBytes = 0)
  let b ← (b.append c.tag).lift .buffer
  let b ← (c.serializeToBuffer message b).lift .buffer
  let checkSum := c.checksum b.content
  let b ← (b.appendInt32 checkSum).lift .buffer
  Traced.check .fillEmptyBufferLength (b.readableBytes =
    c.tag.length + (c.prototype.serialize message).length + kChecksumLen)
  let len := networkOrder (UInt32.ofNat b.readableBytes)
  (b.prepend len).lift .buffer

/-! ## Receiving -/

/-- `validateChecksum(buf, len)` for the bytes of `[buf, buf + len)`. -/
def validateChecksum (bytes : Bytes) : Bool :=
  let expectedCheckSum := asInt32 (bytes.drop (bytes.length - kChecksumLen))
  let checkSum := c.checksum (bytes.take (bytes.length - kChecksumLen))
  checkSum = expectedCheckSum

/-- The bytes that `parse` hands to `parseFromBuffer`. -/
def data (bytes : Bytes) : Bytes :=
  (bytes.drop c.tag.length).take (bytes.length - kChecksumLen - c.tag.length)

/-- The local variable `error` at the end of `parse(buf, len, message)`, and the message. -/
def parsed (bytes : Bytes) : ErrorCode × M :=
  if c.validateChecksum bytes then
    if bytes.take c.tag.length = c.tag then
      let (success, message) := c.prototype.parseFromArray (c.data bytes)
      (if success then .kNoError else .kParseError, message)
    else (.kUnkownMessageType, c.prototype.new)
  else (.kNoError, c.prototype.new)

/-- `parse(buf, len, message)` where the caller reads `returned` as its result. -/
def parse (returned : ErrorCode) (bytes : Bytes) : ErrorCode × M := (returned, (c.parsed bytes).2)

/-- What shows of receiving. -/
inductive Event (M : Type*)
  | messageCallback (message : M)
  | errorCallback (errorCode : ErrorCode)
  | buffer (a : Buffer.Assertion)
deriving DecidableEq

/-- The input buffer, and how often `parse` has been called. -/
structure Receiver where
  buf : Buffer
  parses : Nat

/-- The loop of `onMessage`; `returned n` is read as the result of call number `n` of `parse`. -/
def onMessageStep (returned : Nat → ErrorCode) (s : Receiver) :
    Traced (Event M) (Receiver ⊕ Receiver) :=
  if kMaxMessageLen + kHeaderLen ≤ s.buf.readableBytes then do
    let len ← s.buf.peekInt32.lift .buffer
    let size := sizeT (kHeaderLen + len.toInt)
    if kMaxMessageLen < len.toInt ∨ len.toInt < c.kMinMessageLen then do
      Traced.emit (.errorCallback .kInvalidLengeth)
      pure (.inr s)
    else if size ≤ s.buf.readableBytes then
      let frame := segment s.buf.buffer s.buf.peek (s.buf.peek + size)
      if c.rawCb.any (fun rawCb => !rawCb frame) then do
        let buf ← (s.buf.retrieve size).lift .buffer
        pure (.inl { s with buf })
      else do
        let (errorCode, message) := c.parse (returned s.parses) (frame.drop kHeaderLen)
        let s := { s with parses := s.parses + 1 }
        if errorCode = .kNoError then do
          Traced.emit (.messageCallback message)
          let buf ← (s.buf.retrieve size).lift .buffer
          pure (.inl { s with buf })
        else do
          Traced.emit (.errorCallback errorCode)
          pure (.inr s)
    else pure (.inr s)
  else pure (.inr s)

/-! ## Frames -/

/-- What follows the header of a frame. -/
def body (message : M) : Bytes :=
  c.tag ++ c.prototype.serialize message ++
    networkOrder (c.adler32 (c.tag ++ c.prototype.serialize message))

/-- The length field of a frame. -/
def bodyLength (message : M) : Nat :=
  c.tag.length + (c.prototype.serialize message).length + kChecksumLen

def frame (message : M) : Bytes :=
  networkOrder (UInt32.ofNat (c.bodyLength message)) ++ c.body message

theorem length_body (message : M) : (c.body message).length = c.bodyLength message := by
  simp only [body, bodyLength, List.length_append, networkOrder_length, kChecksumLen]

theorem length_frame (message : M) :
    (c.frame message).length = kHeaderLen + c.bodyLength message := by
  rw [frame, List.length_append, networkOrder_length, length_body, kHeaderLen]

variable {b : Buffer} (message : M)

/-- `serializeToBuffer` appends the serialised message. -/
theorem serializeToBuffer_keeps (h : b.Valid) :
    Buffer.Keeps (c.serializeToBuffer message b) (b.content ++ c.prototype.serialize message) := by
  obtain ⟨⟨hvalid, hcontent, htrace⟩, hroom⟩ := Buffer.ensureWritableBytes_keeps h
    ((c.prototype.serialize message).length + kChecksumLen)
  obtain ⟨hvalid', hcontent'⟩ := Buffer.hasWritten_keeps hvalid (c.prototype.serialize message)
    ((Nat.le_add_right _ _).trans hroom)
  exact ⟨hvalid', by rw [← hcontent]; exact hcontent', by simp [serializeToBuffer, htrace]⟩

/-- No assertion fails, and the buffer holds the frame afterwards. -/
theorem fillEmptyBuffer_keeps (h : b.Valid) (hempty : b.readableBytes = 0)
    (hfront : kHeaderLen ≤ b.prependableBytes) :
    (c.fillEmptyBuffer b message).val.Valid ∧
      (c.fillEmptyBuffer b message).val.content = c.frame message ∧
      (c.fillEmptyBuffer b message).trace = [] := by
  have hcheap : kHeaderLen ≤ kCheapPrepend := by decide
  -- The tag, the message and the checksum are appended, and each leaves room for the header.
  obtain ⟨hvalid, hcontent, htrace⟩ := Buffer.append_keeps h c.tag
  have hfront₁ : kHeaderLen ≤ (b.append c.tag).val.prependableBytes :=
    Buffer.ensureWritableBytes_prependable hcheap hfront _
  rw [(Buffer.content_eq_nil h).mpr hempty, List.nil_append] at hcontent
  obtain ⟨hvalid₂, hcontent₂, htrace₂⟩ := c.serializeToBuffer_keeps message hvalid
  have hfront₂ : kHeaderLen ≤
      (c.serializeToBuffer message (b.append c.tag).val).val.prependableBytes :=
    Buffer.ensureWritableBytes_prependable hcheap hfront₁ _
  rw [hcontent] at hcontent₂
  generalize hb₂ : (c.serializeToBuffer message (b.append c.tag).val).val = b₂ at *
  obtain ⟨hvalid₃, hcontent₃, htrace₃⟩ :=
    Buffer.append_keeps hvalid₂ (networkOrder (c.checksum b₂.content).toUInt32)
  have hfront₃ : kHeaderLen ≤
      (b₂.appendInt32 (c.checksum b₂.content)).val.prependableBytes :=
    Buffer.ensureWritableBytes_prependable hcheap hfront₂ _
  have hbody : (b₂.appendInt32 (c.checksum b₂.content)).val.content = c.body message := by
    refine hcontent₃.trans ?_
    rw [checksum, UInt32.toUInt32_toInt32, hcontent₂, body]
  have hlength : (b₂.appendInt32 (c.checksum b₂.content)).val.readableBytes =
      c.bodyLength message := by
    rw [← c.length_body, ← hbody]
    exact (Buffer.length_content hvalid₃).symm
  obtain ⟨hvalid₄, hcontent₄, htrace₄⟩ :
      Buffer.Keeps ((b₂.appendInt32 (c.checksum b₂.content)).val.prepend
        (networkOrder (UInt32.ofNat (c.bodyLength message)))) _ :=
    Buffer.prepend_keeps hvalid₃ hfront₃
  have htrace₃' : (b₂.appendInt32 (c.checksum b₂.content)).trace = [] := htrace₃
  rw [hbody] at hcontent₄
  have hval : (c.fillEmptyBuffer b message).val =
      ((b₂.appendInt32 (c.checksum b₂.content)).val.prepend
        (networkOrder (UInt32.ofNat (c.bodyLength message)))).val := by
    rw [← hlength, ← hb₂]
    rfl
  refine ⟨hval ▸ hvalid₄, hval ▸ hcontent₄, ?_⟩
  rw [bodyLength] at hlength htrace₄
  simp [fillEmptyBuffer, hempty, htrace, htrace₂, hb₂, htrace₃', hlength, htrace₄,
    -UInt32.ofNat_add]

/-! ## One iteration on a frame -/

theorem length_body_sub (message : M) :
    (c.body message).length - kChecksumLen = (c.tag ++ c.prototype.serialize message).length := by
  rw [length_body, bodyLength, Nat.add_sub_cancel, List.length_append]

theorem validateChecksum_body : c.validateChecksum (c.body message) = true := by
  have hchecked : (c.body message).take ((c.body message).length - kChecksumLen) =
      c.tag ++ c.prototype.serialize message := by
    rw [length_body_sub, body, List.take_left]
  have hchecksum : (c.body message).drop ((c.body message).length - kChecksumLen) =
      networkOrder (c.adler32 (c.tag ++ c.prototype.serialize message)) := by
    rw [length_body_sub, body, List.drop_left]
  have hword := hostOrder_networkOrder (c.adler32 (c.tag ++ c.prototype.serialize message))
  simp only [validateChecksum, hchecked, hchecksum, asInt32, checksum]
  rw [List.take_of_length_le (networkOrder_length _).le, hword, decide_eq_true rfl]

theorem take_body : (c.body message).take c.tag.length = c.tag := by
  rw [body, List.append_assoc, List.take_left]

theorem data_body : c.data (c.body message) = c.prototype.serialize message := by
  rw [data, length_body_sub, List.length_append, Nat.add_sub_cancel_left, body, List.append_assoc,
    List.drop_left, List.take_left]

/-- On the body of a frame the receiver computes what `parseFromArray` says of the payload. -/
theorem parsed_body :
    c.parsed (c.body message) =
      (if (c.prototype.parseFromArray (c.prototype.serialize message)).1 then .kNoError
        else .kParseError, (c.prototype.parseFromArray (c.prototype.serialize message)).2) := by
  simp only [parsed, c.validateChecksum_body message, if_true, c.take_body message,
    c.data_body message]

/-- A length field as the receiver reads it. -/
theorem peekInt32_length {n : Nat} {rest : Bytes} (h : b.Valid)
    (hcontent : b.content = networkOrder (UInt32.ofNat n) ++ rest) (hmax : n ≤ kMaxMessageLen) :
    ∃ len, b.peekInt32 = pure len ∧ len.toInt = n := by
  have hsize : 4 ≤ b.readableBytes := by
    rw [← Buffer.length_content h, hcontent, List.length_append, networkOrder_length]
    omega
  have hheader : b.content.take 4 = networkOrder (UInt32.ofNat n) := by
    rw [hcontent]
    exact List.take_left' rfl
  refine ⟨_, Buffer.peekInt32_val hsize, ?_⟩
  rw [hheader, hostOrder_networkOrder]
  rw [kMaxMessageLen] at hmax
  rw [UInt32.toInt32_ofNat', Int32.toInt_ofNat_of_lt (by omega)]

variable {c message}

theorem onMessageStep_short (returned : Nat → ErrorCode) {s : Receiver}
    (h : s.buf.readableBytes < kMaxMessageLen + kHeaderLen) :
    c.onMessageStep returned s = ⟨.inr s, []⟩ :=
  if_neg (Nat.not_le_of_lt h)

/-- What happens to the bytes behind a length field does not depend on them: the message that was
made of them is delivered if the result of `parse` is read as `kNoError`. -/
theorem onMessageStep_bytes (returned : Nat → ErrorCode) {s : Receiver} {bytes rest : Bytes}
    (hraw : c.rawCb = none) (h : s.buf.Valid)
    (hcontent : s.buf.content = networkOrder (UInt32.ofNat bytes.length) ++ bytes ++ rest)
    (hmin : c.kMinMessageLen ≤ bytes.length) (hmax : bytes.length ≤ kMaxMessageLen)
    (hfull : kMaxMessageLen + kHeaderLen ≤ s.buf.readableBytes) :
    ∃ buf, buf.Valid ∧ buf.content = rest ∧ c.onMessageStep returned s =
      if returned s.parses = .kNoError then
        ⟨.inl ⟨buf, s.parses + 1⟩, [.messageCallback (c.parsed bytes).2]⟩
      else ⟨.inr ⟨s.buf, s.parses + 1⟩, [.errorCallback (returned s.parses)]⟩ := by
  obtain ⟨len, hpeek, hlen⟩ :=
    peekInt32_length h (hcontent.trans (List.append_assoc _ _ _)) hmax
  have hlength : (networkOrder (UInt32.ofNat bytes.length) ++ bytes).length =
      kHeaderLen + bytes.length := by
    rw [List.length_append, networkOrder_length, kHeaderLen]
  have hsize : sizeT (kHeaderLen + len.toInt) =
      (networkOrder (UInt32.ofNat bytes.length) ++ bytes).length := by
    rw [hlen, hlength, sizeT]
    rw [kMaxMessageLen] at hmax
    have hsmall : ((kHeaderLen : Int) + (bytes.length : Int)) % (kSizeMax + 1) =
        kHeaderLen + bytes.length := Int.emod_eq_of_lt (by omega) (by
          simp only [kHeaderLen, kSizeMax]
          omega)
    rw [hsmall]
    omega
  have hinside : (networkOrder (UInt32.ofNat bytes.length) ++ bytes).length ≤
      s.buf.readableBytes := by
    rw [← Buffer.length_content h, hcontent]
    exact (List.prefix_append _ rest).length_le
  have hframe : segment s.buf.buffer s.buf.peek
      (s.buf.peek + (networkOrder (UInt32.ofNat bytes.length) ++ bytes).length) =
      networkOrder (UInt32.ofNat bytes.length) ++ bytes := by
    rw [Buffer.segment_peek hinside, hcontent, List.take_left]
  have hbody : (networkOrder (UInt32.ofNat bytes.length) ++ bytes).drop kHeaderLen = bytes :=
    List.drop_left' rfl
  obtain ⟨hvalid, hrest, htrace⟩ := Buffer.retrieve_keeps h hinside
  rw [hcontent, List.drop_left] at hrest
  refine ⟨_, hvalid, hrest, ?_⟩
  have hrange : ¬((kMaxMessageLen : Int) < len.toInt ∨ len.toInt < c.kMinMessageLen) := by
    rw [hlen]
    omega
  generalize hframed : networkOrder (UInt32.ofNat bytes.length) ++ bytes = framed at *
  by_cases hreturned : returned s.parses = .kNoError
  · simp [onMessageStep, hfull, hpeek, bind, pure, Traced.lift, Traced.emit, hrange, hsize, hinside,
      hraw, parse, hframe, hbody, hreturned, htrace]
  · simp [onMessageStep, hfull, hpeek, bind, pure, Traced.lift, Traced.emit, hrange, hsize, hinside,
      hraw, parse, hframe, hbody, hreturned]

theorem onMessageStep_frame (returned : Nat → ErrorCode) {s : Receiver} {rest : Bytes}
    (hraw : c.rawCb = none) (h : s.buf.Valid) (hcontent : s.buf.content = c.frame message ++ rest)
    (hmax : c.bodyLength message ≤ kMaxMessageLen)
    (hfull : kMaxMessageLen + kHeaderLen ≤ s.buf.readableBytes)
    (hinverse : c.prototype.parseFromArray (c.prototype.serialize message) = (true, message)) :
    ∃ buf, buf.Valid ∧ buf.content = rest ∧ c.onMessageStep returned s =
      if returned s.parses = .kNoError then
        ⟨.inl ⟨buf, s.parses + 1⟩, [.messageCallback message]⟩
      else ⟨.inr ⟨s.buf, s.parses + 1⟩, [.errorCallback (returned s.parses)]⟩ := by
  rw [frame, ← c.length_body message] at hcontent
  have hmin : c.kMinMessageLen ≤ (c.body message).length := by
    rw [kMaxMessageLen, bodyLength] at hmax
    rw [kMinMessageLen, Int32.toInt_ofNat_of_lt (by omega), length_body, bodyLength]
    omega
  have hstep := onMessageStep_bytes returned hraw h hcontent hmin
    ((c.length_body message).trans_le hmax) hfull
  rwa [c.parsed_body message, hinverse] at hstep

end ProtobufCodecLite
end Chaonet
