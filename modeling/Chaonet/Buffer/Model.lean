import Chaonet.Foundation.Extraction
import Chaonet.Foundation.NetworkOrder
import Chaonet.Foundation.Segment
import Chaonet.Foundation.Traced
import Mathlib.Data.Nat.Basic
import Mathlib.Order.Basic

/-!
# The receive and send buffer

`Buffer` embeds the class of the same name.  `buffer_` is a list of bytes and a
pointer into it is a position.  Sizes are natural numbers.

The two indices cut the store into the prependable, the readable and the writable
part.  `Valid` is the invariant of the operations below, each under its own
precondition; it is a predicate and not a field because the class can leave it
(`retrieve` past the end, say, with assertions compiled out).
-/

namespace Chaonet

open Foundation

abbrev Bytes := List UInt8

/-- A character literal of the source. -/
def char (c : Char) : UInt8 := UInt8.ofNat c.toNat

/-- A string literal of the source. -/
def ascii (s : String) : Bytes := s.toList.map char

/-- `kCheapPrepend`. -/
def kCheapPrepend : Nat := 8

/-- `kInitialSize`. -/
def kInitialSize : Nat := 1024

/-- `SIZE_MAX`. -/
def kSizeMax : Nat := 18446744073709551615

/-- `sizeof(extrabuf)` of `readFd`. -/
def extrabufSize : Nat := 65536

/-- `kCRLF`. -/
def kCRLF : Bytes := [13, 10]

structure Buffer where
  buffer : Bytes
  readerIndex : Nat
  writerIndex : Nat
deriving DecidableEq, Repr

namespace Buffer

/-- The assertions of the class, named by the member function and what they test. -/
inductive Assertion
  | peekInt32Readable
  | retrieveReadable
  | retrieveUntilPeek
  | retrieveUntilBeginWrite
  | ensureWritableBytes
  | prependPrependable
  | makeSpaceReaderIndex
  | makeSpaceReadable
deriving DecidableEq, Repr

/-- `Buffer()`. -/
def fresh : Buffer :=
  { buffer := List.replicate (kCheapPrepend + kInitialSize) 0
    readerIndex := kCheapPrepend
    writerIndex := kCheapPrepend }

def readableBytes (b : Buffer) : Nat := b.writerIndex - b.readerIndex

def writableBytes (b : Buffer) : Nat := b.buffer.length - b.writerIndex

def prependableBytes (b : Buffer) : Nat := b.readerIndex

/-- The position `peek()` points at. -/
def peek (b : Buffer) : Nat := b.readerIndex

/-- The position `beginWrite()` points at. -/
def beginWrite (b : Buffer) : Nat := b.writerIndex

/-- The readable bytes, `[peek(), beginWrite())`. -/
def content (b : Buffer) : Bytes := segment b.buffer b.peek b.beginWrite

def peekInt32 (b : Buffer) : Traced Assertion Int32 := do
  Traced.check .peekInt32Readable (4 ≤ b.readableBytes)
  pure (hostOrder ((b.buffer.drop b.peek).take 4)).toInt32

/-- `findCRLF()`: the position its result points at, `none` for `nullptr`. -/
def findCRLF (b : Buffer) : Option Nat :=
  let crlf := b.peek + search kCRLF b.content
  if crlf = b.beginWrite then none else some crlf

def retrieve (b : Buffer) (len : Nat) : Traced Assertion Buffer := do
  Traced.check .retrieveReadable (len ≤ b.readableBytes)
  pure { b with readerIndex := b.readerIndex + len }

/-- `retrieveUntil(end)`; `end_` is the position the pointer `end` points at. -/
def retrieveUntil (b : Buffer) (end_ : Nat) : Traced Assertion Buffer := do
  Traced.check .retrieveUntilPeek (b.peek ≤ end_)
  Traced.check .retrieveUntilBeginWrite (end_ ≤ b.beginWrite)
  b.retrieve (end_ - b.peek)

def retrieveAll (b : Buffer) : Buffer :=
  { b with readerIndex := kCheapPrepend, writerIndex := kCheapPrepend }

def retrieveAsString (b : Buffer) : Bytes × Buffer :=
  (segment b.buffer b.peek (b.peek + b.readableBytes), b.retrieveAll)

/-- `makeSpace(len)`: grow the store, or move the readable bytes down over the part
already retrieved. -/
def makeSpace (b : Buffer) (len : Nat) : Traced Assertion Buffer :=
  if b.writableBytes + b.prependableBytes < len + kCheapPrepend then
    -- The part already retrieved stays in front.
    pure { b with buffer := resize 0 b.buffer (b.writerIndex + len) }
  else do
    Traced.check .makeSpaceReaderIndex (kCheapPrepend < b.readerIndex)
    let readable := b.readableBytes
    let moved : Buffer :=
      { buffer := overwrite b.buffer kCheapPrepend (segment b.buffer b.readerIndex b.writerIndex)
        readerIndex := kCheapPrepend
        writerIndex := kCheapPrepend + readable }
    Traced.check .makeSpaceReadable (readable = moved.readableBytes)
    pure moved

def ensureWritableBytes (b : Buffer) (len : Nat) : Traced Assertion Buffer := do
  let b ← if b.writableBytes < len then b.makeSpace len else pure b
  Traced.check .ensureWritableBytes (len ≤ b.writableBytes)
  pure b

def hasWritten (b : Buffer) (len : Nat) : Buffer :=
  { b with writerIndex := b.writerIndex + len }

/-- `std::copy(data, data + len, beginWrite())`. -/
def copyToBeginWrite (b : Buffer) (data : Bytes) : Buffer :=
  { b with buffer := overwrite b.buffer b.beginWrite data }

def append (b : Buffer) (data : Bytes) : Traced Assertion Buffer := do
  let b ← b.ensureWritableBytes data.length
  pure ((b.copyToBeginWrite data).hasWritten data.length)

def appendInt32 (b : Buffer) (x : Int32) : Traced Assertion Buffer :=
  b.append (networkOrder x.toUInt32)

def prepend (b : Buffer) (data : Bytes) : Traced Assertion Buffer := do
  Traced.check .prependPrependable (data.length ≤ b.prependableBytes)
  let b := { b with readerIndex := b.readerIndex - data.length }
  pure { b with buffer := overwrite b.buffer b.readerIndex data }

/-- `shrink(reserve)`: the readable bytes in a new store, and the indices of the old one.
The size of the new store is a `size_t`; `none` when the copy goes beyond its end. -/
def shrink (b : Buffer) (reserve : Nat) : Option Buffer :=
  let size := (kCheapPrepend + b.readableBytes + reserve) % (kSizeMax + 1)
  if kCheapPrepend + b.readableBytes ≤ size then
    some { b with buffer := overwrite (List.replicate size 0) kCheapPrepend b.content }
  else none

/-- `readFd`: `readv` fills the writable part first and `extrabuf` with the rest.
`none` is a failing `readv`; `some data` delivers the bytes `data`. -/
def readFd (b : Buffer) : Option Bytes → Traced Assertion (Int × Buffer)
  | none => pure (-1, b)
  | some data =>
      let writable := b.writableBytes
      let n := data.length
      let filled := b.copyToBeginWrite (data.take writable)
      if n ≤ writable then
        pure (n, filled.hasWritten n)
      else do
        -- The writable part is full, and what came into `extrabuf` is appended to it.
        let b ← { filled with writerIndex := filled.buffer.length }.append (data.drop writable)
        pure (n, b)

/-! ## The invariant -/

/-- The indices are in order and the reserved head is never part of the free space
at the end. -/
structure Valid (b : Buffer) : Prop where
  reader_le_writer : b.readerIndex ≤ b.writerIndex
  writer_le_size : b.writerIndex ≤ b.buffer.length
  cheapPrepend_le_writer : kCheapPrepend ≤ b.writerIndex

instance (b : Buffer) : Decidable b.Valid :=
  decidable_of_iff (b.readerIndex ≤ b.writerIndex ∧ b.writerIndex ≤ b.buffer.length ∧
      kCheapPrepend ≤ b.writerIndex)
    ⟨fun h => ⟨h.1, h.2.1, h.2.2⟩, fun h => ⟨h.1, h.2, h.3⟩⟩

theorem length_content {b : Buffer} (h : b.Valid) : b.content.length = b.readableBytes :=
  length_segment h.writer_le_size

theorem content_eq_nil {b : Buffer} (h : b.Valid) : b.content = [] ↔ b.readableBytes = 0 := by
  rw [← List.length_eq_zero_iff, length_content h]

/-- The first readable bytes. -/
theorem segment_peek {b : Buffer} {n : Nat} (hn : n ≤ b.readableBytes) :
    segment b.buffer b.peek (b.peek + n) = b.content.take n := by
  rw [content, Foundation.segment, Foundation.segment, List.take_take, Nat.add_sub_cancel_left,
    Nat.min_eq_left]
  exact hn

/-- What an operation that cannot fail an assertion does to a valid buffer. -/
structure Keeps (x : Traced Assertion Buffer) (content : Bytes) : Prop where
  valid : x.val.Valid
  content_eq : x.val.content = content
  asserted : x.trace = []

theorem fresh_valid : fresh.Valid := by
  constructor <;> simp [fresh, kCheapPrepend]

theorem fresh_content : fresh.content = [] := segment_self _ _

/-! ## What each operation does to the content -/

theorem retrieve_keeps {b : Buffer} {len : Nat} (h : b.Valid) (hlen : len ≤ b.readableBytes) :
    Keeps (b.retrieve len) (b.content.drop len) := by
  have hread : len ≤ b.writerIndex - b.readerIndex := hlen
  have horder := h.reader_le_writer
  constructor
  · exact ⟨by simp [retrieve]; omega, h.writer_le_size, h.cheapPrepend_le_writer⟩
  · exact segment_advance _ _ _ _
  · simp [retrieve, hlen]

theorem retrieveUntil_keeps {b : Buffer} {end_ : Nat} (h : b.Valid) (hpeek : b.peek ≤ end_)
    (hend : end_ ≤ b.beginWrite) :
    Keeps (b.retrieveUntil end_) (b.content.drop (end_ - b.peek)) := by
  have hlen : end_ - b.peek ≤ b.readableBytes := Nat.sub_le_sub_right hend _
  obtain ⟨hvalid, hcontent, htrace⟩ := retrieve_keeps h hlen
  exact ⟨hvalid, hcontent, by simp [retrieveUntil, hpeek, hend, htrace]⟩

theorem retrieveAll_valid {b : Buffer} (h : b.Valid) : b.retrieveAll.Valid :=
  ⟨Nat.le_refl _, Nat.le_trans h.cheapPrepend_le_writer h.writer_le_size, Nat.le_refl _⟩

theorem retrieveAll_content (b : Buffer) : b.retrieveAll.content = [] := segment_self _ _

theorem retrieveAsString_fst {b : Buffer} (h : b.Valid) : b.retrieveAsString.1 = b.content := by
  simp only [retrieveAsString, content, peek, beginWrite, readableBytes]
  rw [Nat.add_sub_cancel' h.reader_le_writer]

/-- The assertion of `makeSpace` holds whenever the writable part is too small: in the
branch that moves, the free space at both ends exceeds `len + kCheapPrepend`, so more
than the reserved head is free at the front. -/
theorem makeSpace_keeps {b : Buffer} {len : Nat} (h : b.Valid) (hlen : b.writableBytes < len) :
    Keeps (b.makeSpace len) b.content ∧ len ≤ (b.makeSpace len).val.writableBytes := by
  obtain ⟨horder, hsize, hhead⟩ := h
  have hwritable : b.buffer.length - b.writerIndex < len := hlen
  by_cases hgrow : b.writableBytes + b.prependableBytes < len + kCheapPrepend
  · have hcontent : segment (resize 0 b.buffer (b.writerIndex + len)) b.readerIndex b.writerIndex =
        segment b.buffer b.readerIndex b.writerIndex :=
      segment_resize hsize (by omega)
    simp only [makeSpace, if_pos hgrow]
    refine ⟨⟨⟨horder, ?_, hhead⟩, hcontent, rfl⟩, ?_⟩
    · simp only [pure, length_resize]
      omega
    · simp only [writableBytes, pure, length_resize]
      omega
  · have hroom : len + kCheapPrepend ≤ b.buffer.length - b.writerIndex + b.readerIndex := by
      simpa [writableBytes, prependableBytes] using hgrow
    have hreader : kCheapPrepend < b.readerIndex := by omega
    have hreadable : (segment b.buffer b.readerIndex b.writerIndex).length = b.readableBytes :=
      length_segment hsize
    have hfits : kCheapPrepend + (segment b.buffer b.readerIndex b.writerIndex).length ≤
        b.buffer.length := by
      rw [hreadable, readableBytes]
      omega
    have hmoved := segment_overwrite_self (v := b.buffer) (i := kCheapPrepend)
      (d := segment b.buffer b.readerIndex b.writerIndex) (by omega)
    rw [hreadable] at hmoved hfits
    have hlength := length_overwrite (v := b.buffer) (i := kCheapPrepend)
      (d := segment b.buffer b.readerIndex b.writerIndex) (by rw [hreadable]; exact hfits)
    simp only [makeSpace, if_neg hgrow]
    refine ⟨⟨⟨?_, ?_, ?_⟩, hmoved, ?_⟩, ?_⟩
    · simp
    · simpa [hlength] using hfits
    · simp
    · simp [hreader, readableBytes]
    · simp only [Traced.bind_val, Traced.pure_val, writableBytes, hlength, readableBytes]
      omega

theorem ensureWritableBytes_keeps {b : Buffer} (h : b.Valid) (len : Nat) :
    Keeps (b.ensureWritableBytes len) b.content ∧
      len ≤ (b.ensureWritableBytes len).val.writableBytes := by
  by_cases hlen : b.writableBytes < len
  · obtain ⟨⟨hvalid, hcontent, htrace⟩, hroom⟩ := makeSpace_keeps h hlen
    simp only [ensureWritableBytes, if_pos hlen]
    exact ⟨⟨hvalid, hcontent, by simp [htrace, hroom]⟩, hroom⟩
  · have hroom : len ≤ b.writableBytes := Nat.le_of_not_lt hlen
    simp only [ensureWritableBytes, if_neg hlen]
    exact ⟨⟨h, rfl, by simp [hroom]⟩, hroom⟩

/-- Writing `data` at `beginWrite()` and then `hasWritten` of its length. -/
theorem hasWritten_keeps {b : Buffer} (h : b.Valid) (data : Bytes)
    (hlen : data.length ≤ b.writableBytes) :
    ((b.copyToBeginWrite data).hasWritten data.length).Valid ∧
      ((b.copyToBeginWrite data).hasWritten data.length).content = b.content ++ data := by
  obtain ⟨horder, hsize, hhead⟩ := h
  have hfits : b.writerIndex + data.length ≤ b.buffer.length := by
    rw [writableBytes] at hlen
    omega
  refine ⟨⟨horder.trans (Nat.le_add_right _ _), ?_, hhead.trans (Nat.le_add_right _ _)⟩, ?_⟩
  · exact hfits.trans (length_overwrite hfits).ge
  · exact segment_overwrite_end horder hsize

theorem append_keeps {b : Buffer} (h : b.Valid) (data : Bytes) :
    Keeps (b.append data) (b.content ++ data) := by
  obtain ⟨⟨hvalid, hcontent, htrace⟩, hroom⟩ := ensureWritableBytes_keeps h data.length
  obtain ⟨hvalid', hcontent'⟩ := hasWritten_keeps hvalid _ hroom
  exact ⟨hvalid', by rw [← hcontent]; exact hcontent', by simp [append, htrace]⟩

/-- Any bytes are the content of some buffer. -/
theorem exists_content (data : Bytes) : ∃ b : Buffer, b.Valid ∧ b.content = data := by
  obtain ⟨hvalid, hcontent, -⟩ := append_keeps fresh_valid data
  rw [fresh_content, List.nil_append] at hcontent
  exact ⟨_, hvalid, hcontent⟩

/-- Making room keeps the room in front, up to `kCheapPrepend`. -/
theorem ensureWritableBytes_prependable {n : Nat} {b : Buffer} (hcheap : n ≤ kCheapPrepend)
    (hfront : n ≤ b.prependableBytes) (len : Nat) :
    n ≤ (b.ensureWritableBytes len).val.prependableBytes := by
  have hmake : n ≤ (b.makeSpace len).val.prependableBytes := by
    rw [makeSpace]
    split_ifs
    · exact hfront
    · exact hcheap
  by_cases hlen : b.writableBytes < len
  · rw [ensureWritableBytes, if_pos hlen]
    exact hmake
  · rw [ensureWritableBytes, if_neg hlen]
    exact hfront

theorem prepend_keeps {b : Buffer} {data : Bytes} (h : b.Valid)
    (hlen : data.length ≤ b.prependableBytes) :
    Keeps (b.prepend data) (data ++ b.content) := by
  obtain ⟨horder, hsize, hhead⟩ := h
  have hreader : data.length ≤ b.readerIndex := hlen
  have hback : b.readerIndex - data.length + data.length = b.readerIndex :=
    Nat.sub_add_cancel hreader
  have hlength := length_overwrite (v := b.buffer) (i := b.readerIndex - data.length) (d := data)
    (by omega)
  constructor
  · exact ⟨(Nat.sub_le _ _).trans horder, hsize.trans hlength.ge, hhead⟩
  · have := segment_overwrite_front (v := b.buffer) (i := b.readerIndex - data.length)
      (d := data) (by rw [hback]; exact horder) hsize
    rw [hback] at this
    exact this
  · simp [prepend, hlen]

/-- `readFd` appends exactly the bytes `readv` delivered, whether they fit into the
writable part or spill into `extrabuf`. -/
theorem readFd_keeps {b : Buffer} (h : b.Valid) (data : Bytes) :
    Keeps (Prod.snd <$> b.readFd (some data)) (b.content ++ data) ∧
      (b.readFd (some data)).val.1 = data.length := by
  obtain ⟨horder, hsize, hhead⟩ := h
  by_cases hfit : data.length ≤ b.writableBytes
  · obtain ⟨hvalid, hcontent⟩ := hasWritten_keeps ⟨horder, hsize, hhead⟩ data hfit
    have htake : data.take b.writableBytes = data := List.take_of_length_le hfit
    simp only [readFd, if_pos hfit, htake]
    exact ⟨⟨hvalid, hcontent, rfl⟩, rfl⟩
  · have hfill : (data.take b.writableBytes).length = b.writableBytes :=
      List.length_take_of_le (Nat.le_of_not_le hfit)
    obtain ⟨hvalid, hcontent⟩ :=
      hasWritten_keeps ⟨horder, hsize, hhead⟩ (data.take b.writableBytes) hfill.le
    have hlength : (b.copyToBeginWrite (data.take b.writableBytes)).buffer.length =
        b.buffer.length :=
      length_overwrite (by rw [hfill, beginWrite, writableBytes]; omega)
    have hend : b.writerIndex + (data.take b.writableBytes).length = b.buffer.length := by
      rw [hfill, writableBytes]
      omega
    -- `writerIndex_ = buffer_.size()` is `hasWritten(writable)` in this branch.
    have hfilled : { b.copyToBeginWrite (data.take b.writableBytes) with
        writerIndex := (b.copyToBeginWrite (data.take b.writableBytes)).buffer.length } =
        (b.copyToBeginWrite (data.take b.writableBytes)).hasWritten
          (data.take b.writableBytes).length := by
      simp only [hasWritten, hlength, mk.injEq, true_and]
      exact hend.symm
    obtain ⟨hvalid', hcontent', htrace'⟩ := append_keeps hvalid (data.drop b.writableBytes)
    rw [hcontent, List.append_assoc, List.take_append_drop] at hcontent'
    rw [← hfilled] at hvalid' hcontent' htrace'
    simp only [readFd, if_neg hfit]
    refine ⟨⟨hvalid', hcontent', ?_⟩, rfl⟩
    simpa using htrace'

theorem peekInt32_val {b : Buffer} (hlen : 4 ≤ b.readableBytes) :
    b.peekInt32 = pure (hostOrder (b.content.take 4)).toInt32 := by
  have htake : (b.buffer.drop b.peek).take 4 = b.content.take 4 := by
    have hmin : min 4 (b.beginWrite - b.peek) = 4 := Nat.min_eq_left hlen
    rw [content, Foundation.segment, List.take_take, hmin]
  simp [peekInt32, Traced.check, hlen, htake, bind, pure]

/-- `peekInt32` inverts `appendInt32`: once what was readable before has been retrieved, it
reads the number that was appended. -/
theorem peekInt32_appendInt32 {b : Buffer} (h : b.Valid) (x : Int32) :
    (b.appendInt32 x >>= fun b' => b'.retrieve b.readableBytes >>= peekInt32) = pure x := by
  obtain ⟨hvalid, hcontent, htrace⟩ := append_keeps h (networkOrder x.toUInt32)
  have hlength := length_content hvalid
  rw [hcontent, List.length_append, length_content h, networkOrder_length] at hlength
  have hbefore : b.readableBytes ≤ (b.append (networkOrder x.toUInt32)).val.readableBytes := by
    omega
  obtain ⟨hvalid', hcontent', htrace'⟩ := retrieve_keeps hvalid hbefore
  have hfront : (b.content ++ networkOrder x.toUInt32).drop b.readableBytes =
      networkOrder x.toUInt32 := by
    rw [← length_content h, List.drop_left]
  rw [hcontent, hfront] at hcontent'
  have hlen : 4 ≤
      ((b.append (networkOrder x.toUInt32)).val.retrieve b.readableBytes).val.readableBytes := by
    rw [← length_content hvalid', hcontent', networkOrder_length]
  have hpeek := peekInt32_val hlen
  have hword : hostOrder ((networkOrder x.toUInt32).take 4) = x.toUInt32 :=
    hostOrder_networkOrder x.toUInt32
  rw [hcontent', hword] at hpeek
  simp [bind, pure, appendInt32, htrace, htrace', hpeek]

end Buffer
end Chaonet
