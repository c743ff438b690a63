import Chaonet.Buffer.Queue

/-!
# The space that a buffer takes

`makeSpace` lets the store grow only if the readable bytes and what is to be written would not fit
after they have been moved to the front, and then leaves the part already retrieved where it is.  So
a buffer never takes more than twice what it has had to hold at one time, and eight bytes
(`length_buffer_le`); one that has never had to hold more than `kInitialSize` bytes has not grown.
-/

namespace Chaonet

open Foundation

namespace Buffer

variable {b c : Buffer} {len K : Nat}

/-- The store has stayed, or it was too short for the readable bytes and `len` more. -/
def Grows (b : Buffer) (len : Nat) (c : Buffer) : Prop :=
  c.buffer.length = b.buffer.length ∨
    b.buffer.length < kCheapPrepend + b.readableBytes + len ∧
      c.buffer.length ≤ kCheapPrepend + b.readableBytes + 2 * len

theorem makeSpace_grows (h : b.Valid) (hlen : b.writableBytes < len) :
    b.Grows len (b.makeSpace len).val := by
  obtain ⟨horder, hsize, hhead⟩ := h
  by_cases hgrow : b.writableBytes + b.prependableBytes < len + kCheapPrepend
  · simp only [makeSpace, if_pos hgrow]
    right
    simp only [writableBytes, prependableBytes, readableBytes, pure, length_resize] at *
    omega
  · have hreadable : (segment b.buffer b.readerIndex b.writerIndex).length = b.readableBytes :=
      length_segment hsize
    have hfits : kCheapPrepend + (segment b.buffer b.readerIndex b.writerIndex).length ≤
        b.buffer.length := by
      rw [hreadable]
      simp only [writableBytes, prependableBytes, readableBytes] at *
      omega
    simp only [makeSpace, if_neg hgrow]
    exact .inl (length_overwrite hfits)

theorem ensureWritableBytes_grows (h : b.Valid) (len : Nat) :
    b.Grows len (b.ensureWritableBytes len).val := by
  by_cases hlen : b.writableBytes < len
  · rw [ensureWritableBytes, if_pos hlen]
    exact makeSpace_grows h hlen
  · rw [ensureWritableBytes, if_neg hlen]
    exact .inl rfl

/-- Bytes that are copied into the writable part leave the store as long as it is. -/
theorem length_copyToBeginWrite (h : b.Valid) {data : Bytes} (hlen : data.length ≤ b.writableBytes) :
    (b.copyToBeginWrite data).buffer.length = b.buffer.length := by
  have hsize := h.writer_le_size
  refine length_overwrite ?_
  rw [writableBytes] at hlen
  rw [beginWrite]
  omega

theorem append_grows (h : b.Valid) (data : Bytes) :
    b.Grows data.length (b.append data).val := by
  obtain ⟨⟨hvalid, -, -⟩, hroom⟩ := ensureWritableBytes_keeps h data.length
  have hlength := length_copyToBeginWrite hvalid hroom
  have hgrows := ensureWritableBytes_grows h data.length
  rw [Grows, ← hlength] at hgrows
  exact hgrows

theorem length_prepend {data : Bytes} (h : b.Valid) (hlen : data.length ≤ b.prependableBytes) :
    (b.prepend data).val.buffer.length = b.buffer.length := by
  have hsize := h.writer_le_size
  have horder := h.reader_le_writer
  refine length_overwrite ?_
  rw [prependableBytes] at hlen
  simp only
  omega

/-- What comes into `extrabuf` is appended to a store that is full. -/
theorem readFd_grows (h : b.Valid) (data : Bytes) :
    b.Grows data.length (b.readFd (some data)).val.2 := by
  have hlength : (b.copyToBeginWrite (data.take b.writableBytes)).buffer.length =
      b.buffer.length :=
    length_copyToBeginWrite h (List.length_take_le _ _)
  obtain ⟨horder, hsize, hhead⟩ := h
  by_cases hfits : data.length ≤ b.writableBytes
  · simp only [readFd, if_pos hfits]
    exact .inl hlength
  · simp only [readFd, if_neg hfits]
    set full : Buffer := { b.copyToBeginWrite (data.take b.writableBytes) with
      writerIndex := (b.copyToBeginWrite (data.take b.writableBytes)).buffer.length } with hfull
    have hvalid : full.Valid := by
      refine ⟨?_, Nat.le_refl _, ?_⟩
      · show b.readerIndex ≤ (b.copyToBeginWrite (data.take b.writableBytes)).buffer.length
        omega
      · show kCheapPrepend ≤ (b.copyToBeginWrite (data.take b.writableBytes)).buffer.length
        omega
    have hreadable : full.readableBytes = b.readableBytes + b.writableBytes := by
      show (b.copyToBeginWrite (data.take b.writableBytes)).buffer.length - b.readerIndex =
        b.writerIndex - b.readerIndex + (b.buffer.length - b.writerIndex)
      omega
    have hrest : (data.drop b.writableBytes).length = data.length - b.writableBytes :=
      List.length_drop
    rcases append_grows hvalid (data.drop b.writableBytes) with hsame | ⟨hshort, hlong⟩
    · exact .inl (hsame.trans hlength)
    · refine .inr ⟨?_, ?_⟩
      · have hstore : full.buffer.length = b.buffer.length := hlength
        omega
      · exact hlong.trans (by omega)

/-! ## The bound -/

/-- The store of a buffer that has not had to hold more than `K` bytes. -/
structure Within (K : Nat) (b : Buffer) : Prop where
  valid : b.Valid
  length_le : b.buffer.length ≤ max (kCheapPrepend + kInitialSize) (kCheapPrepend + 2 * K)
  initial : K ≤ kInitialSize → b.buffer.length = kCheapPrepend + kInitialSize

theorem fresh_within (K : Nat) : fresh.Within K := by
  have hlength : fresh.buffer.length = kCheapPrepend + kInitialSize := List.length_replicate
  exact ⟨fresh_valid, hlength.le.trans (Nat.le_max_left _ _), fun _ => hlength⟩

theorem Within.same (h : b.Within K) (hvalid : c.Valid)
    (hlength : c.buffer.length = b.buffer.length) : c.Within K :=
  ⟨hvalid, hlength ▸ h.length_le, fun hK => hlength.trans (h.initial hK)⟩

/-- The store grows only if there are more bytes to hold than ever before. -/
theorem Within.grows (h : b.Within K) (hvalid : c.Valid) (hgrows : b.Grows len c)
    (hhold : b.readableBytes + len ≤ K) : c.Within K := by
  rcases hgrows with hsame | ⟨hshort, hlong⟩
  · exact h.same hvalid hsame
  · refine ⟨hvalid, ?_, fun hK => ?_⟩
    · refine le_trans ?_ (Nat.le_max_right _ _)
      omega
    · have hinitial := h.initial hK
      omega

end Buffer

namespace Buffers

/-- What a call makes a buffer hold: the bytes that are readable, and those it asks room for. -/
def holds (p : Pool) : BufferCall → Nat
  | .append i data => (p i).readableBytes + data.length
  | .appendInt32 i _ => (p i).readableBytes + 4
  | .writeDirectly i len _ => (p i).readableBytes + len
  | .readFd i data => (p i).readableBytes + data.length
  | _ => 0

/-- No call makes a buffer hold more than `K` bytes. -/
def HoldsAtMost (K : Nat) (p : Pool) (c : BufferCall) : Prop := holds p c ≤ K

instance (K : Nat) (p : Pool) (c : BufferCall) : Decidable (HoldsAtMost K p c) :=
  inferInstanceAs (Decidable (_ ≤ _))

variable {K : Nat} {p q : Pool} {es : List BufferEvent}

/-- One buffer of the pool is replaced. -/
theorem within_update (h : ∀ i, (p i).Within K) (i : Nat) {b : Buffer} (hb : b.Within K) :
    ∀ j, (Function.update p i b j).Within K := by
  intro j
  by_cases hj : j = i
  · subst hj
    rwa [Function.update_self]
  · rw [Function.update_of_ne hj]
    exact h j

theorem within_call (h : ∀ i, (p i).Within K) {c : BufferCall} (hlegal : Legal p c)
    (hhold : HoldsAtMost K p c) : ∀ i, ((call p c).val i).Within K := by
  cases c with
  | append i data =>
      have hvalid := (h i).valid
      exact within_update h i ((h i).grows (Buffer.append_keeps hvalid data).valid
        (Buffer.append_grows hvalid data) hhold)
  | appendInt32 i x =>
      have hvalid := (h i).valid
      have hgrows := Buffer.append_grows hvalid (networkOrder x.toUInt32)
      rw [networkOrder_length] at hgrows
      exact within_update h i ((h i).grows (Buffer.append_keeps hvalid _).valid hgrows hhold)
  | prepend i data =>
      have hvalid := (h i).valid
      exact within_update h i ((h i).same (Buffer.prepend_keeps hvalid hlegal).valid
        (Buffer.length_prepend hvalid hlegal))
  | retrieve i len =>
      exact within_update h i ((h i).same (Buffer.retrieve_keeps (h i).valid hlegal).valid rfl)
  | retrieveUntil i len =>
      have hvalid := (call_refines ⟨fun i => (h i).valid, rfl⟩ hlegal).2.1 i
      simp only [call, Traced.bind_val, Traced.lift_val, Traced.pure_val,
        Function.update_self] at hvalid
      exact within_update h i ((h i).same hvalid rfl)
  | retrieveAll i =>
      exact within_update h i ((h i).same (Buffer.retrieveAll_valid (h i).valid) rfl)
  | retrieveAsString i =>
      exact within_update h i ((h i).same (Buffer.retrieveAll_valid (h i).valid) rfl)
  | peekInt32 i => exact h
  | writeDirectly i len data =>
      obtain ⟨hx, -⟩ := Buffer.ensureWritableBytes_keeps (h i).valid len
      have hensured := (h i).grows hx.valid (Buffer.ensureWritableBytes_grows (h i).valid len) hhold
      exact within_update h i (hensured.same (Buffer.hasWritten_keeps hx.valid _ hlegal).1
        (Buffer.length_copyToBeginWrite hx.valid hlegal))
  | readFd i data =>
      have hvalid := (h i).valid
      exact within_update h i ((h i).grows (Buffer.readFd_keeps hvalid data).1.valid
        (Buffer.readFd_grows hvalid data) hhold)
  | swap i j => exact within_update (within_update h i (h j)) j (h i)

/-- **A buffer takes at most twice what it holds.**  If no call of a run makes a buffer hold more
than `K` bytes, counting what is readable and what room is asked for, then no store is longer than
`2 * K + 8` bytes, or than it was at the beginning, and none has grown if `K` is at most
`kInitialSize`. -/
theorem length_buffer_le {cs : List BufferCall}
    (hrun : Run (restrict (HoldsAtMost K) Step) fresh cs es p) (i : Nat) :
    (p i).buffer.length ≤ max (kCheapPrepend + kInitialSize) (kCheapPrepend + 2 * K) ∧
      (K ≤ kInitialSize → (p i).buffer.length = kCheapPrepend + kInitialSize) := by
  have hwithin : ∀ i, (p i).Within K := by
    refine hrun.invariant (I := fun p => ∀ i, (p i).Within K) (fun _ => Buffer.fresh_within K) ?_
    rintro p c es q h ⟨hhold, hstep⟩
    obtain ⟨hlegal, hcall⟩ := step_iff.mp hstep
    have hq : (call p c).val = q := congrArg Traced.val hcall
    rw [← hq]
    exact within_call h hlegal hhold
  exact ⟨(hwithin i).length_le, (hwithin i).initial⟩

/-- Most of a message has been retrieved when the next one makes the store grow. -/
def received : List BufferCall :=
  [.readFd 0 (List.replicate 1000 1), .retrieve 0 600, .append 0 (List.replicate 900 2)]

theorem length_buffer_le_received :
    ∃ p : Pool,
      ((p 0).buffer.length ≤ max (kCheapPrepend + kInitialSize) (kCheapPrepend + 2 * 1300) ∧
        (1300 ≤ kInitialSize → (p 0).buffer.length = kCheapPrepend + kInitialSize)) ∧
      (p 0).buffer.length = 1908 := by
  obtain ⟨es, p, hrun, hlength⟩ : ∃ es p,
      Run (restrict (HoldsAtMost 1300) Step) fresh received es p ∧ (p 0).buffer.length = 1908 := by
    refine Run.exists_of_exec_guarded _ ?_
    decide +kernel
  exact ⟨p, length_buffer_le hrun 0, hlength⟩

end Buffers
end Chaonet
