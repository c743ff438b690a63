import Chaonet.Foundation.Loop
import Chaonet.Foundation.Run
import Chaonet.Protobuf.ProtobufCodecLite

/-!
# Delivering frames

The frames of a list of messages arrive at `onMessage` in pieces.  The loop of `onMessage` asks for
`kMaxMessageLen + kHeaderLen` readable bytes before it looks at a frame, however short the frame
is.  So what it takes is a number of whole frames, and it stops with less than that in the buffer
(`onMessage_progress`): the last message comes through only if its frame has the greatest
length (`decodes_iff`).
-/

namespace Chaonet

open Foundation

namespace ProtobufCodecLite

variable {M : Type*} (c : ProtobufCodecLite M) (returned : Nat → ErrorCode)

/-- Bytes arrive, and `onMessage` is called. -/
def Step (s : Receiver) (chunk : Bytes) (es : List (Event M)) (t : Receiver) : Prop :=
  let read := s.buf.readFd (some chunk)
  ∃ handled, Loop (c.onMessageStep returned) { s with buf := read.val.2 } handled t ∧
    es = read.trace.map .buffer ++ handled

/-- Nothing has been received. -/
def Receiver.fresh : Receiver := ⟨.fresh, 0⟩

/-- What `fillEmptyBuffer` puts into a new buffer for each of the messages. -/
def stream (messages : List M) : Bytes :=
  messages.flatMap fun m => (c.fillEmptyBuffer Buffer.fresh m).val.content

/-- The receiver decodes the messages from these pieces: it calls `messageCallback_` for each of
them and nothing else, and the buffer is empty at the end. -/
def Decodes (messages : List M) (chunks : List Bytes) : Prop :=
  ∃ s, Run (c.Step returned) Receiver.fresh chunks (messages.map .messageCallback) s ∧
    s.buf.content = []

/-- The condition: the last frame has the greatest length, and what is read as the result of
`parse` is `kNoError` for each of the messages. -/
def Delivers (messages : List M) : Prop :=
  (∀ m ∈ messages.getLast?, c.bodyLength m = kMaxMessageLen) ∧
    ∀ i < messages.length, returned i = .kNoError

theorem stream_eq (messages : List M) : c.stream messages = messages.flatMap c.frame := by
  have hframe (m : M) : (c.fillEmptyBuffer Buffer.fresh m).val.content = c.frame m :=
    (c.fillEmptyBuffer_keeps m Buffer.fresh_valid rfl (by decide)).2.1
  simp only [stream, hframe]

/-- How far a receiver has come with the messages `ms` that were to come: it has delivered
`delivered`, and the frames of `left` are in the buffer or still to come as `future`. -/
structure Progress (parses : Nat) (ms delivered left : List M) (future : Bytes)
    (t : Receiver) : Prop where
  split : ms = delivered ++ left
  valid : t.buf.Valid
  bytes : t.buf.content ++ future = left.flatMap c.frame
  calls : t.parses = parses + delivered.length
  noError : ∀ i < delivered.length, returned (parses + i) = .kNoError
  /-- The last frame of all was taken while it was alone in the buffer. -/
  last : left = [] → ∀ m ∈ delivered.getLast?, c.bodyLength m = kMaxMessageLen

/-- Less is readable than the loop of `onMessage` asks for. -/
def Receiver.Short (s : Receiver) : Prop :=
  s.buf.readableBytes < kMaxMessageLen + kHeaderLen

/-- An error has been reported, and for one of the messages `parse` seemed to fail. -/
def Refused (parses : Nat) (ms : List M) (es : List (Event M)) : Prop :=
  (∃ code, .errorCallback code ∈ es) ∧ ∃ i < ms.length, returned (parses + i) ≠ .kNoError

variable {c returned} {ms : List M} {s t : Receiver} {future : Bytes}

theorem Progress.refl (hvalid : s.buf.Valid)
    (hbytes : s.buf.content ++ future = ms.flatMap c.frame) :
    c.Progress returned s.parses ms [] ms future s :=
  ⟨rfl, hvalid, hbytes, rfl, by simp, by simp⟩

theorem Progress.trans {u : Receiver} {parses : Nat} {delivered left delivered' left' : List M}
    {future' : Bytes} (h : c.Progress returned parses ms delivered left future t)
    (h' : c.Progress returned t.parses left delivered' left' future' u) :
    c.Progress returned parses ms (delivered ++ delivered') left' future' u where
  split := by rw [h.split, h'.split, List.append_assoc]
  valid := h'.valid
  bytes := h'.bytes
  calls := by rw [h'.calls, h.calls, List.length_append, Nat.add_assoc]
  noError i hi := by
    by_cases hfirst : i < delivered.length
    · exact h.noError i hfirst
    · have hsecond := h'.noError (i - delivered.length) (by
        rw [List.length_append] at hi
        omega)
      rwa [h.calls, Nat.add_assoc, Nat.add_sub_cancel' (Nat.le_of_not_lt hfirst)] at hsecond
  last hleft m hm := by
    rcases List.eq_nil_or_concat delivered' with rfl | ⟨init, m', rfl⟩
    · rw [List.append_nil] at hm
      exact h.last (h'.split.trans hleft) m hm
    · refine h'.last hleft m ?_
      simpa using hm

/-- An error after some progress. -/
theorem Progress.refused {parses : Nat} {delivered left : List M} {es es' : List (Event M)}
    (h : c.Progress returned parses ms delivered left future t)
    (h' : Refused returned t.parses left es') : Refused returned parses ms (es ++ es') := by
  obtain ⟨⟨code, hcode⟩, i, hi, hreturned⟩ := h'
  refine ⟨⟨code, List.mem_append_right _ hcode⟩, delivered.length + i, ?_, ?_⟩
  · rw [h.split, List.length_append]
    omega
  · rwa [h.calls, Nat.add_assoc] at hreturned

/-- **What one call of `onMessage` does.**  It takes whole frames from the front of the buffer as
long as there are enough bytes for one of the greatest length. -/
theorem onMessage_progress (hraw : c.rawCb = none)
    (hinverse : ∀ m, c.prototype.parseFromArray (c.prototype.serialize m) = (true, m))
    (hmax : ∀ m ∈ ms, c.bodyLength m ≤ kMaxMessageLen) (hvalid : s.buf.Valid)
    (hbytes : s.buf.content ++ future = ms.flatMap c.frame) :
    ∃ es t, Loop (c.onMessageStep returned) s es t ∧
      ((∃ delivered left, es = delivered.map .messageCallback ∧
          c.Progress returned s.parses ms delivered left future t ∧ t.Short) ∨
        Refused returned s.parses ms es) := by
  induction ms generalizing s with
  | nil =>
      have hshort : s.Short := by
        have hnil : s.buf.content = [] := (List.append_eq_nil_iff.mp hbytes).1
        rw [Receiver.Short, (Buffer.content_eq_nil hvalid).mp hnil]
        decide
      exact ⟨[], s, .exit (onMessageStep_short returned hshort),
        .inl ⟨[], [], rfl, .refl hvalid hbytes, hshort⟩⟩
  | cons m ms ih =>
      by_cases hshort : s.Short
      · exact ⟨[], s, .exit (onMessageStep_short returned hshort),
          .inl ⟨[], m :: ms, rfl, .refl hvalid hbytes, hshort⟩⟩
      · have hfull : kMaxMessageLen + kHeaderLen ≤ s.buf.readableBytes := Nat.le_of_not_lt hshort
        have hm := hmax m List.mem_cons_self
        have hlength := Buffer.length_content hvalid
        -- The first frame is complete, because it is not longer than what the loop asks for.
        obtain ⟨rest, hcontent⟩ : c.frame m <+: s.buf.content := by
          refine List.prefix_of_prefix_length_le ⟨_, rfl⟩ (hbytes ▸ List.prefix_append _ _) ?_
          rw [length_frame, hlength]
          omega
        have hrest : rest ++ future = ms.flatMap c.frame := by
          rw [← hcontent, List.flatMap_cons, List.append_assoc] at hbytes
          exact List.append_cancel_left hbytes
        obtain ⟨buf, hvalid', hcontent', hstep⟩ :=
          onMessageStep_frame returned hraw hvalid hcontent.symm hm hfull (hinverse m)
        by_cases hreturned : returned s.parses = .kNoError
        · rw [if_pos hreturned] at hstep
          have hfirst : c.Progress returned s.parses (m :: ms) [m] ms future
              ⟨buf, s.parses + 1⟩ := by
            refine ⟨rfl, hvalid', hcontent' ▸ hrest, rfl, by simpa using hreturned, ?_⟩
            -- If no frame follows, this one fills what the loop has asked for.
            rintro rfl m' hm'
            obtain rfl : m = m' := by simpa using hm'
            have hnil : rest = [] := (List.append_eq_nil_iff.mp hrest).1
            rw [hnil, List.append_nil] at hcontent
            rw [← hlength, ← hcontent, length_frame] at hfull
            omega
          obtain ⟨es, t, hloop, hdone⟩ := @ih ⟨buf, s.parses + 1⟩
            (fun m' hm' => hmax m' (List.mem_cons_of_mem m hm')) hvalid' (hcontent' ▸ hrest)
          refine ⟨_, t, .again hstep hloop, ?_⟩
          rcases hdone with ⟨delivered, left, rfl, hprogress, hshort'⟩ | hrefused
          · exact .inl ⟨[m] ++ delivered, left, rfl, hfirst.trans hprogress, hshort'⟩
          · exact .inr (hfirst.refused hrefused)
        · rw [if_neg hreturned] at hstep
          exact ⟨_, _, .exit hstep, .inr ⟨⟨_, List.mem_singleton_self _⟩, 0, by simp, hreturned⟩⟩

/-- The same of one step. -/
theorem step_progress (returned : Nat → ErrorCode) (hraw : c.rawCb = none)
    (hinverse : ∀ m, c.prototype.parseFromArray (c.prototype.serialize m) = (true, m))
    (hmax : ∀ m ∈ ms, c.bodyLength m ≤ kMaxMessageLen) (hvalid : s.buf.Valid) (chunk : Bytes)
    (hbytes : s.buf.content ++ chunk ++ future = ms.flatMap c.frame) :
    ∃ es t, c.Step returned s chunk es t ∧
      ((∃ delivered left, es = delivered.map .messageCallback ∧
          c.Progress returned s.parses ms delivered left future t ∧ t.Short) ∨
        Refused returned s.parses ms es) := by
  obtain ⟨⟨hvalid', hcontent, htrace⟩, -⟩ := Buffer.readFd_keeps hvalid chunk
  rw [Traced.map_val] at hvalid' hcontent
  rw [Traced.map_trace] at htrace
  obtain ⟨es, t, hloop, hdone⟩ :=
    @onMessage_progress _ c returned ms ⟨(s.buf.readFd (some chunk)).val.2, s.parses⟩ future hraw
      hinverse hmax hvalid' (hcontent ▸ hbytes)
  exact ⟨es, t, ⟨es, hloop, by rw [htrace]; rfl⟩, hdone⟩

theorem step_unique {chunk : Bytes} {es es' : List (Event M)} {t' : Receiver}
    (h : c.Step returned s chunk es t) (h' : c.Step returned s chunk es' t') :
    es = es' ∧ t = t' := by
  obtain ⟨handled, hloop, rfl⟩ := h
  obtain ⟨handled', hloop', rfl⟩ := h'
  obtain ⟨rfl, rfl⟩ := hloop.unique hloop'
  exact ⟨rfl, rfl⟩

/-- The same of a run. -/
theorem run_progress (hraw : c.rawCb = none)
    (hinverse : ∀ m, c.prototype.parseFromArray (c.prototype.serialize m) = (true, m))
    {chunks : List Bytes} {es : List (Event M)} (h : Run (c.Step returned) s chunks es t)
    (hmax : ∀ m ∈ ms, c.bodyLength m ≤ kMaxMessageLen) (hvalid : s.buf.Valid) (hshort : s.Short)
    (hbytes : s.buf.content ++ chunks.flatten = ms.flatMap c.frame) :
    (∃ delivered left, es = delivered.map .messageCallback ∧
        c.Progress returned s.parses ms delivered left [] t ∧ t.Short) ∨
      Refused returned s.parses ms es := by
  induction h generalizing ms with
  | nil s =>
      rw [List.flatten_nil] at hbytes
      exact .inl ⟨[], ms, rfl, .refl hvalid hbytes, hshort⟩
  | @cons s t u chunk chunks es es' hstep _ ih =>
      rw [List.flatten_cons, ← List.append_assoc] at hbytes
      obtain ⟨_, _, hstep', hdone⟩ := step_progress returned hraw hinverse hmax hvalid chunk hbytes
      obtain ⟨rfl, rfl⟩ := step_unique hstep hstep'
      rcases hdone with ⟨delivered, left, rfl, hprogress, hshort'⟩ | ⟨⟨code, hcode⟩, hreturned⟩
      · have hleft : ∀ m ∈ left, c.bodyLength m ≤ kMaxMessageLen := fun m hm =>
          hmax m (hprogress.split ▸ List.mem_append_right _ hm)
        rcases ih hleft hprogress.valid hshort' hprogress.bytes with
          ⟨delivered', left', rfl, hprogress', hshort''⟩ | hrefused
        · exact .inl ⟨delivered ++ delivered', left', List.map_append.symm,
            hprogress.trans hprogress', hshort''⟩
        · exact .inr (hprogress.refused hrefused)
      · exact .inr ⟨⟨code, List.mem_append_left _ hcode⟩, hreturned⟩

/-- As long as `parse` does not seem to fail, there is a run for any pieces. -/
theorem exists_run (hraw : c.rawCb = none)
    (hinverse : ∀ m, c.prototype.parseFromArray (c.prototype.serialize m) = (true, m))
    (chunks : List Bytes) (hmax : ∀ m ∈ ms, c.bodyLength m ≤ kMaxMessageLen)
    (hvalid : s.buf.Valid) (hbytes : s.buf.content ++ chunks.flatten = ms.flatMap c.frame)
    (hreturned : ∀ i < ms.length, returned (s.parses + i) = .kNoError) :
    ∃ es t, Run (c.Step returned) s chunks es t := by
  induction chunks generalizing s ms with
  | nil => exact ⟨[], s, .nil s⟩
  | cons chunk chunks ih =>
      rw [List.flatten_cons, ← List.append_assoc] at hbytes
      obtain ⟨es, t, hstep, hdone⟩ := step_progress returned hraw hinverse hmax hvalid chunk hbytes
      rcases hdone with ⟨delivered, left, -, hprogress, -⟩ | ⟨-, i, hi, herror⟩
      · have hleft : ∀ m ∈ left, c.bodyLength m ≤ kMaxMessageLen := fun m hm =>
          hmax m (hprogress.split ▸ List.mem_append_right _ hm)
        have hreturned' : ∀ i < left.length, returned (t.parses + i) = .kNoError := by
          intro i hi
          rw [hprogress.calls, Nat.add_assoc]
          refine hreturned _ ?_
          rw [hprogress.split, List.length_append]
          omega
        obtain ⟨es', u, hrun⟩ := ih hleft hprogress.valid hprogress.bytes hreturned'
        exact ⟨_, u, .cons hstep hrun⟩
      · exact absurd (hreturned i hi) herror

theorem decodes_iff_delivers (hraw : c.rawCb = none)
    (hinverse : ∀ m, c.prototype.parseFromArray (c.prototype.serialize m) = (true, m))
    (hmax : ∀ m ∈ ms, c.bodyLength m ≤ kMaxMessageLen) {chunks : List Bytes}
    (hchunks : chunks.flatten = c.stream ms) :
    c.Decodes returned ms chunks ↔ c.Delivers returned ms := by
  have hbytes : Receiver.fresh.buf.content ++ chunks.flatten = ms.flatMap c.frame := by
    rw [hchunks, stream_eq, Receiver.fresh, Buffer.fresh_content, List.nil_append]
  have hshort : Receiver.fresh.Short := by
    rw [Receiver.Short, Receiver.fresh]
    decide
  constructor
  · rintro ⟨t, hrun, hempty⟩
    rcases run_progress hraw hinverse hrun hmax Buffer.fresh_valid hshort hbytes with
      ⟨delivered, left, hes, hprogress, -⟩ | ⟨⟨code, hcode⟩, -⟩
    · have hlength := congrArg List.length hes
      rw [List.length_map, List.length_map, hprogress.split, List.length_append] at hlength
      obtain rfl : left = [] := List.length_eq_zero_iff.mp (by omega)
      obtain rfl : ms = delivered := hprogress.split.trans (List.append_nil _)
      refine ⟨hprogress.last rfl, fun i hi => ?_⟩
      have hnoError := hprogress.noError i hi
      rwa [Receiver.fresh, Nat.zero_add] at hnoError
    · simp at hcode
  · rintro ⟨hlast, hreturned⟩
    have hreturned' : ∀ i < ms.length,
        returned (Receiver.fresh.parses + i) = .kNoError := fun i hi => by
      rw [Receiver.fresh, Nat.zero_add]
      exact hreturned i hi
    obtain ⟨es, t, hrun⟩ :=
      exists_run hraw hinverse chunks hmax Buffer.fresh_valid hbytes hreturned'
    rcases run_progress hraw hinverse hrun hmax Buffer.fresh_valid hshort hbytes with
      ⟨delivered, left, rfl, hprogress, hshort'⟩ | ⟨-, i, hi, herror⟩
    · have hcontent := hprogress.bytes
      rw [List.append_nil] at hcontent
      have hsplit := hprogress.split
      -- A last frame of the greatest length is not left in the buffer.
      obtain rfl : left = [] := by
        rcases List.eq_nil_or_concat left with hnil | ⟨init, m, rfl⟩
        · exact hnil
        · have hm : c.bodyLength m = kMaxMessageLen := hlast m (by simp [hsplit])
          have hlength := Buffer.length_content hprogress.valid
          rw [hcontent, List.concat_eq_append, List.flatMap_append, List.length_append,
            List.flatMap_singleton, length_frame, hm] at hlength
          rw [Receiver.Short] at hshort'
          omega
      obtain rfl : ms = delivered := hsplit.trans (List.append_nil _)
      exact ⟨t, hrun, hcontent⟩
    · exact absurd (hreturned' i hi) herror

/-- **When the receiver decodes what the sender has framed.** -/
theorem decodes_iff (prototype : Prototype M) (tag : Bytes) (adler32 : Bytes → UInt32)
    (returned : Nat → ErrorCode)
    (hinverse : ∀ m, prototype.parseFromArray (prototype.serialize m) = (true, m))
    {messages : List M}
    (hmax : ∀ m ∈ messages, (create prototype tag none adler32).bodyLength m ≤ kMaxMessageLen)
    {chunks : List Bytes}
    (hchunks : chunks.flatten = (create prototype tag none adler32).stream messages) :
    (create prototype tag none adler32).Decodes returned messages chunks ↔
      (create prototype tag none adler32).Delivers returned messages :=
  decodes_iff_delivers rfl hinverse hmax hchunks

/-! ## Two messages -/

/-- `::adler32`. -/
def zlibAdler32 (bytes : Bytes) : UInt32 :=
  let sums := bytes.foldl (fun (a, b) x =>
    ((a + x.toNat) % 65521, (b + (a + x.toNat) % 65521) % 65521)) (1, 0)
  UInt32.ofNat (65536 * sums.2 + sums.1)

/-- A message type without fields: what is parsed is kept as unknown fields. -/
def unknownFields : Prototype Bytes := ⟨[], id, fun data => (true, data)⟩

/-- The codec with the tag "RPC0". -/
def rpcCodec : ProtobufCodecLite Bytes := create unknownFields [82, 80, 67, 48] none zlibAdler32

/-- One field of so many bytes that the frame has the greatest length. -/
def greatest : Bytes := [10, 243, 255, 255, 31] ++ List.replicate 67108851 0

theorem bodyLength_greatest : rpcCodec.bodyLength greatest = kMaxMessageLen := by
  have hlength : greatest.length = 5 + 67108851 := by
    rw [greatest, List.length_append, List.length_replicate]
    rfl
  have hserialize : rpcCodec.prototype.serialize greatest = greatest := id_def greatest
  have htag : rpcCodec.tag.length = 4 := rfl
  rw [bodyLength, hserialize, hlength, htag, kChecksumLen, kMaxMessageLen]

theorem decodes_iff_greatest :
    rpcCodec.Decodes (fun _ => .kNoError) [greatest] [rpcCodec.stream [greatest]] := by
  refine (decodes_iff unknownFields [82, 80, 67, 48] zlibAdler32 _ (fun _ => rfl) ?_ ?_).mpr ?_
  · intro m hm
    rw [List.mem_singleton.mp hm]
    exact bodyLength_greatest.le
  · exact List.flatten_singleton
  · refine ⟨fun m hm => ?_, fun _ _ => rfl⟩
    obtain rfl : greatest = m := by simpa using hm
    exact bodyLength_greatest

/-- The frame of a short message stays in the buffer. -/
theorem not_decodes_short :
    ¬rpcCodec.Decodes (fun _ => .kNoError) [[8, 1]] [rpcCodec.stream [[8, 1]]] := by
  have hlength : rpcCodec.bodyLength [8, 1] = 10 := rfl
  intro hdecodes
  have hdelivers := (decodes_iff_delivers rfl (fun _ => rfl) (by simp [hlength, kMaxMessageLen])
    List.flatten_singleton).mp hdecodes
  have hlast := hdelivers.1 [8, 1] (by simp)
  rw [hlength, kMaxMessageLen] at hlast
  omega

end ProtobufCodecLite
end Chaonet
