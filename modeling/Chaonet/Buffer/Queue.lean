import Chaonet.Buffer.Model
import Chaonet.Foundation.Run
import Mathlib.Logic.Function.Basic

/-!
# Buffers refine byte queues

The purpose of a `Buffer` is to be a queue of bytes that also accepts bytes at the
front.  `ByteQueues` states that purpose for a family of queues: each operation acts
on plain lists.  `Buffers` is the same family of operations on the real class, with
the callers' obligations as the guard of each step.

`Buffers.step_simulates` shows that one legal operation on valid buffers is the queue
operation on their contents, with the same returned value and no failed assertion;
the runs follow by the lockstep rule.
-/

namespace Chaonet

open Foundation

/-- One call on a family of buffers, indexed by natural numbers. -/
inductive BufferCall
  | append (i : Nat) (data : Bytes)
  | appendInt32 (i : Nat) (x : Int32)
  | prepend (i : Nat) (data : Bytes)
  | retrieve (i len : Nat)
  /-- `retrieveUntil(peek() + len)`. -/
  | retrieveUntil (i len : Nat)
  | retrieveAll (i : Nat)
  | retrieveAsString (i : Nat)
  | peekInt32 (i : Nat)
  /-- `ensureWritableBytes(len)`, then `data` written at `beginWrite()`, then `hasWritten`. -/
  | writeDirectly (i len : Nat) (data : Bytes)
  | readFd (i : Nat) (data : Bytes)
  | swap (i j : Nat)
deriving DecidableEq, Repr

/-- What a call shows its caller. -/
inductive BufferEvent
  | returnedBytes (bytes : Bytes)
  | returnedInt32 (x : Int32)
  | returnedSize (n : Int)
  | failed (a : Buffer.Assertion)
deriving DecidableEq, Repr

/-! ## The abstract queues -/

namespace ByteQueues

/-- A family of byte queues. -/
abbrev Queues := Nat → Bytes

/-- What each call means for the queues. -/
def step (q : Queues) : BufferCall → Traced BufferEvent Queues
  | .append i data => pure (Function.update q i (q i ++ data))
  | .appendInt32 i x => pure (Function.update q i (q i ++ networkOrder x.toUInt32))
  | .prepend i data => pure (Function.update q i (data ++ q i))
  | .retrieve i len => pure (Function.update q i ((q i).drop len))
  | .retrieveUntil i len => pure (Function.update q i ((q i).drop len))
  | .retrieveAll i => pure (Function.update q i [])
  | .retrieveAsString i => do
      Traced.emit (.returnedBytes (q i))
      pure (Function.update q i [])
  | .peekInt32 i => do
      Traced.emit (.returnedInt32 (hostOrder ((q i).take 4)).toInt32)
      pure q
  | .writeDirectly i _ data => pure (Function.update q i (q i ++ data))
  | .readFd i data => do
      Traced.emit (.returnedSize data.length)
      pure (Function.update q i (q i ++ data))
  | .swap i j => pure (Function.update (Function.update q i (q j)) j (q i))

/-- The queues accept every call. -/
def Step : Queues → BufferCall → List BufferEvent → Queues → Prop :=
  stepOf fun q call => some (step q call)

/-- No queue operation reports a failed assertion. -/
theorem not_failed_mem_step (q : Queues) (call : BufferCall) (a : Buffer.Assertion) :
    .failed a ∉ (step q call).trace := by
  cases call <;> simp [step]

end ByteQueues

/-! ## The buffers -/

namespace Buffers

/-- A family of buffers. -/
abbrev Pool := Nat → Buffer

/-- Every buffer just constructed. -/
def fresh : Pool := fun _ => Buffer.fresh

/-- The obligations of the callers. -/
def Legal (p : Pool) : BufferCall → Prop
  | .prepend i data => data.length ≤ (p i).prependableBytes
  | .retrieve i len => len ≤ (p i).readableBytes
  | .retrieveUntil i len => len ≤ (p i).readableBytes
  | .peekInt32 i => 4 ≤ (p i).readableBytes
  | .writeDirectly i len data =>
      data.length ≤ ((p i).ensureWritableBytes len).val.writableBytes
  | .readFd i data => data.length ≤ (p i).writableBytes + extrabufSize
  | _ => True

instance (p : Pool) (call : BufferCall) : Decidable (Legal p call) := by
  cases call <;> unfold Legal <;> infer_instance

/-- One call on the real class. -/
def call (p : Pool) : BufferCall → Traced BufferEvent Pool
  | .append i data => do
      let b ← ((p i).append data).lift .failed
      pure (Function.update p i b)
  | .appendInt32 i x => do
      let b ← ((p i).appendInt32 x).lift .failed
      pure (Function.update p i b)
  | .prepend i data => do
      let b ← ((p i).prepend data).lift .failed
      pure (Function.update p i b)
  | .retrieve i len => do
      let b ← ((p i).retrieve len).lift .failed
      pure (Function.update p i b)
  | .retrieveUntil i len => do
      let b ← ((p i).retrieveUntil ((p i).peek + len)).lift .failed
      pure (Function.update p i b)
  | .retrieveAll i => pure (Function.update p i (p i).retrieveAll)
  | .retrieveAsString i => do
      let r := (p i).retrieveAsString
      Traced.emit (.returnedBytes r.1)
      pure (Function.update p i r.2)
  | .peekInt32 i => do
      let x ← (p i).peekInt32.lift .failed
      Traced.emit (.returnedInt32 x)
      pure p
  | .writeDirectly i len data => do
      let b ← ((p i).ensureWritableBytes len).lift .failed
      pure (Function.update p i ((b.copyToBeginWrite data).hasWritten data.length))
  | .readFd i data => do
      let r ← ((p i).readFd (some data)).lift .failed
      Traced.emit (.returnedSize r.1)
      pure (Function.update p i r.2)
  | .swap i j => pure (Function.update (Function.update p i (p j)) j (p i))

/-- The calls whose obligations are met. -/
def Step : Pool → BufferCall → List BufferEvent → Pool → Prop :=
  stepOf fun p c => if Legal p c then some (call p c) else none

theorem step_iff {p q : Pool} {c : BufferCall} {es : List BufferEvent} :
    Step p c es q ↔ Legal p c ∧ call p c = ⟨q, es⟩ := by
  by_cases h : Legal p c <;> simp [Step, stepOf, h]

/-! ## Refinement -/

/-- The queues a pool stands for. -/
def contents (p : Pool) : ByteQueues.Queues := fun i => (p i).content

/-- All buffers of the pool are valid and hold the given contents. -/
def Represents (p : Pool) (q : ByteQueues.Queues) : Prop :=
  (∀ i, (p i).Valid) ∧ contents p = q

theorem represents_fresh : Represents fresh fun _ => [] :=
  ⟨fun _ => Buffer.fresh_valid, funext fun _ => Buffer.fresh_content⟩

/-- Replacing one buffer replaces one queue. -/
theorem Represents.update {p : Pool} {q : ByteQueues.Queues} (h : Represents p q) (i : Nat)
    {b : Buffer} {content : Bytes} (hvalid : b.Valid) (hcontent : b.content = content) :
    Represents (Function.update p i b) (Function.update q i content) := by
  obtain ⟨hp, rfl⟩ := h
  constructor
  · intro j
    by_cases hj : j = i
    · subst hj
      simpa using hvalid
    · simpa [hj] using hp j
  · funext j
    by_cases hj : j = i
    · subst hj
      simp [contents, hcontent]
    · simp [contents, hj]

/-- An operation that keeps a buffer valid matches the queue operation with the same
result, and reports nothing. -/
theorem Represents.keeps {p : Pool} {q : ByteQueues.Queues} (h : Represents p q) (i : Nat)
    {x : Traced Buffer.Assertion Buffer} {content : Bytes} (hx : Buffer.Keeps x content) :
    (x.lift BufferEvent.failed >>= fun b => pure (Function.update p i b)).trace =
        (pure (Function.update q i content) : Traced BufferEvent _).trace ∧
      Represents (x.lift BufferEvent.failed >>= fun b => pure (Function.update p i b)).val
        (Function.update q i content) :=
  ⟨by simp [hx.asserted], h.update i hx.valid hx.content_eq⟩

/-- One legal call on buffers is the queue operation on their contents. -/
theorem call_refines {p : Pool} {q : ByteQueues.Queues} {c : BufferCall} (h : Represents p q)
    (hlegal : Legal p c) :
    (call p c).trace = (ByteQueues.step q c).trace ∧
      Represents (call p c).val (ByteQueues.step q c).val := by
  have hvalid := h.1
  have hcontent : ∀ i, (p i).content = q i := fun i => congrFun h.2 i
  cases c with
  | append i data =>
      have hx := Buffer.append_keeps (hvalid i) data
      rw [hcontent] at hx
      exact h.keeps i hx
  | appendInt32 i x =>
      have hx := Buffer.append_keeps (hvalid i) (networkOrder x.toUInt32)
      rw [hcontent] at hx
      exact h.keeps i hx
  | prepend i data =>
      have hx := Buffer.prepend_keeps (hvalid i) hlegal
      rw [hcontent] at hx
      exact h.keeps i hx
  | retrieve i len =>
      have hx := Buffer.retrieve_keeps (hvalid i) hlegal
      rw [hcontent] at hx
      exact h.keeps i hx
  | retrieveUntil i len =>
      have hend : (p i).peek + len ≤ (p i).beginWrite := by
        have hlen : len ≤ (p i).writerIndex - (p i).readerIndex := hlegal
        have horder := (hvalid i).reader_le_writer
        simp only [Buffer.peek, Buffer.beginWrite]
        omega
      have hx := Buffer.retrieveUntil_keeps (hvalid i) (Nat.le_add_right _ _) hend
      rw [hcontent, Nat.add_sub_cancel_left] at hx
      exact h.keeps i hx
  | retrieveAll i =>
      exact ⟨rfl, h.update i (Buffer.retrieveAll_valid (hvalid i)) (Buffer.retrieveAll_content _)⟩
  | retrieveAsString i =>
      have hreturned := Buffer.retrieveAsString_fst (hvalid i)
      rw [hcontent] at hreturned
      refine ⟨by simp [call, ByteQueues.step, hreturned], ?_⟩
      exact h.update i (Buffer.retrieveAll_valid (hvalid i)) (Buffer.retrieveAll_content _)
  | peekInt32 i =>
      have hpeek := Buffer.peekInt32_val hlegal
      rw [hcontent] at hpeek
      exact ⟨by simp [call, ByteQueues.step, hpeek], h⟩
  | writeDirectly i len data =>
      obtain ⟨hx, -⟩ := Buffer.ensureWritableBytes_keeps (hvalid i) len
      obtain ⟨hwritten, hwrites⟩ := Buffer.hasWritten_keeps hx.valid _ hlegal
      rw [hx.content_eq, hcontent] at hwrites
      exact ⟨by simp [call, ByteQueues.step, hx.asserted], h.update i hwritten hwrites⟩
  | readFd i data =>
      obtain ⟨hx, hsize⟩ := Buffer.readFd_keeps (hvalid i) data
      rw [hcontent] at hx
      have htrace : ((p i).readFd (some data)).trace = [] := by simpa using hx.asserted
      exact ⟨by simp [call, ByteQueues.step, htrace, hsize], h.update i hx.valid hx.content_eq⟩
  | swap i j =>
      refine ⟨rfl, ?_⟩
      exact (h.update i (hvalid j) (hcontent j)).update j (hvalid i) (hcontent i)

theorem step_simulates (p : Pool) (c : BufferCall) (es : List BufferEvent) (p' : Pool)
    (q : ByteQueues.Queues) (h : Represents p q) (hstep : Step p c es p') :
    ∃ q', ByteQueues.Step q c es q' ∧ Represents p' q' := by
  obtain ⟨hlegal, hcall⟩ := step_iff.mp hstep
  obtain ⟨htrace, hrep⟩ := call_refines h hlegal
  rw [hcall] at htrace hrep
  change es = _ at htrace
  subst htrace
  exact ⟨_, rfl, hrep⟩

/-- The buffers of a run are valid. -/
theorem valid_of_run {cs : List BufferCall} {es : List BufferEvent} {p : Pool}
    (h : Run Step fresh cs es p) (i : Nat) : (p i).Valid := by
  obtain ⟨q, -, hvalid, -⟩ := h.simulate (f := id) step_simulates represents_fresh
  exact hvalid i

/-- The values returned along a run of the queues never are assertion failures. -/
theorem queues_never_fail {q q' : ByteQueues.Queues} {cs : List BufferCall}
    {es : List BufferEvent} (h : Run ByteQueues.Step q cs es q') (a : Buffer.Assertion) :
    .failed a ∉ es := by
  intro ha
  obtain ⟨s, c, es', t, -, hstep, hmem⟩ :=
    h.event (I := fun _ => True) trivial (fun _ _ _ _ _ _ => trivial) ha
  simp only [ByteQueues.Step, stepOf, Option.some.injEq] at hstep
  exact ByteQueues.not_failed_mem_step s c a (hstep ▸ hmem)

/-- **Buffers are byte queues.**  After every sequence of legal calls on fresh buffers
the indices are in order, no assertion has failed, and the contents and all returned
values are those of the byte queues after the same calls; and on each of them `peekInt32`
inverts `appendInt32`, once what was readable before has been retrieved. -/
theorem run_refines_queues {cs : List BufferCall} {es : List BufferEvent} {p : Pool}
    (h : Run Step fresh cs es p) :
    (∀ i, (p i).readerIndex ≤ (p i).writerIndex ∧ (p i).writerIndex ≤ (p i).buffer.length ∧
        kCheapPrepend ≤ (p i).writerIndex) ∧
      (∀ a, .failed a ∉ es) ∧
      Run ByteQueues.Step (fun _ => []) cs es (contents p) ∧
      ∀ i x, ((p i).appendInt32 x >>= fun b =>
        b.retrieve (p i).readableBytes >>= Buffer.peekInt32) = pure x := by
  obtain ⟨q, hrun, hvalid, rfl⟩ := h.simulate (f := id) step_simulates represents_fresh
  rw [List.map_id] at hrun
  refine ⟨fun i => ?_, queues_never_fail hrun, hrun, fun i x => ?_⟩
  · exact ⟨(hvalid i).reader_le_writer, (hvalid i).writer_le_size,
      (hvalid i).cheapPrepend_le_writer⟩
  · exact Buffer.peekInt32_appendInt32 (hvalid i) x

/-- The theorem at a run that appends a number, reads from a socket and swaps. -/
theorem run_refines_queues_swap :
    ∃ es p, Run ByteQueues.Step (fun _ => []) [.appendInt32 0 5, .readFd 1 [1, 2], .swap 0 1]
      es (contents p) ∧ ∀ a, .failed a ∉ es := by
  have hread (b : Buffer) : 2 ≤ b.writableBytes + extrabufSize :=
    Nat.le_add_left_of_le (by decide)
  have hrun := run_refines_queues (.cons (step_iff.mpr ⟨trivial, rfl⟩)
    (.cons (step_iff.mpr ⟨hread _, rfl⟩) (.cons (step_iff.mpr ⟨trivial, rfl⟩) (.nil _))) :
    Run Step fresh [.appendInt32 0 5, .readFd 1 [1, 2], .swap 0 1] _ _)
  exact ⟨_, _, hrun.2.2.1, hrun.2.1⟩

end Buffers
end Chaonet
