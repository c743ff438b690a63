import Chaonet.Buffer.Queue

/-!
# Shrinking a buffer

`Buffer::shrink` copies the readable bytes to position `kCheapPrepend` of a new store and
swaps the stores, but leaves `readerIndex_` and `writerIndex_` as they were.  The indices fit
the new store only if the readable bytes began at `kCheapPrepend` before.  If they began
earlier, they move by some places, which cannot be seen when all of them are zero; if they
began later, the new store is too short (`shrink_preserves_iff`).
-/

namespace Chaonet

open Foundation

namespace Buffer

/-- What `shrink(reserve)` is for: it keeps the readable bytes and the order of the indices,
and leaves room for `reserve` more bytes. -/
def ShrinkPreserves (b : Buffer) (reserve : Nat) : Prop :=
  ∃ b', b.shrink reserve = some b' ∧ b'.content = b.content ∧
    b'.readerIndex ≤ b'.writerIndex ∧ b'.writerIndex ≤ b'.buffer.length ∧
    reserve ≤ b'.writableBytes

/-- The size of the new store is a `size_t`, and the readable bytes begin at `kCheapPrepend`,
or are all zero and begin before it. -/
def ShrinkSafe (b : Buffer) (reserve : Nat) : Prop :=
  kCheapPrepend + b.readableBytes + reserve ≤ kSizeMax ∧
    (b.readerIndex = kCheapPrepend ∨ b.readerIndex < kCheapPrepend ∧ ∀ x ∈ b.content, x = 0)

instance (b : Buffer) (reserve : Nat) : Decidable (b.ShrinkSafe reserve) :=
  inferInstanceAs (Decidable (_ ∧ _))

variable {b b' : Buffer} {reserve : Nat}

/-- The new store, as long as its size does not wrap around. -/
theorem shrink_eq (h : b.Valid) (hsize : kCheapPrepend + b.readableBytes + reserve ≤ kSizeMax) :
    b.shrink reserve = some { b with
      buffer := List.replicate kCheapPrepend 0 ++ b.content ++ List.replicate reserve 0 } := by
  have hmod : (kCheapPrepend + b.readableBytes + reserve) % (kSizeMax + 1) =
      kCheapPrepend + b.readableBytes + reserve := Nat.mod_eq_of_lt (by omega)
  have hfits : kCheapPrepend + b.readableBytes ≤ kCheapPrepend + b.readableBytes + reserve :=
    Nat.le_add_right _ _
  simp only [shrink, hmod, if_pos hfits, overwrite_replicate (length_content h)]

/-- The new store ends before `writerIndex_ + reserve` if its size wraps around, or if the
readable bytes began behind `kCheapPrepend`. -/
theorem room_of_shrink (h : b.Valid) (hshrink : b.shrink reserve = some b')
    (hwriter : b'.writerIndex ≤ b'.buffer.length) (hroom : reserve ≤ b'.writableBytes) :
    kCheapPrepend + b.readableBytes + reserve ≤ kSizeMax ∧ b.readerIndex ≤ kCheapPrepend := by
  have horder := h.reader_le_writer
  simp only [shrink] at hshrink
  split_ifs at hshrink with hfits
  obtain rfl := Option.some.inj hshrink
  have hlength := length_overwrite (v := List.replicate
      ((kCheapPrepend + b.readableBytes + reserve) % (kSizeMax + 1)) (0 : UInt8))
    (i := kCheapPrepend) (d := b.content)
    (by rw [length_content h, List.length_replicate]; exact hfits)
  rw [List.length_replicate] at hlength
  have hsize : (kCheapPrepend + b.readableBytes + reserve) % (kSizeMax + 1) ≤
      kCheapPrepend + b.readableBytes + reserve := Nat.mod_le _ _
  have hwrap : kCheapPrepend + b.readableBytes + reserve ≤ kSizeMax ∨
      (kCheapPrepend + b.readableBytes + reserve) % (kSizeMax + 1) + (kSizeMax + 1) ≤
        kCheapPrepend + b.readableBytes + reserve := by
    by_cases hsmall : kCheapPrepend + b.readableBytes + reserve ≤ kSizeMax
    · exact Or.inl hsmall
    · right
      have hpart := Nat.mod_add_div (kCheapPrepend + b.readableBytes + reserve) (kSizeMax + 1)
      have hpos : 1 ≤ (kCheapPrepend + b.readableBytes + reserve) / (kSizeMax + 1) :=
        Nat.div_pos (by omega) (by omega)
      have hmul : (kSizeMax + 1) * 1 ≤
          (kSizeMax + 1) * ((kCheapPrepend + b.readableBytes + reserve) / (kSizeMax + 1)) :=
        Nat.mul_le_mul_left _ hpos
      omega
  simp only [writableBytes, hlength] at hwriter hroom
  unfold readableBytes kSizeMax kCheapPrepend at *
  omega

/-- **When `shrink` preserves the buffer.** -/
theorem shrink_preserves_iff (h : b.Valid) (reserve : Nat) :
    b.ShrinkPreserves reserve ↔ b.ShrinkSafe reserve := by
  have horder := h.reader_le_writer
  have hlength := length_content h
  -- The readable part of the new store, seen through the old indices.
  have hread (hbefore : b.readerIndex ≤ kCheapPrepend) :
      segment (List.replicate kCheapPrepend 0 ++ b.content ++ List.replicate reserve 0)
        b.readerIndex b.writerIndex =
      (List.replicate (kCheapPrepend - b.readerIndex) 0 ++ b.content).take b.content.length := by
    rw [Foundation.segment, List.append_assoc,
      List.drop_append_of_le_length (by simpa using hbefore), List.drop_replicate, hlength,
      ← List.append_assoc, List.take_append_of_le_length]
    · rfl
    · rw [List.length_append, hlength]
      exact Nat.le_add_left _ _
  constructor
  · rintro ⟨b', hshrink, hcontent, -, hwriter, hroom⟩
    obtain ⟨hsize, hbefore⟩ := room_of_shrink h hshrink hwriter hroom
    refine ⟨hsize, ?_⟩
    rcases Nat.eq_or_lt_of_le hbefore with heq | hlt
    · exact Or.inl heq
    · rw [shrink_eq h hsize] at hshrink
      obtain rfl := Option.some.inj hshrink
      have hsame := (hread hbefore).symm.trans hcontent
      exact Or.inr ⟨hlt, eq_fill_of_shift (by omega) hsame⟩
  · rintro ⟨hsize, hplace⟩
    have hbefore : b.readerIndex ≤ kCheapPrepend := by
      rcases hplace with heq | ⟨hlt, -⟩
      · exact heq.le
      · exact hlt.le
    refine ⟨_, shrink_eq h hsize, ?_, horder, ?_, ?_⟩
    · refine (hread hbefore).trans ?_
      rcases hplace with heq | ⟨-, hzero⟩
      · rw [heq, Nat.sub_self, List.replicate_zero, List.nil_append, List.take_length]
      · have hall : b.content = List.replicate b.content.length 0 :=
          List.eq_replicate_of_mem hzero
        rw [hall, List.length_replicate, List.replicate_append_replicate, List.take_replicate]
        congr 1
        omega
    · simp only [List.length_append, List.length_replicate, hlength, readableBytes]
      omega
    · simp only [writableBytes, List.length_append, List.length_replicate, hlength, readableBytes]
      omega

end Buffer

/-! ## Runs -/

namespace Buffers

/-- One call on the buffers, where they may also be shrunk. -/
inductive ShrinkCall
  | call (c : BufferCall)
  | shrink (i reserve : Nat)
deriving DecidableEq, Repr

def shrinkStep (p : Pool) : ShrinkCall → Option (Traced BufferEvent Pool)
  | .call c => if Legal p c then some (call p c) else none
  | .shrink i reserve =>
      ((p i).shrink reserve).map fun b => pure (Function.update p i b)

def ShrinkStep : Pool → ShrinkCall → List BufferEvent → Pool → Prop := stepOf shrinkStep

/-- Only buffers that `shrink` preserves are shrunk. -/
def ShrinkSafe (p : Pool) : ShrinkCall → Prop
  | .call _ => True
  | .shrink i reserve => (p i).ShrinkSafe reserve

instance (p : Pool) : ∀ c, Decidable (ShrinkSafe p c)
  | .call _ => .isTrue trivial
  | .shrink i reserve => inferInstanceAs (Decidable ((p i).ShrinkSafe reserve))

variable {p q : Pool} {es : List BufferEvent}

theorem valid_of_call {c : BufferCall} (h : ∀ i, (p i).Valid) (hlegal : Legal p c) (i : Nat) :
    ((call p c).val i).Valid :=
  (call_refines ⟨h, rfl⟩ hlegal).2.1 i

/-- Shrinking a safe buffer leaves it valid. -/
theorem valid_of_shrink (h : ∀ i, (p i).Valid) {i reserve : Nat} {b : Buffer}
    (hsafe : (p i).ShrinkSafe reserve) (hshrink : (p i).shrink reserve = some b) (j : Nat) :
    (Function.update p i b j).Valid := by
  by_cases hj : j = i
  · subst hj
    obtain ⟨b', hb', -, horder, hwriter, -⟩ := (Buffer.shrink_preserves_iff (h j) reserve).mpr hsafe
    obtain rfl := Option.some.inj (hshrink.symm.trans hb')
    rw [Function.update_self]
    refine ⟨horder, hwriter, ?_⟩
    rw [Buffer.shrink_eq (h j) hsafe.1] at hshrink
    obtain rfl := Option.some.inj hshrink
    exact (h j).cheapPrepend_le_writer
  · rw [Function.update_of_ne hj]
    exact h j

theorem valid_of_step (h : ∀ i, (p i).Valid) {c : ShrinkCall} (hsafe : ShrinkSafe p c)
    (hstep : ShrinkStep p c es q) : ∀ i, (q i).Valid := by
  cases c with
  | call c =>
      simp only [ShrinkStep, stepOf, shrinkStep] at hstep
      split_ifs at hstep with hlegal
      have hq : (call p c).val = q := congrArg Traced.val (Option.some.inj hstep)
      rw [← hq]
      exact valid_of_call h hlegal
  | shrink i reserve =>
      obtain ⟨b, hb, heq⟩ := Option.map_eq_some_iff.mp hstep
      have hq : Function.update p i b = q := congrArg Traced.val heq
      rw [← hq]
      exact valid_of_shrink h hsafe hb

/-- **When `shrink` preserves the buffer**: for every buffer that calls of the class have
reached, `shrink` among them as long as it preserved the buffer. -/
theorem shrink_preserves_iff_of_run {cs : List ShrinkCall}
    (h : Run (restrict ShrinkSafe ShrinkStep) fresh cs es p) (i reserve : Nat) :
    (p i).ShrinkPreserves reserve ↔ (p i).ShrinkSafe reserve := by
  have hvalid : ∀ i, (p i).Valid := h.invariant (I := fun p => ∀ i, (p i).Valid)
    (fun _ => Buffer.fresh_valid) fun _ _ _ _ hs hstep => valid_of_step hs hstep.1 hstep.2
  exact Buffer.shrink_preserves_iff (hvalid i) reserve

/-- A buffer is filled, drained and shrunk. -/
theorem shrink_preserves_iff_of_run_drained :
    ∃ es p, Run (restrict ShrinkSafe ShrinkStep) fresh
        [.call (.append 0 [1, 2, 3]), .shrink 0 2, .call (.retrieveAll 0)] es p ∧
      (p 0).ShrinkPreserves 16 := by
  obtain ⟨es, p, hrun, hsafe⟩ : ∃ es p, Run (restrict ShrinkSafe ShrinkStep) fresh
        [.call (.append 0 [1, 2, 3]), .shrink 0 2, .call (.retrieveAll 0)] es p ∧
      (p 0).ShrinkSafe 16 := Run.exists_of_exec_guarded _ (by decide +kernel)
  exact ⟨es, p, hrun, (shrink_preserves_iff_of_run hrun 0 16).mpr hsafe⟩

/-- Once a byte has been retrieved, `shrink` loses the next one. -/
theorem not_shrinkPreserves_retrieved :
    ∃ es p, Run (restrict ShrinkSafe ShrinkStep) fresh
        [.call (.append 0 [1, 2, 3]), .call (.retrieve 0 1)] es p ∧
      ((p 0).shrink 8).map Buffer.content = some [3, 0] ∧ (p 0).content = [2, 3] ∧
      ¬(p 0).ShrinkPreserves 8 := by
  obtain ⟨es, p, hrun, hshrunk, hcontent⟩ : ∃ es p, Run (restrict ShrinkSafe ShrinkStep) fresh
        [.call (.append 0 [1, 2, 3]), .call (.retrieve 0 1)] es p ∧
      ((p 0).shrink 8).map Buffer.content = some [3, 0] ∧ (p 0).content = [2, 3] :=
    Run.exists_of_exec_guarded _ (by decide +kernel)
  refine ⟨es, p, hrun, hshrunk, hcontent, ?_⟩
  rintro ⟨b', hb', hsame, -⟩
  rw [hb', Option.map_some, hsame, hcontent] at hshrunk
  simp at hshrunk

end Buffers
end Chaonet
