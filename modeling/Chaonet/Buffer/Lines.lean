import Chaonet.Buffer.Model
import Chaonet.Foundation.Loop
import Chaonet.Foundation.Run

/-!
# Taking lines out of a buffer

The way `findCRLF` is used: bytes are appended as they arrive, and after each append lines are
taken, from `peek()` to the result of `findCRLF()`, until there is none.  On the readable bytes
the loop is the extractor of what ends with a CRLF (`takeLines_drains`).  So the lines are the
pieces of the stream, however it was cut into appends (`line_extraction`).
-/

namespace Chaonet

open Foundation

namespace Buffer

theorem kCRLF_ne_nil : kCRLF ≠ [] := List.cons_ne_nil _ _

/-- The lines of a stream of bytes: what ends with a CRLF. -/
def lines : Extractor UInt8 Bytes := delimited kCRLF kCRLF_ne_nil

theorem search_kCRLF {l : Bytes} (h : ¬kCRLF <:+: l) (rest : Bytes) :
    search kCRLF (l ++ kCRLF ++ rest) = l.length := by
  induction l with
  | nil =>
      have hhead : kCRLF <+: kCRLF ++ rest := List.prefix_append _ _
      rw [List.nil_append]
      exact if_pos hhead
  | cons a l ih =>
      rw [List.infix_cons_iff, not_or] at h
      -- A CRLF at the front would lie in the line, or begin with its last byte.
      have hhead : ¬kCRLF <+: a :: (l ++ kCRLF ++ rest) := by
        intro hfront
        cases l with
        | nil => simp [kCRLF] at hfront
        | cons b l =>
            rw [List.cons_append, List.cons_append] at hfront
            rw [kCRLF, List.cons_prefix_cons, List.cons_prefix_cons] at hfront
            obtain ⟨rfl, rfl, -⟩ := hfront
            exact h.1 ⟨l, rfl⟩
      rw [List.cons_append, List.cons_append, search, if_neg hhead, ih h.2, List.length_cons]

/-- A line without a CRLF is found again when it is ended by one. -/
theorem lines_next {l : Bytes} (h : ¬kCRLF <:+: l) (rest : Bytes) :
    lines.next (l ++ kCRLF ++ rest) = some (l, rest) := by
  have hsearch := search_kCRLF h rest
  refine delimited_next_eq_some.mpr ⟨?_, ?_, ?_⟩
  · rw [hsearch, List.append_assoc, List.length_append, List.length_append]
    exact Nat.lt_add_of_pos_right (Nat.add_pos_left (by decide) _)
  · rw [hsearch, List.append_assoc, List.take_left]
  · rw [hsearch, ← List.length_append, List.drop_left]

theorem takes_lines {ls : List Bytes} (h : ∀ l ∈ ls, ¬kCRLF <:+: l) (rest : Bytes) :
    lines.Takes (ls.flatMap (· ++ kCRLF) ++ rest) ls rest := by
  induction ls with
  | nil => exact .nil rest
  | cons l ls ih =>
      rw [List.flatMap_cons, List.append_assoc]
      exact .cons (lines_next (h l List.mem_cons_self) _)
        (ih fun l' hl' => h l' (List.mem_cons_of_mem _ hl'))

variable {b : Buffer}

theorem findCRLF_eq_none (h : b.Valid) (hnone : lines.next b.content = none) :
    b.findCRLF = none := by
  have horder := h.reader_le_writer
  have hend : b.peek + search kCRLF b.content = b.beginWrite := by
    rw [delimited_next_eq_none.mp hnone, length_content h]
    simp only [readableBytes, peek, beginWrite]
    omega
  simp only [findCRLF, if_pos hend]

/-- `findCRLF` returns the end of the first line; `retrieveUntil` behind the CRLF keeps what
follows the line. -/
theorem findCRLF_eq_some {l rest : Bytes} (h : b.Valid)
    (hsome : lines.next b.content = some (l, rest)) :
    ∃ crlf, b.findCRLF = some crlf ∧ segment b.buffer b.peek crlf = l ∧
      Keeps (b.retrieveUntil (crlf + 2)) rest := by
  obtain ⟨hlt, rfl, rfl⟩ := delimited_next_eq_some.mp hsome
  have horder := h.reader_le_writer
  have htwo : kCRLF.length = 2 := rfl
  have hfits : search kCRLF b.content + 2 ≤ b.readableBytes := by
    have hoccurs := (prefix_drop_search hlt).length_le
    rw [List.length_drop, length_content h] at hoccurs
    rw [length_content h] at hlt
    omega
  have hend : b.peek + search kCRLF b.content + 2 ≤ b.beginWrite := by
    simp only [readableBytes, peek, beginWrite] at hfits ⊢
    omega
  have hbefore : b.peek + search kCRLF b.content ≠ b.beginWrite := by
    omega
  refine ⟨b.peek + search kCRLF b.content, ?_, ?_, ?_⟩
  · simp only [findCRLF, if_neg hbefore]
  · exact segment_peek ((Nat.le_add_right _ 2).trans hfits)
  · obtain ⟨hvalid, hcontent, htrace⟩ := retrieveUntil_keeps h (by omega) hend
    refine ⟨hvalid, hcontent.trans ?_, htrace⟩
    rw [htwo, Nat.add_assoc, Nat.add_sub_cancel_left]

/-- What `findCRLF` finds is the end of the first line. -/
theorem next_of_findCRLF {crlf : Nat} (h : b.Valid) (hfind : b.findCRLF = some crlf) :
    ∃ rest, lines.next b.content = some (segment b.buffer b.peek crlf, rest) ∧
      Keeps (b.retrieveUntil (crlf + 2)) rest := by
  cases hnext : lines.next b.content with
  | none =>
      rw [findCRLF_eq_none h hnext] at hfind
      exact nomatch hfind
  | some r =>
      obtain ⟨crlf', hfind', hline, hkeeps⟩ := findCRLF_eq_some h hnext
      obtain rfl := Option.some.inj (hfind.symm.trans hfind')
      exact ⟨r.2, by rw [hline], hkeeps⟩

end Buffer

namespace LineReader

open Buffer (lines)

/-- What shows: the lines that are taken, and assertions of the buffer that fail. -/
inductive LineEvent
  | line (bytes : Bytes)
  | failed (assertion : Buffer.Assertion)
deriving DecidableEq, Repr

/-- `while (crlf = buf.findCRLF())`: take the bytes before the CRLF, and retrieve them with it. -/
def takeLine (b : Buffer) : Traced LineEvent (Buffer ⊕ Buffer) :=
  match b.findCRLF with
  | none => pure (.inr b)
  | some crlf => do
      Traced.emit (.line (segment b.buffer b.peek crlf))
      let b ← (b.retrieveUntil (crlf + 2)).lift .failed
      pure (.inl b)

/-- Append what has arrived, and take the lines. -/
def Step (b : Buffer) (chunk : Bytes) (es : List LineEvent) (b' : Buffer) : Prop :=
  ∃ taken, Loop takeLine (b.append chunk).val taken b' ∧
    es = (b.append chunk).trace.map .failed ++ taken

variable {b : Buffer}

theorem takeLine_none (h : b.Valid) (hnone : lines.next b.content = none) :
    takeLine b = ⟨.inr b, []⟩ := by
  simp [takeLine, Buffer.findCRLF_eq_none h hnone, pure]

/-- The line before the leftmost CRLF is taken, and what follows it stays. -/
theorem takeLine_some {l rest : Bytes} (h : b.Valid)
    (hsome : lines.next b.content = some (l, rest)) :
    ∃ b', takeLine b = ⟨.inl b', [.line l]⟩ ∧ b'.Valid ∧ b'.content = rest := by
  obtain ⟨crlf, hfind, rfl, hvalid, hcontent, htrace⟩ := Buffer.findCRLF_eq_some h hsome
  refine ⟨_, ?_, hvalid, hcontent⟩
  simp [takeLine, hfind, bind, pure, Traced.emit, Traced.lift, htrace]

/-- The loop drains the extractor. -/
theorem takeLines_drains {s : Bytes} (h : b.Valid) (hs : b.content = s) :
    ∃ b', Loop takeLine b ((lines.drain s).1.map .line) b' ∧ b'.Valid ∧
      b'.content = (lines.drain s).2 := by
  induction s using Extractor.drain.induct lines generalizing b with
  | case1 s hnone =>
      rw [lines.drain_of_none hnone]
      exact ⟨b, .exit (takeLine_none h (hs ▸ hnone)), h, hs⟩
  | case2 s l rest hsome ih =>
      obtain ⟨b', htake, hvalid, hrest⟩ := takeLine_some h (hs ▸ hsome)
      obtain ⟨b'', hloop, hvalid', hcontent⟩ := ih hvalid hrest
      rw [lines.drain_of_some hsome]
      exact ⟨b'', .again htake hloop, hvalid', hcontent⟩

/-- The appends feed the extractor. -/
theorem run_feeds {s : Bytes} (h : b.Valid) (hs : b.content = s) (chunks : List Bytes) :
    ∃ b', Run Step b chunks ((lines.feed s chunks).1.map .line) b' ∧
      b'.content = (lines.feed s chunks).2 := by
  induction chunks generalizing b s with
  | nil => exact ⟨b, .nil b, hs⟩
  | cons chunk chunks ih =>
      obtain ⟨hvalid, hcontent, htrace⟩ := Buffer.append_keeps h chunk
      obtain ⟨b', hloop, hvalid', hcontent'⟩ := takeLines_drains hvalid (hs ▸ hcontent)
      obtain ⟨b'', hrun, hlast⟩ := ih hvalid' hcontent'
      have hstep : Step b chunk ((lines.drain (s ++ chunk)).1.map .line) b' :=
        ⟨_, hloop, by rw [htrace]; rfl⟩
      refine ⟨b'', ?_, hlast⟩
      rw [Extractor.feed, List.map_append]
      exact .cons hstep hrun

theorem step_unique {b b₁ b₂ : Buffer} {chunk : Bytes} {es₁ es₂ : List LineEvent}
    (h₁ : Step b chunk es₁ b₁) (h₂ : Step b chunk es₂ b₂) : es₁ = es₂ ∧ b₁ = b₂ := by
  obtain ⟨taken₁, hloop₁, rfl⟩ := h₁
  obtain ⟨taken₂, hloop₂, rfl⟩ := h₂
  obtain ⟨rfl, rfl⟩ := hloop₁.unique hloop₂
  exact ⟨rfl, rfl⟩

theorem run_unique {b b₁ b₂ : Buffer} {chunks : List Bytes} {es₁ es₂ : List LineEvent}
    (h₁ : Run Step b chunks es₁ b₁) (h₂ : Run Step b chunks es₂ b₂) : es₁ = es₂ ∧ b₁ = b₂ := by
  refine Run.unique ?_ h₁ h₂
  intro _ _ _ _ _ _ hstep hstep'
  exact step_unique hstep hstep'

/-- **Lines and segmentation.**  However a stream is cut into appends to a fresh buffer, the
loops that take the lines end, what shows are the pieces of the stream ended by successive
leftmost CRLF pairs and no failed assertion, and the unterminated rest stays in the buffer. -/
theorem line_extraction (chunks : List Bytes) :
    (∃ es b, Run Step Buffer.fresh chunks es b) ∧
      ∀ es b, Run Step Buffer.fresh chunks es b →
        ∃ ls, es = ls.map .line ∧ Pieces kCRLF chunks.flatten ls b.content := by
  obtain ⟨b, hrun, hcontent⟩ := run_feeds Buffer.fresh_valid Buffer.fresh_content chunks
  refine ⟨⟨_, b, hrun⟩, fun es b' hrun' => ?_⟩
  obtain ⟨rfl, rfl⟩ := run_unique hrun hrun'
  have hnone : lines.next [] = none := delimited_next_eq_none.mpr rfl
  have hfeed := lines.feed_eq_drain hnone chunks
  rw [List.nil_append] at hfeed
  refine ⟨_, rfl, ?_⟩
  rw [hcontent, hfeed]
  exact pieces_drain _

end LineReader
end Chaonet
