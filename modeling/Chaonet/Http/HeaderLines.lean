import Chaonet.Http.HttpContext

/-!
# The lines of a header block

In `kExpectHeaders` the parser records one line after the other until it takes a line without a
colon (`headers_loop`).  It does not look whether that line is blank, so that the headers end at
the blank line exactly if every line before it has a colon (`headers_endAtBlankLine_iff`).
-/

namespace Chaonet

open Foundation

open Buffer (lines)

namespace HttpContext

/-- What `parseRequest` does with a line that has a colon. -/
def record (r : HttpRequest) (line : Bytes) : HttpRequest :=
  r.addHeader line (line.idxOf (char ':'))

variable {request : HttpRequest} {buf : Buffer} {ok : Bool} {receiveTime : Int}
  {es : List Event} {s : ParseState}

/-- Lines with a colon and one without: the loop takes them, and is left. -/
theorem headers_loop {ls : List Bytes} {last rest : Bytes} (h : buf.Valid)
    (htakes : lines.Takes buf.content (ls ++ [last]) rest) (hcolon : ∀ l ∈ ls, char ':' ∈ l)
    (hlast : char ':' ∉ last) :
    ∃ buf', Loop (parseStep receiveTime) ⟨⟨.kExpectHeaders, request⟩, buf, ok, true⟩ []
        ⟨⟨.kGotAll, ls.foldl record request⟩, buf', ok, false⟩ ∧
      buf'.Valid ∧ buf'.content = rest := by
  -- Each iteration takes one line, so that the induction is on the lines with a colon.
  induction ls generalizing request buf with
  | nil =>
      cases htakes with
      | cons hnext htakes =>
          cases htakes
          obtain ⟨buf', hstep, hvalid, hrest⟩ :=
            parseStep_lastLine receiveTime request ok h hnext hlast
          exact ⟨buf', .again hstep (.exit (parseStep_done _ rfl)), hvalid, hrest⟩
  | cons l ls ih =>
      cases htakes with
      | cons hnext htakes =>
          obtain ⟨buf', hstep, hvalid, hrest⟩ :=
            parseStep_header receiveTime request ok h hnext (hcolon l List.mem_cons_self)
          rw [← hrest] at htakes
          obtain ⟨buf'', hloop, hvalid', hrest'⟩ :=
            ih hvalid htakes fun l' hl' => hcolon l' (List.mem_cons_of_mem _ hl')
          exact ⟨buf'', .again hstep hloop, hvalid', hrest'⟩

/-- What the loop has taken when it is left: lines with a colon, which are recorded, and one
without. -/
theorem headers_taken (h : buf.Valid)
    (hloop : Loop (parseStep receiveTime) ⟨⟨.kExpectHeaders, request⟩, buf, ok, true⟩ es s) :
    s.context.gotAll ∧ ∃ ls last, lines.Takes buf.content (ls ++ [last]) s.buf.content ∧
      (∀ l ∈ ls, char ':' ∈ l) ∧ char ':' ∉ last ∧ s.context.request = ls.foldl record request := by
  have hend := (headers_return_iff receiveTime request ok h rfl).mp ⟨es, s, hloop⟩
  obtain ⟨ls, last, rest, htakes, hcolon, hlast⟩ := lines.exists_takes_first hend
  simp only [not_not] at hcolon
  obtain ⟨buf', hloop', -, rfl⟩ := headers_loop h htakes hcolon hlast
  obtain ⟨-, rfl⟩ := hloop.unique hloop'
  exact ⟨rfl, ls, last, htakes, hcolon, hlast, rfl⟩

/-- The last line that the call of `parseRequest` took is blank, and those before it have a colon
and are recorded. -/
def EndsAtBlankLine (c : HttpContext) (buf : Buffer) (s : ParseState) : Prop :=
  ∃ ls last, lines.Takes buf.content (ls ++ [last]) s.buf.content ∧ last = [] ∧
    (∀ l ∈ ls, char ':' ∈ l) ∧ s.context.request = ls.foldl record c.request

/-- **Where the headers end.**  A call of `parseRequest` in `kExpectHeaders` that returns has got
all, and it has ended at the blank line exactly if the first line without a colon is blank. -/
theorem headers_endAtBlankLine_iff {c : HttpContext} (h : buf.Valid)
    (hstate : c.state = .kExpectHeaders)
    (hloop : Loop (parseStep receiveTime) (parseStart c buf) es s) :
    s.context.gotAll ∧ (EndsAtBlankLine c buf s ↔
      (lines.drain buf.content).1.find? (fun l => char ':' ∉ l) = some []) := by
  obtain ⟨state, request⟩ := c
  obtain rfl : state = .kExpectHeaders := hstate
  -- The first lines of the buffer are those that were taken, in order.
  have hfind {ls : List Bytes} {last rest : Bytes}
      (htakes : lines.Takes buf.content (ls ++ [last]) rest) (hcolon : ∀ l ∈ ls, char ':' ∈ l)
      (hlast : char ':' ∉ last) :
      (lines.drain buf.content).1.find? (fun l => char ':' ∉ l) = some last := by
    have hnone : ls.find? (fun l => char ':' ∉ l) = none := by
      rw [List.find?_eq_none]
      simpa using hcolon
    rw [htakes.drain_eq, List.append_assoc, List.find?_append, hnone]
    simp [hlast]
  obtain ⟨hgot, ls, last, htakes, hcolon, hlast, hrequest⟩ := headers_taken h hloop
  refine ⟨hgot, ?_, fun hblank => ?_⟩
  · rintro ⟨ls', last', htakes', rfl, hcolon', -⟩
    exact hfind htakes' hcolon' List.not_mem_nil
  · rw [hfind htakes hcolon hlast] at hblank
    exact ⟨ls, last, htakes, Option.some.inj hblank, hcolon, hrequest⟩

/-- A header is recorded, and the blank line behind it ends the headers. -/
theorem headers_endAtBlankLine_host :
    ∃ (buf : Buffer) (es : List Event) (s : ParseState),
      buf.content = ascii "Host: chaonet\r\n\r\n" ∧
        Loop (parseStep 0) (parseStart ⟨.kExpectHeaders, .fresh⟩ buf) es s ∧ s.context.gotAll ∧
          s.context.request.headers (ascii "Host") = some (ascii "chaonet") ∧
            EndsAtBlankLine ⟨.kExpectHeaders, .fresh⟩ buf s := by
  obtain ⟨buf, hvalid, hcontent⟩ := Buffer.exists_content (ascii "Host: chaonet\r\n\r\n")
  have hhost : lines.next (ascii "Host: chaonet\r\n\r\n") =
      some (ascii "Host: chaonet", ascii "\r\n") := by decide
  have hblank : lines.next (ascii "\r\n") = some ([], []) := by decide
  have htakes : lines.Takes buf.content ([ascii "Host: chaonet"] ++ [[]]) [] :=
    hcontent ▸ .cons hhost (.cons hblank (.nil []))
  obtain ⟨buf', hloop, -⟩ := headers_loop hvalid htakes (by decide) List.not_mem_nil
  have hrecorded : ([ascii "Host: chaonet"].foldl record .fresh).headers (ascii "Host") =
      some (ascii "chaonet") := by decide
  refine ⟨buf, _, _, hcontent, hloop, rfl, hrecorded,
    (headers_endAtBlankLine_iff hvalid rfl hloop).2.mpr ?_⟩
  rw [hcontent, lines.drain_of_some hhost, lines.drain_of_some hblank]
  decide

/-- So does a line that is not blank. -/
theorem not_endsAtBlankLine_garbage :
    ∃ (buf : Buffer) (es : List Event) (s : ParseState),
      buf.content = ascii "garbage\r\n" ∧
        Loop (parseStep 0) (parseStart ⟨.kExpectHeaders, .fresh⟩ buf) es s ∧ s.context.gotAll ∧
          ¬EndsAtBlankLine ⟨.kExpectHeaders, .fresh⟩ buf s := by
  have hbytes : ascii "garbage\r\n" = ascii "garbage" ++ kCRLF := by decide
  have hnext : lines.next (ascii "garbage" ++ kCRLF) = some (ascii "garbage", []) := by decide
  have hnone : lines.next [] = none := by decide
  obtain ⟨buf, hvalid, hcontent⟩ := Buffer.exists_content (ascii "garbage" ++ kCRLF)
  have htaken : lines.Takes buf.content ([] ++ [ascii "garbage"]) [] :=
    hcontent ▸ .cons hnext (.nil [])
  obtain ⟨buf', hloop, -⟩ := headers_loop hvalid htaken
    (fun _ hl => absurd hl List.not_mem_nil) (by decide)
  refine ⟨buf, _, _, hcontent.trans hbytes.symm, hloop, rfl, ?_⟩
  rintro ⟨ls, last, htakes, rfl, -, -⟩
  have hdrain : [ascii "garbage"] = ls ++ [[]] ++ (lines.drain buf'.content).1 := by
    have htaken := congrArg Prod.fst htakes.drain_eq
    rwa [hcontent, lines.drain_of_some hnext, lines.drain_of_none hnone] at htaken
  have hmem : ([] : Bytes) ∈ [ascii "garbage"] := by
    rw [hdrain]
    simp
  exact absurd hmem (by decide)

end HttpContext
end Chaonet
