import Chaonet.Buffer.Lines
import Chaonet.Http.HttpRequest

/-!
# The HTTP parser

`HttpContext` embeds the class of the same name.  `parseStep` is the body of the loop of
`parseRequest`; the loop hangs where `parseStep` leads from a state to itself, so that its result
is a `Loop` and not a function.

Between two iterations the parser takes one line from the buffer, if there is one.  What an
iteration does is stated by one lemma for each state and each such line (`parseStep_header`, for
example), from which `parseRequest_returns_iff` says on which inputs the loop is left.
-/

namespace Chaonet

open Foundation

open Buffer (lines)

/-- `HttpContext::HttpRequestParseState`. -/
inductive HttpRequestParseState
  | kExpectRequestLine
  | kExpectHeaders
  | kExpectBody
  | kGotAll
deriving DecidableEq, Repr

structure HttpContext where
  state : HttpRequestParseState
  request : HttpRequest

namespace HttpContext

/-- The assertions that may fail while a request is parsed. -/
inductive Event
  | buffer (a : Buffer.Assertion)
  | request (a : HttpRequest.Assertion)
deriving DecidableEq, Repr

/-- `HttpContext()`. -/
def fresh : HttpContext := ⟨.kExpectRequestLine, .fresh⟩

def gotAll (c : HttpContext) : Prop := c.state = .kGotAll

instance (c : HttpContext) : Decidable c.gotAll := inferInstanceAs (Decidable (_ = _))

/-- `reset()`; the request is swapped with a new one. -/
def reset (_ : HttpContext) : HttpContext := fresh

/-- What is set of the request for the target, the bytes between the two spaces. -/
def setTarget (r : HttpRequest) (target : Bytes) : HttpRequest :=
  let question := target.idxOf (char '?')
  if question ≠ target.length then
    (r.setPath (target.take question)).setQuery (target.drop question)
  else r.setPath target

/-- What is set of the request for the bytes behind the second space. -/
def setProtocol (r : HttpRequest) (protocol : Bytes) : Bool × HttpRequest :=
  if protocol.length = 8 ∧ protocol.take 7 = ascii "HTTP/1." then
    if protocol.drop 7 = ascii "1" then (true, r.setVersion .kHttp11)
    else if protocol.drop 7 = ascii "0" then (true, r.setVersion .kHttp10)
    else (false, r)
  else (false, r)

/-- `processRequestLine(begin, end)`: whether the line is a request line.  What was recognised
before the line turned out not to be one is set all the same. -/
def processRequestLine (r : HttpRequest) (line : Bytes) :
    Traced HttpRequest.Assertion (Bool × HttpRequest) :=
  let space := line.idxOf (char ' ')
  if space ≠ line.length then do
    -- The method is kept even where the line is refused later.
    let (known, r) ← r.setMethod (line.take space)
    let start := line.drop (space + 1)
    let space := start.idxOf (char ' ')
    if known ∧ space ≠ start.length then
      pure (setProtocol (setTarget r (start.take space)) (start.drop (space + 1)))
    else pure (false, r)
  else pure (false, r)

/-- The local variables of `parseRequest` with what it works on. -/
structure ParseState where
  context : HttpContext
  buf : Buffer
  ok : Bool
  hasMore : Bool

/-- `while (hasMore)` of `parseRequest`. -/
def parseStep (receiveTime : Int) (s : ParseState) : Traced Event (ParseState ⊕ ParseState) :=
  if s.hasMore = false then pure (.inr s)
  else
    match s.context.state with
    | .kExpectRequestLine =>
        match s.buf.findCRLF with
        | some crlf => do
            let (ok, request) ←
              (processRequestLine s.context.request (segment s.buf.buffer s.buf.peek crlf)).lift
                .request
            if ok then do
              let buf ← (s.buf.retrieveUntil (crlf + 2)).lift .buffer
              let context := ⟨.kExpectHeaders, request.setReceiveTime receiveTime⟩
              pure (.inl { s with context, buf, ok })
            else pure (.inl { s with context.request := request, ok, hasMore := false })
        | none => pure (.inl { s with hasMore := false })
    | .kExpectHeaders =>
        match s.buf.findCRLF with
        | some crlf => do
            let line := segment s.buf.buffer s.buf.peek crlf
            let colon := line.idxOf (char ':')
            let s : ParseState :=
              if colon ≠ line.length then
                { s with context.request := s.context.request.addHeader line colon }
              else { s with context.state := .kGotAll, hasMore := false }
            let buf ← (s.buf.retrieveUntil (crlf + 2)).lift .buffer
            pure (.inl { s with buf })
        -- `hasMore` stays set, so the next iteration looks at the same bytes again.
        | none => pure (.inl s)
    | .kExpectBody => pure (.inl s)
    | .kGotAll => pure (.inl s)

/-- `parseRequest(buf, receiveTime)` as it is entered. -/
def parseStart (c : HttpContext) (buf : Buffer) : ParseState :=
  { context := c
    buf
    ok := true
    hasMore := true }

/-- `parseRequest` returns: its loop is left after finitely many iterations. -/
def Returns (c : HttpContext) (buf : Buffer) (receiveTime : Int) : Prop :=
  ∃ es s, Loop (parseStep receiveTime) (parseStart c buf) es s

/-! ## What one iteration does -/

/-- The line is a request line. -/
def IsRequestLine (line : Bytes) : Prop := (processRequestLine .fresh line).val.1 = true

instance (line : Bytes) : Decidable (IsRequestLine line) := inferInstanceAs (Decidable (_ = _))

theorem setProtocol_fst (r r' : HttpRequest) (protocol : Bytes) :
    (setProtocol r protocol).1 = (setProtocol r' protocol).1 := by
  simp only [setProtocol]
  split_ifs <;> rfl

/-- What `processRequestLine` returns does not depend on the request before the call. -/
theorem processRequestLine_fst (r : HttpRequest) (line : Bytes) :
    (processRequestLine r line).val.1 = true ↔ IsRequestLine line := by
  have hsame : (processRequestLine r line).val.1 = (processRequestLine .fresh line).val.1 := by
    simp only [processRequestLine, HttpRequest.setMethod]
    split_ifs
    · simp only [Traced.bind_val, Traced.pure_val]
      split_ifs
      · exact setProtocol_fst _ _ _
      · rfl
    · rfl
  rw [IsRequestLine, hsame]

variable (receiveTime : Int) (request : HttpRequest) (ok : Bool) {buf : Buffer}
  {l rest : Bytes}

theorem parseStep_done {s : ParseState} (h : s.hasMore = false) :
    parseStep receiveTime s = ⟨.inr s, []⟩ :=
  if_pos h

/-- No line is complete: the loop is left. -/
theorem parseStep_noRequestLine (h : buf.Valid) (hnone : lines.next buf.content = none) :
    parseStep receiveTime ⟨⟨.kExpectRequestLine, request⟩, buf, ok, true⟩ =
      ⟨.inl ⟨⟨.kExpectRequestLine, request⟩, buf, ok, false⟩, []⟩ := by
  simp [parseStep, Buffer.findCRLF_eq_none h hnone, pure]

theorem parseStep_requestLine {request request' : HttpRequest} {es : List HttpRequest.Assertion}
    (h : buf.Valid) (hsome : lines.next buf.content = some (l, rest))
    (hline : processRequestLine request l = ⟨(true, request'), es⟩) :
    ∃ buf', parseStep receiveTime ⟨⟨.kExpectRequestLine, request⟩, buf, ok, true⟩ =
        ⟨.inl ⟨⟨.kExpectHeaders, request'.setReceiveTime receiveTime⟩, buf', true, true⟩,
          es.map .request⟩ ∧
      buf'.Valid ∧ buf'.content = rest := by
  obtain ⟨crlf, hfind, rfl, hvalid, hcontent, htrace⟩ := Buffer.findCRLF_eq_some h hsome
  refine ⟨_, ?_, hvalid, hcontent⟩
  simp [parseStep, hfind, hline, bind, pure, Traced.lift, htrace]

/-- The line is refused, and stays in the buffer. -/
theorem parseStep_badRequestLine {request request' : HttpRequest} {es : List HttpRequest.Assertion}
    (h : buf.Valid) (hsome : lines.next buf.content = some (l, rest))
    (hline : processRequestLine request l = ⟨(false, request'), es⟩) :
    parseStep receiveTime ⟨⟨.kExpectRequestLine, request⟩, buf, ok, true⟩ =
      ⟨.inl ⟨⟨.kExpectRequestLine, request'⟩, buf, false, false⟩, es.map .request⟩ := by
  obtain ⟨crlf, hfind, rfl, -⟩ := Buffer.findCRLF_eq_some h hsome
  simp [parseStep, hfind, hline, bind, pure, Traced.lift]

/-- Without a complete line an iteration changes nothing. -/
theorem parseStep_noHeader (h : buf.Valid) (hnone : lines.next buf.content = none) :
    parseStep receiveTime ⟨⟨.kExpectHeaders, request⟩, buf, ok, true⟩ =
      ⟨.inl ⟨⟨.kExpectHeaders, request⟩, buf, ok, true⟩, []⟩ := by
  simp [parseStep, Buffer.findCRLF_eq_none h hnone, pure]

theorem parseStep_header (h : buf.Valid) (hsome : lines.next buf.content = some (l, rest))
    (hcolon : char ':' ∈ l) :
    ∃ buf', parseStep receiveTime ⟨⟨.kExpectHeaders, request⟩, buf, ok, true⟩ =
        ⟨.inl ⟨⟨.kExpectHeaders, request.addHeader l (l.idxOf (char ':'))⟩, buf', ok, true⟩, []⟩ ∧
      buf'.Valid ∧ buf'.content = rest := by
  obtain ⟨crlf, hfind, rfl, hvalid, hcontent, htrace⟩ := Buffer.findCRLF_eq_some h hsome
  have hplace := (List.idxOf_lt_length_iff.mpr hcolon).ne
  refine ⟨_, ?_, hvalid, hcontent⟩
  simp [parseStep, hfind, hplace, bind, pure, Traced.lift, htrace]

/-- A line without a colon ends the headers. -/
theorem parseStep_lastLine (h : buf.Valid) (hsome : lines.next buf.content = some (l, rest))
    (hcolon : char ':' ∉ l) :
    ∃ buf', parseStep receiveTime ⟨⟨.kExpectHeaders, request⟩, buf, ok, true⟩ =
        ⟨.inl ⟨⟨.kGotAll, request⟩, buf', ok, false⟩, []⟩ ∧
      buf'.Valid ∧ buf'.content = rest := by
  obtain ⟨crlf, hfind, rfl, hvalid, hcontent, htrace⟩ := Buffer.findCRLF_eq_some h hsome
  have hplace := List.idxOf_eq_length hcolon
  refine ⟨_, ?_, hvalid, hcontent⟩
  simp [parseStep, hfind, hplace, bind, pure, Traced.lift, htrace]

/-! ## When the loop is left -/

/-- Among the lines there is one without a colon, which ends the headers. -/
def HeadersEnd (ls : List Bytes) : Prop := ∃ l ∈ ls, char ':' ∉ l

/-- No line is complete, or the first one is not a request line, or the lines behind it hold the
end of the headers. -/
def HeadComplete : List Bytes → Prop
  | [] => True
  | l :: ls => IsRequestLine l → HeadersEnd ls

theorem headers_return_iff {content : Bytes} (h : buf.Valid) (hcontent : buf.content = content) :
    (∃ es r, Loop (parseStep receiveTime) ⟨⟨.kExpectHeaders, request⟩, buf, ok, true⟩ es r) ↔
      HeadersEnd (lines.drain content).1 := by
  induction content using Extractor.drain.induct lines generalizing buf request with
  | case1 content hnone =>
      rw [lines.drain_of_none hnone]
      constructor
      · refine fun hloop => absurd hloop (Loop.not_exists
          (fun s => s = ⟨⟨.kExpectHeaders, request⟩, buf, ok, true⟩) ?_ rfl)
        rintro s rfl
        exact ⟨_, _, rfl, parseStep_noHeader receiveTime request ok h (hcontent ▸ hnone)⟩
      · rintro ⟨l, hl, -⟩
        exact absurd hl List.not_mem_nil
  | case2 content l rest hsome ih =>
      rw [lines.drain_of_some hsome]
      by_cases hcolon : char ':' ∈ l
      · obtain ⟨buf', hstep, hvalid, hrest⟩ :=
          parseStep_header receiveTime request ok h (hcontent ▸ hsome) hcolon
        rw [Loop.again_iff hstep, ih _ hvalid hrest]
        simp [HeadersEnd, hcolon]
      · obtain ⟨buf', hstep, -⟩ :=
          parseStep_lastLine receiveTime request ok h (hcontent ▸ hsome) hcolon
        have hdone : ∃ es r,
            Loop (parseStep receiveTime) ⟨⟨.kGotAll, request⟩, buf', ok, false⟩ es r :=
          ⟨_, _, .exit (parseStep_done _ rfl)⟩
        rw [Loop.again_iff hstep]
        exact iff_of_true hdone ⟨l, List.mem_cons_self, hcolon⟩

/-- **When `parseRequest` returns**, for a context that expects a request line. -/
theorem parseRequest_returns_iff (h : buf.Valid) :
    Returns ⟨.kExpectRequestLine, request⟩ buf receiveTime ↔
      HeadComplete (lines.drain buf.content).1 := by
  rw [Returns, parseStart]
  cases hnext : lines.next buf.content with
  | none =>
      rw [Loop.again_iff (parseStep_noRequestLine _ _ _ h hnext), lines.drain_of_none hnext]
      exact iff_of_true ⟨_, _, .exit (parseStep_done _ rfl)⟩ trivial
  | some out =>
      obtain ⟨l, rest⟩ := out
      rw [lines.drain_of_some hnext]
      cases hprocess : processRequestLine request l with
      | mk out es =>
          obtain ⟨known, request'⟩ := out
          have hknown : known = true ↔ IsRequestLine l := by
            rw [← processRequestLine_fst request l, hprocess]
          cases known with
          | true =>
              obtain ⟨buf', hstep, hvalid, hrest⟩ :=
                parseStep_requestLine receiveTime true h hnext hprocess
              rw [Loop.again_iff hstep, headers_return_iff _ _ _ hvalid hrest]
              simp [HeadComplete, hknown.mp rfl]
          | false =>
              rw [Loop.again_iff (parseStep_badRequestLine _ _ h hnext hprocess)]
              refine iff_of_true ⟨_, _, .exit (parseStep_done _ rfl)⟩ fun hline => ?_
              exact absurd (hknown.mpr hline) Bool.false_ne_true

end HttpContext
end Chaonet
