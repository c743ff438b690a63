import Chaonet.Http.HeaderLines
import Chaonet.Http.HttpServer
import Chaonet.Http.RequestLine

/-!
# Requests one behind the other

`Request` is a request without a body, as the lines it is sent in.  From a fresh context
`parseRequest` takes exactly the first request that is in the buffer (`parse_bytes`).  `onMessage`
calls it once, so that a request behind the first one is not looked at in that call
(`onMessage_answers_iff`).
-/

namespace Chaonet

open Foundation

open Buffer (lines)

/-- A request line and header lines. -/
structure Request where
  line : Bytes
  headers : List Bytes
  line_accepted : HttpContext.IsRequestLine line
  line_unbroken : ¬kCRLF <:+: line
  headers_colon : ∀ l ∈ headers, char ':' ∈ l
  headers_unbroken : ∀ l ∈ headers, ¬kCRLF <:+: l

namespace Request

open HttpContext

variable (q : Request)

/-- The request as it is sent, with the blank line. -/
def bytes : Bytes := q.line ++ kCRLF ++ q.headers.flatMap (· ++ kCRLF) ++ kCRLF

/-- What the request line says. -/
def head : HttpRequest := (processRequestLine .fresh q.line).val.2

/-- The request that the parser makes of it. -/
def parsed (receiveTime : Int) : HttpRequest :=
  q.headers.foldl record (q.head.setReceiveTime receiveTime)

theorem bytes_ne_nil : q.bytes ≠ [] :=
  List.append_ne_nil_of_right_ne_nil _ Buffer.kCRLF_ne_nil

theorem processRequestLine_eq : processRequestLine .fresh q.line = ⟨(true, q.head), []⟩ := by
  obtain ⟨l, hl⟩ := RequestLine.exists_render q.line_accepted
  rw [head, hl, RequestLine.processRequestLine_render]

theorem next_line (rest : Bytes) :
    lines.next (q.bytes ++ rest) =
      some (q.line, q.headers.flatMap (· ++ kCRLF) ++ kCRLF ++ rest) := by
  rw [bytes, List.append_assoc (q.line ++ kCRLF), List.append_assoc (q.line ++ kCRLF)]
  exact Buffer.lines_next q.line_unbroken _

theorem takes_headers (rest : Bytes) :
    lines.Takes (q.headers.flatMap (· ++ kCRLF) ++ kCRLF ++ rest) (q.headers ++ [[]]) rest := by
  have hunbroken : ∀ l ∈ q.headers ++ [[]], ¬kCRLF <:+: l := by
    intro l hl
    rcases List.mem_append.mp hl with hl | hl
    · exact q.headers_unbroken l hl
    · rw [List.mem_singleton.mp hl]
      decide
  have htakes := Buffer.takes_lines hunbroken rest
  rwa [List.flatMap_append, List.flatMap_singleton, List.nil_append] at htakes

variable {q}

/-- The first request in the buffer is taken, and nothing of what follows it. -/
theorem parse_bytes {buf : Buffer} {rest : Bytes} (h : buf.Valid)
    (hcontent : buf.content = q.bytes ++ rest) (receiveTime : Int) :
    ∃ buf', Loop (parseStep receiveTime) (parseStart .fresh buf) []
        ⟨⟨.kGotAll, q.parsed receiveTime⟩, buf', true, false⟩ ∧
      buf'.Valid ∧ buf'.content = rest := by
  have hnext := q.next_line rest
  rw [← hcontent] at hnext
  obtain ⟨buf', hstep, hvalid, hheaders⟩ :=
    parseStep_requestLine receiveTime true h hnext q.processRequestLine_eq
  have htakes := q.takes_headers rest
  rw [← hheaders] at htakes
  obtain ⟨buf'', hloop, hvalid', hrest⟩ :=
    headers_loop hvalid htakes q.headers_colon List.not_mem_nil
  exact ⟨buf'', .again hstep hloop, hvalid', hrest⟩

end Request

namespace HttpServer

open HttpContext

/-- `onMessage(conn, buf, receiveTime)`, if `parseRequest` returns. -/
def OnMessage (receiveTime : Int) (c : Connection) (es : List Event) (c' : Connection) : Prop :=
  ∃ parsed es', Loop (parseStep receiveTime) (parseStart c.context c.inputBuffer) es' parsed ∧
    c' = (onParsed parsed).val ∧ es = es'.map .parse ++ (onParsed parsed).trace

/-- A step is a read and a call of `onMessage`. -/
theorem step_iff_onMessage {c c' : Connection} {l : Received} {es : List Event} :
    Step c l es c' ↔ ∃ es', OnMessage l.receiveTime
        ⟨c.context, (c.inputBuffer.readFd (some l.data)).val.2⟩ es' c' ∧
      es = (c.inputBuffer.readFd (some l.data)).trace.map .buffer ++ es' := by
  constructor
  · rintro ⟨parsed, es', hloop, hc', rfl⟩
    exact ⟨_, ⟨parsed, es', hloop, hc', rfl⟩, List.append_assoc _ _ _⟩
  · rintro ⟨es'', ⟨parsed, es', hloop, hc', rfl⟩, rfl⟩
    exact ⟨parsed, es', hloop, hc', (List.append_assoc _ _ _).symm⟩

theorem OnMessage.unique {receiveTime : Int} {c c₁ c₂ : Connection} {es₁ es₂ : List Event}
    (h₁ : OnMessage receiveTime c es₁ c₁) (h₂ : OnMessage receiveTime c es₂ c₂) :
    es₁ = es₂ ∧ c₁ = c₂ := by
  obtain ⟨parsed₁, es₁', hloop₁, rfl, rfl⟩ := h₁
  obtain ⟨parsed₂, es₂', hloop₂, rfl, rfl⟩ := h₂
  obtain ⟨rfl, rfl⟩ := hloop₁.unique hloop₂
  exact ⟨rfl, rfl⟩

/-- The request of a call of `onRequest`. -/
def Event.requested : Event → Option HttpRequest
  | .onRequest request => some request
  | _ => none

/-- `onRequest` has been called once for each of the requests, in order, and the buffer is empty. -/
structure Answered (qs : List Request) (receiveTime : Int) (es : List Event) (c : Connection) :
    Prop where
  requests : es.filterMap Event.requested = qs.map (·.parsed receiveTime)
  buffer : c.inputBuffer.content = []

/-- The first request is answered, and the others stay in the buffer. -/
theorem onMessage_first {buf : Buffer} {q : Request} {rest : Bytes} (h : buf.Valid)
    (hcontent : buf.content = q.bytes ++ rest) (receiveTime : Int) :
    ∃ c', OnMessage receiveTime ⟨.fresh, buf⟩ [.onRequest (q.parsed receiveTime)] c' ∧
      c'.context = .fresh ∧ c'.inputBuffer.content = rest := by
  obtain ⟨buf', hloop, -, hrest⟩ := Request.parse_bytes h hcontent receiveTime
  exact ⟨⟨.fresh, buf'⟩, ⟨_, _, hloop, rfl, rfl⟩, rfl, hrest⟩

/-- **Which requests are answered.**  On a buffer that holds at least one request and nothing else
`onMessage` returns, and it has answered all of them exactly if there is one only. -/
theorem onMessage_answers_iff {buf : Buffer} {qs : List Request} (h : buf.Valid) (hqs : qs ≠ [])
    (hcontent : buf.content = qs.flatMap (·.bytes)) (receiveTime : Int) :
    (∃ es c', OnMessage receiveTime ⟨.fresh, buf⟩ es c') ∧
      ∀ es c', OnMessage receiveTime ⟨.fresh, buf⟩ es c' →
        (Answered qs receiveTime es c' ↔ qs.length = 1) := by
  obtain ⟨q, qs, rfl⟩ := List.exists_cons_of_ne_nil hqs
  rw [List.flatMap_cons] at hcontent
  obtain ⟨c, hfirst, -, hrest⟩ := onMessage_first h hcontent receiveTime
  refine ⟨⟨_, c, hfirst⟩, fun es c' hcall => ?_⟩
  obtain ⟨rfl, rfl⟩ := hcall.unique hfirst
  rw [List.length_cons, Nat.add_eq_right, List.length_eq_zero_iff]
  constructor
  · rintro ⟨hrequests, -⟩
    have hlength := congrArg List.length hrequests
    simpa [Event.requested] using hlength
  · rintro rfl
    exact ⟨rfl, hrest⟩

/-- `GET / HTTP/1.1` with one header. -/
def getRootRequest : Request where
  line := ascii "GET / HTTP/1.1"
  headers := [ascii "Host: chaonet"]
  line_accepted := by decide
  line_unbroken := by decide
  headers_colon := by decide
  headers_unbroken := by decide

theorem onMessage_answers_single :
    ∃ (buf : Buffer) (es : List Event) (c : Connection), buf.content = getRootRequest.bytes ∧
      OnMessage 3 ⟨.fresh, buf⟩ es c ∧ Answered [getRootRequest] 3 es c := by
  obtain ⟨buf, hvalid, hcontent⟩ := Buffer.exists_content getRootRequest.bytes
  have hflat : buf.content = [getRootRequest].flatMap (·.bytes) := by
    rw [hcontent, List.flatMap_singleton]
  obtain ⟨⟨es, c, hcall⟩, hanswers⟩ :=
    onMessage_answers_iff hvalid (List.cons_ne_nil _ _) hflat 3
  exact ⟨_, es, c, hcontent, hcall, (hanswers es c hcall).mpr rfl⟩

/-- The second of two requests is not answered. -/
theorem not_answered_two :
    ∃ (buf : Buffer) (es : List Event) (c : Connection),
      buf.content = getRootRequest.bytes ++ getRootRequest.bytes ∧
        OnMessage 3 ⟨.fresh, buf⟩ es c ∧ ¬Answered [getRootRequest, getRootRequest] 3 es c := by
  obtain ⟨buf, hvalid, hcontent⟩ :=
    Buffer.exists_content (getRootRequest.bytes ++ getRootRequest.bytes)
  obtain ⟨c, hcall, -, hrest⟩ := onMessage_first hvalid hcontent 3
  refine ⟨_, _, c, hcontent, hcall, fun hanswered => ?_⟩
  exact getRootRequest.bytes_ne_nil (hrest.symm.trans hanswered.buffer)

end HttpServer
end Chaonet
