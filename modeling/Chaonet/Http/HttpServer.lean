import Chaonet.Foundation.Run
import Chaonet.Http.HttpContext

/-!
# HTTP on a connection

What `HttpServer` keeps for a connection is the `HttpContext`, which the connection holds as its
context, and what it works on is the input buffer.  A step receives bytes: `readFd` puts them
into the buffer and `onMessage` is called.  There is a step only if `onMessage` returns, since
the loop of the connection goes nowhere if it does not.
-/

namespace Chaonet

open Foundation

open Buffer (lines)

namespace HttpServer

open HttpContext

inductive Event
  /-- `onRequest(conn, req)`. -/
  | onRequest (request : HttpRequest)
  /-- The response 400 is sent, and the connection is shut down. -/
  | badRequest
  | buffer (a : Buffer.Assertion)
  | parse (e : HttpContext.Event)

/-- A connection as the server sees it. -/
structure Connection where
  context : HttpContext
  inputBuffer : Buffer

/-- After `onConnection`. -/
def Connection.fresh : Connection := ⟨.fresh, .fresh⟩

/-- Bytes that `readv` delivers, and when. -/
structure Received where
  data : Bytes
  nonempty : data ≠ []
  receiveTime : Int

/-- What `onMessage` does once `parseRequest` has returned. -/
def onParsed (s : ParseState) : Traced Event Connection := do
  Traced.when (s.ok = false) (Traced.emit .badRequest)
  Traced.when s.context.gotAll (Traced.emit (.onRequest s.context.request))
  pure ⟨if s.context.gotAll then s.context.reset else s.context, s.buf⟩

/-- `TcpConnection::handleRead` with `HttpServer::onMessage`. -/
def Step (c : Connection) (l : Received) (es : List Event) (c' : Connection) : Prop :=
  let read := c.inputBuffer.readFd (some l.data)
  ∃ parsed es', Loop (parseStep l.receiveTime) (parseStart c.context read.val.2) es' parsed ∧
    c' = (onParsed parsed).val ∧
    es = read.trace.map .buffer ++ es'.map .parse ++ (onParsed parsed).trace

/-- The connection as `onMessage` finds it: a request has not been begun. -/
structure Presented (c : Connection) : Prop where
  state : c.context.state = .kExpectRequestLine
  valid : c.inputBuffer.Valid

theorem Presented.fresh : Presented .fresh := ⟨rfl, Buffer.fresh_valid⟩

/-- The states of the loop of `parseRequest`: it goes on while the head of a request is expected,
and is left with nothing taken or with a request. -/
structure Parsing (s : ParseState) : Prop where
  valid : s.buf.Valid
  more : s.hasMore = true →
    s.context.state = .kExpectRequestLine ∨ s.context.state = .kExpectHeaders
  done : s.hasMore = false → s.context.state = .kExpectRequestLine ∨ s.context.state = .kGotAll

theorem Parsing.step {s : ParseState} (h : Parsing s) (hmore : s.hasMore = true)
    (receiveTime : Int) : ∃ t es, parseStep receiveTime s = ⟨.inl t, es⟩ ∧ Parsing t := by
  obtain ⟨⟨state, request⟩, buf, ok, hasMore⟩ := s
  obtain ⟨hvalid, hstate, -⟩ := h
  obtain rfl : hasMore = true := hmore
  -- In each state the line is there or not, and it is accepted or not.
  rcases hstate rfl with rfl | rfl
  · cases hnext : lines.next buf.content with
    | none =>
        exact ⟨_, _, parseStep_noRequestLine _ _ _ hvalid hnext, hvalid, by simp, by simp⟩
    | some out =>
        obtain ⟨l, rest⟩ := out
        cases hprocess : processRequestLine request l with
        | mk out es =>
            obtain ⟨known, request'⟩ := out
            cases known with
            | true =>
                obtain ⟨buf', hparse, hvalid', -⟩ :=
                  parseStep_requestLine receiveTime ok hvalid hnext hprocess
                exact ⟨_, _, hparse, hvalid', by simp, by simp⟩
            | false =>
                exact ⟨_, _, parseStep_badRequestLine _ _ hvalid hnext hprocess, hvalid,
                  by simp, by simp⟩
  · cases hnext : lines.next buf.content with
    | none => exact ⟨_, _, parseStep_noHeader _ _ _ hvalid hnext, hvalid, by simp, by simp⟩
    | some out =>
        obtain ⟨l, rest⟩ := out
        by_cases hcolon : char ':' ∈ l
        · obtain ⟨buf', hparse, hvalid', -⟩ :=
            parseStep_header receiveTime request ok hvalid hnext hcolon
          exact ⟨_, _, hparse, hvalid', by simp, by simp⟩
        · obtain ⟨buf', hparse, hvalid', -⟩ :=
            parseStep_lastLine receiveTime request ok hvalid hnext hcolon
          exact ⟨_, _, hparse, hvalid', by simp, by simp⟩

/-- If `parseRequest` returns, the whole head of a request was taken or nothing of it. -/
theorem parsed_state {c : HttpContext} {buf : Buffer} {receiveTime : Int}
    {es : List HttpContext.Event} {parsed : ParseState} (hstate : c.state = .kExpectRequestLine)
    (hvalid : buf.Valid) (hloop : Loop (parseStep receiveTime) (parseStart c buf) es parsed) :
    parsed.buf.Valid ∧
      (parsed.context.state = .kExpectRequestLine ∨ parsed.context.state = .kGotAll) := by
  have hstart : Parsing (parseStart c buf) :=
    ⟨hvalid, fun _ => .inl hstate, by simp [parseStart]⟩
  refine hloop.invariant Parsing (fun r => r.buf.Valid ∧
    (r.context.state = .kExpectRequestLine ∨ r.context.state = .kGotAll)) (fun s hs => ?_) hstart
  cases hmore : s.hasMore with
  | true => exact .inl (hs.step hmore receiveTime)
  | false => exact .inr ⟨s, [], parseStep_done _ hmore, hs.valid, hs.done hmore⟩

theorem Presented.step {c c' : Connection} {l : Received} {es : List Event} (h : Presented c)
    (hstep : Step c l es c') : Presented c' := by
  obtain ⟨parsed, es', hloop, rfl, -⟩ := hstep
  obtain ⟨hvalid, hstate⟩ :=
    parsed_state h.state (Buffer.readFd_keeps h.valid l.data).1.valid hloop
  refine ⟨?_, hvalid⟩
  by_cases hgot : parsed.context.gotAll
  · simp [onParsed, hgot, HttpContext.reset, HttpContext.fresh]
  · simpa [onParsed, hgot] using hstate.resolve_right hgot

/-- There is a step whenever the head of the next request is complete. -/
theorem Presented.exists_step {c : Connection} (h : Presented c) (l : Received)
    (hhead : HeadComplete (lines.drain (c.inputBuffer.content ++ l.data)).1) :
    ∃ es c', Step c l es c' := by
  obtain ⟨⟨hvalid, hcontent, -⟩, -⟩ := Buffer.readFd_keeps h.valid l.data
  obtain ⟨⟨state, request⟩, inputBuffer⟩ := c
  obtain rfl : state = .kExpectRequestLine := h.state
  rw [Traced.map_val] at hvalid hcontent
  rw [← hcontent] at hhead
  obtain ⟨es, parsed, hloop⟩ :=
    (parseRequest_returns_iff l.receiveTime request hvalid).mpr hhead
  exact ⟨_, _, parsed, es, hloop, rfl, rfl⟩

theorem presented_of_run {c : Connection} {received : List Received} {es : List Event}
    (h : Run Step .fresh received es c) : Presented c :=
  h.invariant Presented.fresh fun _ _ _ _ hs hstep => hs.step hstep

/-- A request without headers, in one piece. -/
def getRoot : Received := ⟨ascii "GET / HTTP/1.1\r\n\r\n", by decide, 5⟩

theorem getRoot_complete : HeadComplete (lines.drain getRoot.data).1 := by
  have hfirst : lines.next getRoot.data = some (ascii "GET / HTTP/1.1", ascii "\r\n") := by decide
  have hsecond : lines.next (ascii "\r\n") = some ([], []) := by decide
  rw [lines.drain_of_some hfirst, lines.drain_of_some hsecond]
  exact fun _ => ⟨[], List.mem_cons_self, List.not_mem_nil⟩

end HttpServer
end Chaonet
