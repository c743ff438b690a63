import Chaonet.Connection.Exchange
import Chaonet.Http.HttpResponse
import Chaonet.Http.PageFile
import Chaonet.Http.PageRoot

/-!
# Serving HTTP

`onMessage` and `onRequest` of the HTTP server on a connection, down to the bytes that are sent: the
head of a response with its chunks if the file can be opened, what the callback makes of the request
if it cannot, and the response 400 if the first line is no request line.  What `fopen` finds may be
different in every call (`Input`).

The loop of the connection goes nowhere once `parseRequest` does not return.  As long as it has
returned, the requests of the stream have been answered one after the other, whatever pieces they
have come in, up to the first reply that closes the connection (`answers_requests`).  A line that is
refused stays in the buffer; it is answered once.  What a call does to the context and the input
buffer is what `OnMessage` says (`onMessage_refines`).
-/

namespace Chaonet

open Foundation

open Buffer (lines)
open Service (member)
open TcpConnection (Buffered)
open Exchange (Responds)

/-! ## What the request says -/

namespace HttpRequest

/-- `fileType`. -/
def fileType : List (Bytes × Bytes) :=
  [(ascii "txt", ascii "text/plain"), (ascii "c", ascii "text/plain"),
    (ascii "h", ascii "text/plain"), (ascii "html", ascii "text/html"),
    (ascii "htm", ascii "text/htm"), (ascii "css", ascii "text/css"),
    (ascii "gif", ascii "image/gif"), (ascii "jpg", ascii "image/jpeg"),
    (ascii "jpeg", ascii "image/jpeg"), (ascii "png", ascii "image/png"),
    (ascii "pdf", ascii "application/pdf"), (ascii "ps", ascii "application/postscript")]

/-- `fileType.at(suffix)`, of a suffix that is there. -/
def typeAt (suffix : Bytes) : Bytes := (fileType.lookup suffix).getD []

def getHeader (r : HttpRequest) (field : Bytes) : Bytes := (r.headers field).getD []

def getFileType (r : HttpRequest) : Bytes :=
  if r.path = ascii "/" then typeAt (ascii "html")
  else
    -- The place of the last dot, or -1.
    let i : Int := r.path.length - 1 - r.path.reverse.idxOf (char '.')
    let suffix := r.path.drop (i + 1).toNat
    if fileType.lookup suffix = none ∨ i = 0 then typeAt (ascii "txt") else typeAt suffix

end HttpRequest

namespace HttpServer

open HttpContext

/-! ## The server on a connection -/

/-- What `fopen` may find: the content of a file of this name, or none. -/
abbrev Disk := Bytes → Option Bytes → Prop

/-- What the environment decides in a callback. -/
structure Input (disk : Disk) where
  receiveTime : Int
  /-- `fopen` of a name, and what the calls of `fread` find in the file. -/
  fopen : Bytes → Option (List Piece)
  finds : ∀ name, disk name ((fopen name).map fileContent)
  /-- What `::write` returns in the calls of `send`, one after the other. -/
  writes : List WriteResult

/-- `send`, once for each of the messages. -/
def sendAll (c : TcpConnection) : List Bytes → List WriteResult →
    Traced TcpConnection.Event TcpConnection
  | [], _ => pure c
  | message :: messages, writes => do
      let c ← c.send message (writes.headD (.error true))
      sendAll c messages writes.tail

/-- What `sendPageFile` passes to `send`. -/
def pageSends : List Piece → List Bytes
  | [] => (sendPageFileStep []).trace ++ [ascii "0\r\n", ascii "\r\n"]
  | piece :: fp => (sendPageFileStep (piece :: fp)).trace ++ pageSends fp

/-- `close` of `onRequest`. -/
def closeAfter (req : HttpRequest) : Bool :=
  let connection := req.getHeader (ascii "Connection")
  connection = ascii "close" ∨ (req.version = .kHttp10 ∧ connection ≠ ascii "Keep-Alive")

/-- The response to a request for a page that is there. -/
def pageResponse (req : HttpRequest) : HttpResponse :=
  (((((HttpResponse.create (closeAfter req)).setStatusCode .k200k).setStatusMessage
    (ascii "OK")).setContentType req.getFileType).addHeader (ascii "Transfer-Encoding")
      (ascii "chunked")).addHeader (ascii "Server") (ascii "Chaonet")

variable {disk : Disk}

/-- The bytes of a response are sent, and `body` behind them; `send` takes all that the buffer
holds. -/
def sendResponse (c : TcpConnection) (response : HttpResponse) (body : List Bytes)
    (writes : List WriteResult) : Traced (Service.Event Event) TcpConnection := do
  let bufToSend ← (response.appendToBuffer .fresh).lift fun a => .user (.buffer a)
  let c ← member (sendAll c (bufToSend.retrieveAsString.1 :: body) writes)
  if response.closeConnection then member c.shutdown else pure c

def onRequest (pageRoot : Bytes) (httpCallback : HttpRequest → HttpResponse → HttpResponse)
    (c : TcpConnection) (req : HttpRequest) (w : Input disk) :
    Traced (Service.Event Event) TcpConnection := do
  Traced.emit (.user (.onRequest req))
  match w.fopen (cStr (fileName pageRoot req)) with
  | some fp => sendResponse c (pageResponse req) (pageSends fp) w.writes
  | none => sendResponse c (httpCallback req (.create (closeAfter req))) [] w.writes

/-- `parseRequest`, if it returns.  Every iteration but the last two takes a line. -/
def parseRequest (context : HttpContext) (buf : Buffer) (receiveTime : Int) :
    Option (Traced HttpContext.Event ParseState) :=
  runLoop (parseStep receiveTime) (buf.readableBytes + 2) (parseStart context buf)

def badRequest : Bytes := ascii "HTTP/1.1 400 Bad Request\r\n\r\n"

/-- `onMessage`.  The user has the context of the connection, or nothing once `parseRequest` has not
returned. -/
def onMessage (pageRoot : Bytes) (httpCallback : HttpRequest → HttpResponse → HttpResponse)
    (u : Option HttpContext) (c : TcpConnection) (w : Input disk) :
    Traced (Service.Event Event) (Option HttpContext × TcpConnection) :=
  match u.bind fun context => parseRequest context c.inputBuffer w.receiveTime with
  | none => pure (none, c)
  | some x => do
      let parsed ← x.lift fun e => .user (.parse e)
      let c := { c with inputBuffer := parsed.buf }
      let c ←
        if parsed.ok = false then do
          Traced.emit (.user .badRequest)
          let c ← member (sendAll c [badRequest] w.writes)
          member c.shutdown
        else pure c
      if parsed.context.gotAll then do
        let c ← onRequest pageRoot httpCallback c parsed.context.request w
        pure (some parsed.context.reset, c)
      else pure (some parsed.context, c)

def service (pageRoot : Bytes) (httpCallback : HttpRequest → HttpResponse → HttpResponse)
    (disk : Disk) : Service (Option HttpContext) (Input disk) Event :=
  ⟨onMessage pageRoot httpCallback, fun u c _ => pure (u, c)⟩

/-- There is no step once `parseRequest` has not returned. -/
def ServedStep (pageRoot : Bytes) (httpCallback : HttpRequest → HttpResponse → HttpResponse)
    (disk : Disk) : Served (Option HttpContext) → Served.Label (Input disk) →
    List (Service.Event Event) → Served (Option HttpContext) → Prop :=
  restrict (fun s _ => s.user.isSome = true)
    (Served.Step (service pageRoot httpCallback disk))

/-! ## The requests of a stream -/

/-- The head of a request, or a line that is none. -/
inductive Item
  | head (line : Bytes) (headers : List Bytes) (last : Bytes)
  | bad (line : Bytes)
deriving DecidableEq, Repr

def Item.isBad : Item → Bool
  | .head .. => false
  | .bad _ => true

/-- The request that the parser makes of a head. -/
def request (line : Bytes) (headers : List Bytes) (receiveTime : Int) : HttpRequest :=
  headers.foldl record ((processRequestLine .fresh line).val.2.setReceiveTime receiveTime)

/-- A stream begins with these items.  Behind a line that is refused nothing is looked at, and it is
not taken itself. -/
inductive Begins : Bytes → List Item → Bytes → Prop
  | nil (s : Bytes) : Begins s [] s
  | head {s t u rest line last : Bytes} {headers : List Bytes} {items : List Item} :
      lines.next s = some (line, t) → IsRequestLine line → (∀ l ∈ headers, char ':' ∈ l) →
        char ':' ∉ last → lines.Takes t (headers ++ [last]) u → Begins u items rest →
        Begins s (.head line headers last :: items) rest
  | bad {s t line : Bytes} : lines.next s = some (line, t) → ¬IsRequestLine line →
      Begins s [.bad line] s

theorem Begins.append {s rest : Bytes} {items : List Item} (h : Begins s items rest)
    (more : Bytes) : Begins (s ++ more) items (rest ++ more) := by
  induction h with
  | nil s => exact .nil _
  | head hnext hline hcolon hlast htakes _ ih =>
      exact .head (lines.stable hnext more) hline hcolon hlast (htakes.append more) ih
  | bad hnext hline => exact .bad (lines.stable hnext more) hline

/-- More items behind those that have been taken. -/
theorem Begins.trans {s t rest : Bytes} {items items' : List Item} (h : Begins s items t)
    (hgood : ∀ i ∈ items, i.isBad = false) (h' : Begins t items' rest) :
    Begins s (items ++ items') rest := by
  induction h with
  | nil s => exact h'
  | head hnext hline hcolon hlast htakes _ ih =>
      exact .head hnext hline hcolon hlast htakes
        (ih (fun i hi => hgood i (List.mem_cons_of_mem _ hi)) h')
  | bad => simp [Item.isBad] at hgood

/-- A line that is refused comes last, and stays where it is. -/
theorem Begins.refused {s rest : Bytes} {items : List Item} (h : Begins s items rest)
    (hbad : ∃ i ∈ items, i.isBad = true) :
    ∃ line t, lines.next rest = some (line, t) ∧ ¬IsRequestLine line := by
  induction h with
  | nil s =>
      obtain ⟨i, hi, -⟩ := hbad
      exact absurd hi List.not_mem_nil
  | head _ _ _ _ _ _ ih =>
      obtain ⟨i, hi, hbad⟩ := hbad
      rcases List.mem_cons.mp hi with rfl | hi
      · simp [Item.isBad] at hbad
      · exact ih ⟨i, hi, hbad⟩
  | bad hnext hline => exact ⟨_, _, hnext, hline⟩

/-! ## What the parser finds -/

/-- What `parseRequest` leaves behind of a context that expects a request line. -/
inductive Parsed (r : HttpRequest) (buf : Buffer) (receiveTime : Int) : ParseState → Prop
  | nothing (none : lines.next buf.content = none) :
      Parsed r buf receiveTime ⟨⟨.kExpectRequestLine, r⟩, buf, true, false⟩
  | bad (line t : Bytes) (r' : HttpRequest) (next : lines.next buf.content = some (line, t))
      (refused : ¬IsRequestLine line) :
      Parsed r buf receiveTime ⟨⟨.kExpectRequestLine, r'⟩, buf, false, false⟩
  | head (line t last : Bytes) (headers : List Bytes) (buf' : Buffer) (valid : buf'.Valid)
      (next : lines.next buf.content = some (line, t)) (accepted : IsRequestLine line)
      (colon : ∀ l ∈ headers, char ':' ∈ l) (last_colon : char ':' ∉ last)
      (takes : lines.Takes t (headers ++ [last]) buf'.content) :
      Parsed r buf receiveTime ⟨⟨.kGotAll, headers.foldl record
        ((processRequestLine r line).val.2.setReceiveTime receiveTime)⟩, buf', true, false⟩

variable {buf : Buffer} {receiveTime : Int} {r : HttpRequest}

theorem parsed_of_loop (h : buf.Valid) {es : List HttpContext.Event} {s : ParseState}
    (hloop : Loop (parseStep receiveTime) (parseStart ⟨.kExpectRequestLine, r⟩ buf) es s) :
    Parsed r buf receiveTime s := by
  -- The state in which the loop is left, and how it has come there.
  have hdone {t u : ParseState} {es : List HttpContext.Event} (hmore : t.hasMore = false)
      (hrest : Loop (parseStep receiveTime) t es u) : u = t :=
    (hrest.unique (.exit (parseStep_done _ hmore))).2
  rw [parseStart] at hloop
  cases hnext : lines.next buf.content with
  | none =>
      obtain ⟨_, -, hrest⟩ := hloop.rest (parseStep_noRequestLine _ _ _ h hnext)
      rw [hdone rfl hrest]
      exact .nothing hnext
  | some out =>
      obtain ⟨line, t⟩ := out
      cases hprocess : processRequestLine r line with
      | mk out es' =>
          obtain ⟨known, r'⟩ := out
          have hknown : known = true ↔ IsRequestLine line := by
            rw [← processRequestLine_fst r line, hprocess]
          cases known with
          | false =>
              obtain ⟨_, -, hrest⟩ := hloop.rest (parseStep_badRequestLine _ _ h hnext hprocess)
              rw [hdone rfl hrest]
              exact .bad line t r' hnext fun hline => absurd (hknown.mpr hline) (by decide)
          | true =>
              obtain ⟨buf', hstep, hvalid, rfl⟩ :=
                parseStep_requestLine receiveTime true h hnext hprocess
              obtain ⟨es'', -, hrest⟩ := hloop.rest hstep
              have hend := (headers_return_iff _ _ _ hvalid rfl).mp ⟨es'', s, hrest⟩
              obtain ⟨headers, last, rest, htakes, hcolon, hlast⟩ := lines.exists_takes_first hend
              simp only [not_not] at hcolon
              obtain ⟨buf'', hloop', hvalid', rfl⟩ := headers_loop hvalid htakes hcolon hlast
              obtain ⟨-, rfl⟩ := hrest.unique hloop'
              have hr' : r' = (processRequestLine r line).val.2 := by rw [hprocess]
              rw [hr']
              exact .head line _ last headers buf'' hvalid' hnext (hknown.mp rfl) hcolon hlast
                htakes

/-- What is left to be looked at. -/
def remaining (s : ParseState) : Nat := s.buf.content.length + if s.hasMore then 1 else 0

/-- An iteration takes a line or is the last one but one, unless the loop hangs in it. -/
theorem Parsing.shrinks {s t : ParseState} {es : List HttpContext.Event} (h : Parsing s)
    (hstep : parseStep receiveTime s = ⟨.inl t, es⟩)
    (hreturns : ∃ es u, Loop (parseStep receiveTime) t es u) :
    Parsing t ∧ remaining t < remaining s := by
  obtain ⟨⟨state, request⟩, buf, ok, hasMore⟩ := s
  cases hasMore with
  | false => simp [parseStep_done] at hstep
  | true =>
      obtain ⟨t', es', heq, hparsing⟩ := h.step rfl receiveTime
      have hsame (u : ParseState) (es'' : List HttpContext.Event)
          (hu : parseStep receiveTime ⟨⟨state, request⟩, buf, ok, true⟩ = ⟨.inl u, es''⟩) :
          t = u := by
        rw [hstep] at hu
        exact Sum.inl.inj (Traced.mk.inj hu).1
      refine ⟨hsame t' es' heq ▸ hparsing, ?_⟩
      rcases h.more rfl with hstate | hstate
      · obtain rfl : state = .kExpectRequestLine := hstate
        cases hnext : lines.next buf.content with
        | none =>
            rw [hsame _ _ (parseStep_noRequestLine _ _ _ h.valid hnext)]
            simp [remaining]
        | some out =>
            obtain ⟨line, rest⟩ := out
            have hshorter := lines.shorter hnext
            cases hprocess : processRequestLine request line with
            | mk out es'' =>
                obtain ⟨known, request'⟩ := out
                cases known with
                | false =>
                    rw [hsame _ _ (parseStep_badRequestLine _ _ h.valid hnext hprocess)]
                    simp [remaining]
                | true =>
                    obtain ⟨buf', hline, -, rfl⟩ :=
                      parseStep_requestLine receiveTime ok h.valid hnext hprocess
                    rw [hsame _ _ hline]
                    simpa [remaining] using hshorter
      · obtain rfl : state = .kExpectHeaders := hstate
        cases hnext : lines.next buf.content with
        | none =>
            obtain rfl := hsame _ _ (parseStep_noHeader _ _ _ h.valid hnext)
            have hend := (headers_return_iff _ _ _ h.valid rfl).mp hreturns
            rw [lines.drain_of_none hnext] at hend
            obtain ⟨l, hl, -⟩ := hend
            exact absurd hl List.not_mem_nil
        | some out =>
            obtain ⟨line, rest⟩ := out
            have hshorter := lines.shorter hnext
            by_cases hcolon : char ':' ∈ line
            · obtain ⟨buf', hline, -, rfl⟩ :=
                parseStep_header receiveTime request ok h.valid hnext hcolon
              rw [hsame _ _ hline]
              simpa [remaining] using hshorter
            · obtain ⟨buf', hline, -, rfl⟩ :=
                parseStep_lastLine receiveTime request ok h.valid hnext hcolon
              rw [hsame _ _ hline]
              simp only [remaining, Bool.false_eq_true, if_false, if_true]
              omega

/-- `parseRequest` finds what the loop is left with, and nothing only if the loop hangs. -/
theorem parseRequest_eq_some_iff (h : buf.Valid) {x : Traced HttpContext.Event ParseState} :
    parseRequest ⟨.kExpectRequestLine, r⟩ buf receiveTime = some x ↔
      Loop (parseStep receiveTime) (parseStart ⟨.kExpectRequestLine, r⟩ buf) x.trace x.val := by
  refine ⟨fun hsome => Loop.of_runLoop hsome, fun hloop => ?_⟩
  have hstart : Parsing (parseStart ⟨.kExpectRequestLine, r⟩ buf) :=
    ⟨h, fun _ => .inl rfl, by simp [parseStart]⟩
  refine hloop.runLoop_eq Parsing remaining (fun s t es hs hstep => hs.shrinks hstep) hstart ?_
  have hlength := Buffer.length_content h
  simp only [remaining, parseStart, if_true]
  omega

/-! ## Replies -/

structure Reply where
  bytes : Bytes
  closes : Bool

variable {pageRoot : Bytes} {httpCallback : HttpRequest → HttpResponse → HttpResponse}

/-- The parser makes the request of an item, at some time. -/
def Item.Reads : Item → HttpRequest → Prop
  | .head line headers _, req => ∃ receiveTime, req = request line headers receiveTime
  | .bad _, _ => False

/-- What an item is answered with. -/
inductive Answer (pageRoot : Bytes) (httpCallback : HttpRequest → HttpResponse → HttpResponse)
    (disk : Disk) : Item → Reply → Prop
  /-- The file is there.  A decoder of chunked bodies finds its content, and the end of a body. -/
  | page (item : Item) (req : HttpRequest) (content body : Bytes) (reads : item.Reads req)
      (there : disk (cStr (fileName pageRoot req)) (some content))
      (chunks : chunked.decode body = some (content, ascii "0\r\n\r\n")) :
      Answer pageRoot httpCallback disk item ⟨(pageResponse req).render ++ body, closeAfter req⟩
  | callback (item : Item) (req : HttpRequest) (response : HttpResponse) (reads : item.Reads req)
      (missing : disk (cStr (fileName pageRoot req)) none)
      (made : response = httpCallback req (.create (closeAfter req))) :
      Answer pageRoot httpCallback disk item ⟨response.render, response.closeConnection⟩
  | bad (line : Bytes) : Answer pageRoot httpCallback disk (.bad line) ⟨badRequest, true⟩

/-- The items of a stream with their answers. -/
def exchange (pageRoot : Bytes) (httpCallback : HttpRequest → HttpResponse → HttpResponse)
    (disk : Disk) : Exchange Item Reply where
  Takes := Begins
  append := Begins.append
  Answer := Answer pageRoot httpCallback disk
  bytes := Reply.bytes
  Closes _ reply := reply.closes = true

theorem pageSends_sent (fp : List Piece) : SendPageFile fp (pageSends fp) := by
  obtain ⟨chunks, hloop, heq⟩ : ∃ chunks, Loop sendPageFileStep fp chunks () ∧
      pageSends fp = chunks ++ [ascii "0\r\n", ascii "\r\n"] := by
    induction fp with
    | nil => exact ⟨_, .exit rfl, rfl⟩
    | cons piece fp ih =>
        obtain ⟨chunks, hloop, heq⟩ := ih
        have hpos : 0 < piece.bytes.length := List.length_pos_iff.mpr piece.nonempty
        have hstep : sendPageFileStep (piece :: fp) =
            ⟨.inl fp, (sendPageFileStep (piece :: fp)).trace⟩ := by
          simp [sendPageFileStep, fread, bind, pure, hpos]
        exact ⟨_, .again hstep hloop, by rw [pageSends, heq, List.append_assoc]⟩
  exact ⟨chunks, hloop, heq⟩

variable {c c' : TcpConnection} {rest bytes : Bytes}

theorem responds_sendAll {x : Traced TcpConnection.Event TcpConnection}
    (hx : Responds c rest bytes False x) (messages : List Bytes) (writes : List WriteResult) :
    Responds c rest (bytes ++ messages.flatten) False
      (x >>= fun c => sendAll c messages writes) := by
  induction messages generalizing x bytes writes with
  | nil =>
      rw [List.flatten_nil, List.append_nil]
      simpa [HttpServer.sendAll] using hx
  | cons message messages ih =>
      have hall := ih (hx.send message (writes.headD (.error true))) writes.tail
      rwa [bind_assoc, List.append_assoc, ← List.flatten_cons] at hall

@[simp] theorem sendAll_inputBuffer (c : TcpConnection) (messages : List Bytes)
    (writes : List WriteResult) : (sendAll c messages writes).val.inputBuffer = c.inputBuffer := by
  induction messages generalizing c writes with
  | nil => rfl
  | cons message messages ih =>
      rw [sendAll, Traced.bind_val, ih, TcpConnection.send_inputBuffer]

/-- What is sent of a response are the bytes of it, and nothing else shows. -/
theorem sendResponse_eq {response : HttpResponse} (hshort : response.body.length < 10 ^ 13)
    (c : TcpConnection) (body : List Bytes) (writes : List WriteResult) :
    sendResponse c response body writes =
      member (sendAll c (response.render :: body) writes >>= fun c =>
        if response.closeConnection then c.shutdown else pure c) := by
  obtain ⟨hvalid, hcontent, htrace⟩ :=
    HttpResponse.appends_appendToBuffer hshort Buffer.fresh Buffer.fresh_valid
  rw [Buffer.fresh_content, List.nil_append] at hcontent
  have hsent : (response.appendToBuffer .fresh).val.retrieveAsString.1 = response.render :=
    (Buffer.retrieveAsString_fst hvalid).trans hcontent
  unfold sendResponse
  by_cases hclose : response.closeConnection = true
  · simp [bind, Traced.lift, member, htrace, hsent, hclose]
  · simp [bind, pure, Traced.lift, member, htrace, hsent, hclose]

/-- A response is sent with what follows it, and the connection is shut down if it says so. -/
theorem sendResponse_responds {response : HttpResponse} (hshort : response.body.length < 10 ^ 13)
    (hx : Responds c rest [] False (pure c')) (body : List Bytes) (writes : List WriteResult) :
    ∃ x : Traced TcpConnection.Event TcpConnection,
      sendResponse c' response body writes = ⟨x.val, x.trace.map .conn⟩ ∧
        Responds c rest (response.render ++ body.flatten) (response.closeConnection = true) x := by
  have hall := responds_sendAll hx (response.render :: body) writes
  rw [List.nil_append, List.flatten_cons] at hall
  refine ⟨_, sendResponse_eq hshort c' body writes, ?_⟩
  by_cases hclose : response.closeConnection = true
  · simp only [hclose, if_true]
    exact hall.shutdown trivial
  · simp only [hclose]
    simpa using hall

/-! ## What a call does -/

/-- The bodies of the responses that the callback makes have lengths of thirteen digits at most. -/
def Short (httpCallback : HttpRequest → HttpResponse → HttpResponse) : Prop :=
  ∀ req close, (httpCallback req (.create close)).body.length < 10 ^ 13

theorem pageResponse_short (req : HttpRequest) : (pageResponse req).body.length < 10 ^ 13 :=
  Nat.pow_pos (by decide)

/-- A request is answered. -/
theorem onRequest_responds (pageRoot : Bytes) (hshort : Short httpCallback) (w : Input disk)
    {item : Item} {req : HttpRequest} (hreads : item.Reads req)
    (hx : Responds c rest [] False (pure c')) :
    ∃ (reply : Reply) (x : Traced TcpConnection.Event TcpConnection),
      onRequest pageRoot httpCallback c' req w =
          ⟨x.val, .user (.onRequest req) :: x.trace.map .conn⟩ ∧
        Answer pageRoot httpCallback disk item reply ∧
        Responds c rest reply.bytes (reply.closes = true) x := by
  have hfinds := w.finds (cStr (fileName pageRoot req))
  unfold onRequest
  cases hopen : w.fopen (cStr (fileName pageRoot req)) with
  | some fp =>
      rw [hopen] at hfinds
      obtain ⟨x, heq, hx⟩ :=
        sendResponse_responds (pageResponse_short req) hx (pageSends fp) w.writes
      exact ⟨_, x, by simp [bind, Traced.emit, heq],
        .page item req (fileContent fp) _ hreads hfinds (pageSends_sent fp).decode, hx⟩
  | none =>
      rw [hopen] at hfinds
      obtain ⟨x, heq, hx⟩ := sendResponse_responds (hshort req (closeAfter req)) hx [] w.writes
      rw [List.flatten_nil, List.append_nil] at hx
      exact ⟨_, x, by simp [bind, Traced.emit, heq], .callback item req _ hreads hfinds rfl, hx⟩

/-- What `onRequest` shows, and that it leaves the input buffer alone. -/
theorem onRequest_shows (pageRoot : Bytes) (hshort : Short httpCallback) (c : TcpConnection)
    (req : HttpRequest) (w : Input disk) :
    Service.userEvents (onRequest pageRoot httpCallback c req w).trace = [.onRequest req] ∧
      (onRequest pageRoot httpCallback c req w).val.inputBuffer = c.inputBuffer := by
  have hsent {response : HttpResponse} (hbody : response.body.length < 10 ^ 13)
      (body : List Bytes) :
      Service.userEvents (sendResponse c response body w.writes).trace = [] ∧
        (sendResponse c response body w.writes).val.inputBuffer = c.inputBuffer := by
    rw [sendResponse_eq hbody]
    by_cases hclose : response.closeConnection = true
    · simp [hclose]
    · simp [hclose]
  unfold onRequest
  cases w.fopen (cStr (fileName pageRoot req)) with
  | some fp =>
      obtain ⟨hshown, hinput⟩ := hsent (pageResponse_short req) (pageSends fp)
      simp [hshown, hinput]
  | none =>
      obtain ⟨hshown, hinput⟩ := hsent (hshort req (closeAfter req)) []
      simp [hshown, hinput]

/-- If it returns, `onMessage` does to the context and the input buffer what `OnMessage` says, and
calls `onRequest` for the same requests. -/
theorem onMessage_refines (hshort : Short httpCallback) {context context' : HttpContext}
    (w : Input disk)
    (h : (onMessage pageRoot httpCallback (some context) c w).val.1 = some context') :
    OnMessage w.receiveTime ⟨context, c.inputBuffer⟩
      (Service.userEvents (onMessage pageRoot httpCallback (some context) c w).trace)
      ⟨context', (onMessage pageRoot httpCallback (some context) c w).val.2.inputBuffer⟩ := by
  unfold onMessage at h ⊢
  rw [Option.bind_some] at h ⊢
  cases hparse : parseRequest context c.inputBuffer w.receiveTime with
  | none => simp [hparse] at h
  | some x =>
      have hloop : Loop (parseStep w.receiveTime) (parseStart context c.inputBuffer) x.trace
          x.val :=
        Loop.of_runLoop hparse
      refine ⟨x.val, x.trace, hloop, ?_⟩
      have hshown (c : TcpConnection) :=
        (onRequest_shows pageRoot hshort c x.val.context.request w).1
      have hinput (c : TcpConnection) :=
        (onRequest_shows pageRoot hshort c x.val.context.request w).2
      have hparsed : Service.userEvents (x.trace.map fun e =>
          (.user (.parse e) : Service.Event Event)) = x.trace.map .parse := by
        simp [Service.userEvents, List.filterMap_map]
      simp only [hparse] at h ⊢
      by_cases hok : x.val.ok = false <;> by_cases hgot : x.val.context.gotAll <;>
        simp [hok, hgot, hshown, hinput, onParsed, hparsed] at h ⊢
      all_goals exact h.symm

/-! ## Runs -/

/-- The context is a new one between requests, as long as no line has been refused. -/
def Between (u : Option HttpContext) (taken : List Item) : Prop :=
  ∀ context ∈ u, context.state = .kExpectRequestLine ∧
    ((∀ i ∈ taken, i.isBad = false) → context = .fresh)

/-- The first request is answered as soon as its head is complete. -/
def Left (u : Option HttpContext) (taken : List Item) (rest : Bytes) : Prop :=
  u.isSome = true → taken = [] → lines.next rest = none

variable {past : List (Service.Event Event)} {stream : Bytes} {taken : List Item}
  {replies : List (Item × Reply)}

/-- A connection that is up has refused nothing. -/
theorem isBad_eq_false
    (h : (exchange pageRoot httpCallback disk).Replies past stream c taken replies)
    (hup : c.state = .kConnected) : ∀ i ∈ taken, i.isBad = false := by
  obtain ⟨rfl, hopen⟩ := h.up hup
  intro i hi
  obtain ⟨⟨item, reply⟩, hp, rfl⟩ := List.mem_map.mp hi
  cases item with
  | head => rfl
  | bad line =>
      have hanswer : Answer pageRoot httpCallback disk (.bad line) reply := h.right _ hp
      cases hanswer with
      | page _ _ _ _ reads => exact reads.elim
      | callback _ _ _ reads => exact reads.elim
      | bad => exact absurd rfl (hopen _ hp)

/-- A line is refused, and answered if that has not been done before. -/
theorem refuse_answers
    (h : (exchange pageRoot httpCallback disk).Replies past stream c taken replies)
    {line t : Bytes} (hnext : lines.next c.inputBuffer.content = some (line, t))
    (hline : ¬IsRequestLine line) {x : Traced TcpConnection.Event TcpConnection}
    (hx : Responds c c.inputBuffer.content badRequest True x) :
    ∃ taken' replies', (exchange pageRoot httpCallback disk).Replies (past ++ x.trace.map .conn)
      stream x.val taken' replies' ∧ ∃ i ∈ taken', i.isBad = true := by
  by_cases hbad : ∃ i ∈ taken, i.isBad = true
  · have hdown : c.state ≠ .kConnected := by
      intro hup
      obtain ⟨i, hi, hbad⟩ := hbad
      exact absurd (hbad.symm.trans (isBad_eq_false h hup i hi)) (by decide)
    obtain ⟨htrace, hstate, houtput⟩ := hx.dropped hdown
    have htakes : Begins stream taken x.val.inputBuffer.content := by
      rw [hx.input]
      exact h.takes
    rw [htrace, List.map_nil, List.append_nil]
    exact ⟨taken, replies, h.ignored hdown hx.buffered hstate houtput htakes
      (List.prefix_refl _), hbad⟩
  · have hgood : ∀ i ∈ taken, i.isBad = false := by
      simpa using hbad
    have hright : (exchange pageRoot httpCallback disk).Answer (.bad line) ⟨badRequest, true⟩ :=
      .bad line
    have hcloses : Responds c c.inputBuffer.content badRequest (true = true) x := by
      simpa using hx
    obtain ⟨replies', hreplies⟩ := h.respond hright hcloses
      (Begins.trans h.takes hgood (.bad hnext hline))
    exact ⟨_, replies', hreplies, .bad line, by simp, rfl⟩

theorem onMessage_answers (hshort : Short httpCallback) {u : Option HttpContext} (w : Input disk)
    (h : (exchange pageRoot httpCallback disk).Replies past stream c taken replies)
    (hu : Between u taken) :
    (exchange pageRoot httpCallback disk).Answers Between Left
      (past ++ (onMessage pageRoot httpCallback u c w).trace) stream
      (onMessage pageRoot httpCallback u c w).val.1
      (onMessage pageRoot httpCallback u c w).val.2 := by
  unfold onMessage
  cases hparse : u.bind fun context => parseRequest context c.inputBuffer w.receiveTime with
  | none => exact ⟨taken, replies, by simpa using h, by simp [Between], by simp [Left]⟩
  | some x =>
      obtain ⟨⟨state, r⟩, hcontext, hx⟩ := Option.bind_eq_some_iff.mp hparse
      obtain ⟨hstate, hfresh⟩ := hu _ hcontext
      obtain rfl : state = .kExpectRequestLine := hstate
      have hparsed := parsed_of_loop h.buffered.input
        ((parseRequest_eq_some_iff h.buffered.input).mp hx)
      obtain ⟨parsed, ps⟩ := x
      have hshown (es : List Event) := h.shown (es.map .user) (by
        simp [Service.connEvents, List.filterMap_map])
      have hnothing := Exchange.responds_nothing h.buffered h.buffered.input
      cases hparsed with
      | nothing none =>
          refine ⟨taken, replies, ?_, ?_, fun _ _ => none⟩
          · simpa [bind, pure, Traced.lift, gotAll, Function.comp_def] using
              hshown (ps.map .parse)
          · simpa [Between, gotAll] using hfresh
      | bad line t r' next refused =>
          have hresponds := (responds_sendAll hnothing [badRequest] w.writes).shutdown trivial
          have hbytes : [] ++ [badRequest].flatten = badRequest := by simp
          rw [hbytes] at hresponds
          obtain ⟨taken', replies', hreplies, i, hi, hbad⟩ :=
            refuse_answers (hshown (ps.map .parse ++ [.badRequest])) next refused hresponds
          refine ⟨taken', replies', ?_, ?_, fun _ hnone => ?_⟩
          · simpa [bind, pure, Traced.lift, Traced.emit, member, gotAll, Function.comp_def] using
              hreplies
          · intro context hcontext
            obtain rfl : ⟨.kExpectRequestLine, r'⟩ = context := by
              simpa [gotAll] using hcontext
            refine ⟨rfl, fun hgood => ?_⟩
            exact absurd (hbad.symm.trans (hgood i hi)) (by decide)
          · rw [hnone] at hi
            exact absurd hi List.not_mem_nil
      | head line t last headers buf' valid next accepted colon last_colon takes =>
          have hgood : ∀ i ∈ taken, i.isBad = false := by
            intro i hi
            by_contra hbad
            obtain ⟨line', t', hnext, hrefused⟩ :=
              Begins.refused h.takes ⟨i, hi, by simpa using hbad⟩
            obtain ⟨rfl, -⟩ := Prod.mk.inj (Option.some.inj (next.symm.trans hnext))
            exact hrefused accepted
          obtain rfl : r = .fresh := congrArg HttpContext.request (hfresh hgood)
          have hreads : (Item.head line headers last).Reads
              (request line headers w.receiveTime) := ⟨w.receiveTime, rfl⟩
          obtain ⟨reply, x, heq, hanswer, hresponds⟩ := onRequest_responds pageRoot hshort w hreads
            (Exchange.responds_nothing h.buffered valid)
          have hbegins : Begins c.inputBuffer.content [.head line headers last] buf'.content :=
            .head next accepted colon last_colon takes (.nil _)
          obtain ⟨replies', hreplies⟩ :=
            (hshown (ps.map .parse ++ [.onRequest (request line headers w.receiveTime)])).respond
              hanswer hresponds (Begins.trans h.takes hgood hbegins)
          refine ⟨taken ++ [.head line headers last], replies', ?_, ?_, fun _ hnone => ?_⟩
          · unfold request at heq hreplies
            simpa [bind, pure, Traced.lift, gotAll, Function.comp_def, heq] using hreplies
          · simp [Between, gotAll, HttpContext.reset, HttpContext.fresh]
          · simp at hnone

variable {ptr : ChannelPtr} {sockfd : Int} {poller : EPoller} {t : Served (Option HttpContext)}
  {ls : List (Served.Label (Input disk))} {es : List (Service.Event Event)}

/-- **The requests of a connection are answered.**  In every run, the stream that has been read
begins with the heads of requests that have been taken and perhaps a line that has been refused.
Each of them has been answered once, in their order and up to the first reply that closes the
connection; nothing else has been sent, and the `FIN` follows the whole of that reply.  The first
head is answered as soon as it is complete. -/
theorem answers_requests (hshort : Short httpCallback)
    (hrun : Run (remember Served.noteReads (ServedStep pageRoot httpCallback disk))
      (.start (some .fresh) (.established ptr sockfd poller false), []) ls es (t, stream)) :
    ∃ taken replies, (exchange pageRoot httpCallback disk).Replies es stream t.conn taken replies ∧
      Left t.user taken t.conn.inputBuffer.content := by
  have hkept : Served.Kept (service pageRoot httpCallback disk) fun past stream u c _ =>
      (exchange pageRoot httpCallback disk).Answers Between Left past stream u c :=
    Exchange.kept_answers
      (fun past stream u c w taken replies h hu => onMessage_answers hshort w h hu)
      fun _ _ _ => rfl
  have hserved := hrun.mono fun {s l es t} hstep => (⟨hstep.1.2, hstep.2⟩ :
    remember Served.noteReads (Served.Step (service pageRoot httpCallback disk)) s l es t)
  obtain ⟨taken, replies, h, -, hleft⟩ := hkept.run [] (Served.start_inTurn _ _)
    ⟨[], [], (exchange pageRoot httpCallback disk).replies_established (.nil _) ptr sockfd poller,
      by simp [Between, Served.start, HttpContext.fresh],
      fun _ _ => delimited_next_eq_none.mpr rfl⟩ hserved
  exact ⟨taken, replies, h, hleft⟩

/-- A file that has one piece. -/
def greeting : Input fun _ _ => True where
  receiveTime := 5
  fopen name := if name = ascii "www/a.txt" then some [⟨ascii "hi", by decide, by decide⟩] else none
  finds _ := trivial
  writes := List.replicate 7 (.count 200)

/-- A request in two pieces. -/
def getGreeting : List (Served.Label (Input fun _ _ => True)) :=
  let turn (data : Bytes) : List (Served.Label (Input fun _ _ => True)) :=
    [.swap, .finish, .activate POLLIN, .wake, .handleEvent,
      .callback (some data) (.error true) greeting]
  turn (ascii "GET /a") ++ turn (ascii ".txt HTTP/1.0\r\n\r\n")

theorem answers_requests_greeting :
    ∃ (es : List (Service.Event Event)) (t : Served (Option HttpContext)) (stream : Bytes),
      (∃ taken replies,
        (exchange (ascii "www") (fun _ => HttpResponse.defaultHttpCallback)
          fun _ _ => True).Replies es stream t.conn taken replies ∧
        Left t.user taken t.conn.inputBuffer.content) ∧
      Service.Ended es ∧ ascii "HTTP/1.1 200 OK\r\n" <+: Service.written es := by
  have hshort : Short fun _ => HttpResponse.defaultHttpCallback :=
    fun _ _ => Nat.pow_pos (by decide)
  obtain ⟨es, t, hrun, hended, hwritten⟩ :
      ∃ (es : List (Service.Event Event)) (t : Served (Option HttpContext)),
      Run (ServedStep (ascii "www") (fun _ => HttpResponse.defaultHttpCallback) fun _ _ => True)
        (.start (some .fresh) (.established 1 7 .create false)) getGreeting es t ∧
        .shutdownWrite ∈ Service.connEvents es ∧
        ascii "HTTP/1.1 200 OK\r\n" <+: Service.written es :=
    Run.exists_of_exec_guarded _ (by decide +kernel)
  obtain ⟨stream, hremember⟩ := hrun.remember Served.noteReads []
  exact ⟨es, t, stream, answers_requests hshort hremember, hended, hwritten⟩

end HttpServer
end Chaonet
