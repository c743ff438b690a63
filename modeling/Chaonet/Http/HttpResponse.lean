import Chaonet.Buffer.Lines
import Chaonet.Foundation.Numeral
import Chaonet.Foundation.OrderedMap
import Mathlib.Data.List.Lex

/-!
# HTTP responses

`HttpResponse` embeds the class of the same name.  `appendToBuffer` writes a response behind what a
buffer holds: the status line, the length of the body unless the connection is to be closed, the
header lines in the order of the map, an empty line, and the body.

`decode` reads a response the way a client does, who looks for `Connection` and `Content-Length`
among the header lines.  It finds what has been written, and where the next response begins
(`decode_render`), so that the responses on a connection can be told apart (`responses_decoded`).
-/

namespace Chaonet

open Foundation

open Buffer (lines)

/-- The order of the keys of a `std::map<string, string>`. -/
local instance byteOrder : LinearOrder UInt8 where
  le_refl := UInt8.le_refl
  le_trans _ _ _ := UInt8.le_trans
  le_antisymm _ _ := UInt8.le_antisymm
  le_total := UInt8.le_total
  lt_iff_le_not_ge _ _ := ⟨fun h => ⟨UInt8.le_of_lt h, UInt8.not_le.mpr h⟩,
    fun h => UInt8.not_le.mp h.2⟩
  toDecidableLE := inferInstance

/-- `HttpResponse::HttpStatusCode`. -/
inductive HttpStatusCode
  | kUnknown
  | k200k
  | k301MovedPermanently
  | k400BadRequest
  | k404NotFound
deriving DecidableEq, Repr

structure HttpResponse where
  headers : OrderedMap Bytes Bytes
  statusCode : HttpStatusCode
  statusMessage : Bytes
  closeConnection : Bool
  body : Bytes

/-- `static_cast<int>`. -/
def HttpStatusCode.toInt : HttpStatusCode → Nat
  | .kUnknown => 0
  | .k200k => 200
  | .k301MovedPermanently => 301
  | .k400BadRequest => 400
  | .k404NotFound => 404

/-- Decimal numbers. -/
def decimal : Numeral UInt8 where
  base := 10
  one_lt := by decide
  digit d := char '0' + UInt8.ofNat d
  value c := if char '0' ≤ c ∧ c ≤ char '9' then some (c - char '0').toNat else none
  value_digit := by decide

/-- `snprintf(buf, sizeof buf, ..)` into 32 bytes, the last of which ends the string. -/
def snprintf (s : Bytes) : Bytes := s.take 31

namespace HttpResponse

/-- `HttpResponse(close)`. -/
def create (close : Bool) : HttpResponse := ⟨.empty, .kUnknown, [], close, []⟩

def setStatusCode (r : HttpResponse) (code : HttpStatusCode) : HttpResponse :=
  { r with statusCode := code }

def setStatusMessage (r : HttpResponse) (message : Bytes) : HttpResponse :=
  { r with statusMessage := message }

def setCloseConnection (r : HttpResponse) (on : Bool) : HttpResponse :=
  { r with closeConnection := on }

def addHeader (r : HttpResponse) (key value : Bytes) : HttpResponse :=
  { r with headers := r.headers.insert key value }

def setContentType (r : HttpResponse) (contentType : Bytes) : HttpResponse :=
  r.addHeader (ascii "Content-Type") contentType

def setBody (r : HttpResponse) (body : Bytes) : HttpResponse := { r with body }

def appendHeader (output : Buffer) (header : Bytes × Bytes) : Traced Buffer.Assertion Buffer := do
  let output ← output.append header.1
  let output ← output.append (ascii ": ")
  let output ← output.append header.2
  output.append (ascii "\r\n")

def appendToBuffer (r : HttpResponse) (output : Buffer) : Traced Buffer.Assertion Buffer := do
  let buf := snprintf (ascii "HTTP/1.1 " ++ decimal.write r.statusCode.toInt ++ ascii " ")
  let output ← output.append buf
  let output ← output.append r.statusMessage
  let output ← output.append (ascii "\r\n")
  let output ←
    if r.closeConnection then output.append (ascii "Connection: close\r\n")
    else do
      let buf := snprintf (ascii "Content-Length: " ++ decimal.write r.body.length ++ ascii "\r\n")
      let output ← output.append buf
      output.append (ascii "Connection: Keep-Alive\r\n")
  let output ← r.headers.entries.foldlM appendHeader output
  let output ← output.append (ascii "\r\n")
  output.append r.body

/-- `defaultHttpCallback`; it does not look at the request. -/
def defaultHttpCallback (resp : HttpResponse) : HttpResponse :=
  ((resp.setStatusCode .k404NotFound).setStatusMessage (ascii "Not Found")).setCloseConnection true

/-! ## Reading responses -/

/-- A header line: what is in front of the colon, and what comes behind the blank after it. -/
def readField (line : Bytes) : Bytes × Bytes :=
  let colon := line.idxOf (char ':')
  (line.take colon, line.drop (colon + 2))

/-- The header lines up to the empty one, and what comes behind it. -/
def readFields (s : Bytes) : Option (List (Bytes × Bytes) × Bytes) :=
  match _hnext : lines.next s with
  | none => none
  | some (line, rest) =>
      if line = [] then some ([], rest)
      else (readFields rest).map fun r => (readField line :: r.1, r.2)
termination_by s.length
decreasing_by exact lines.shorter _hnext

def statusOf (n : Nat) : Option HttpStatusCode :=
  [.kUnknown, .k200k, .k301MovedPermanently, .k400BadRequest, .k404NotFound].find? (·.toInt = n)

/-- The code and the message of a status line. -/
def readStatus (line : Bytes) : Option (HttpStatusCode × Bytes) :=
  let rest := line.drop (ascii "HTTP/1.1 ").length
  let blank := rest.idxOf (char ' ')
  if ascii "HTTP/1.1 " <+: line then
    ((decimal.read (rest.take blank)).bind statusOf).map fun code => (code, rest.drop (blank + 1))
  else none

/-- The header lines that say how long the response is. -/
def IsFraming (name : Bytes) : Prop :=
  name ∈ [ascii "Connection", ascii "Content-Length", ascii "Transfer-Encoding"]

instance (name : Bytes) : Decidable (IsFraming name) := inferInstanceAs (Decidable (_ ∈ _))

/-- A response, and what comes behind it; if the connection is closed, that is the body. -/
def decode (s : Bytes) : Option (HttpResponse × Bytes) := do
  let (line, rest) ← lines.next s
  let (statusCode, statusMessage) ← readStatus line
  let (fields, rest) ← readFields rest
  let headers := OrderedMap.empty.insertAll (fields.filter fun f => ¬IsFraming f.1)
  if fields.lookup (ascii "Transfer-Encoding") ≠ none then none
  else if fields.lookup (ascii "Connection") = some (ascii "close") then
    pure (⟨headers, statusCode, statusMessage, true, rest⟩, [])
  else do
    let n ← (fields.lookup (ascii "Content-Length")).bind decimal.read
    if n ≤ rest.length then
      pure (⟨headers, statusCode, statusMessage, false, rest.take n⟩, rest.drop n)
    else none

/-- The responses of a stream. -/
inductive Decodes : Bytes → List HttpResponse → Prop
  | nil : Decodes [] []
  | cons {s rest : Bytes} {r : HttpResponse} {rs : List HttpResponse} :
      decode s = some (r, rest) → Decodes rest rs → Decodes s (r :: rs)

/-- The name and the value of a header line. -/
structure IsField (e : Bytes × Bytes) : Prop where
  colon : char ':' ∉ e.1
  name : char '\r' ∉ e.1
  value : char '\r' ∉ e.2

instance (e : Bytes × Bytes) : Decidable (IsField e) :=
  decidable_of_iff (char ':' ∉ e.1 ∧ char '\r' ∉ e.1 ∧ char '\r' ∉ e.2)
    ⟨fun h => ⟨h.1, h.2.1, h.2.2⟩, fun h => ⟨h.1, h.2, h.3⟩⟩

/-- Nothing in the response breaks a line, and the header lines of the map say nothing of its
length. -/
structure WellFormed (r : HttpResponse) : Prop where
  message : ¬kCRLF <:+: r.statusMessage
  fields : ∀ e ∈ r.headers.entries, IsField e
  framing : ∀ e ∈ r.headers.entries, ¬IsFraming e.1
  /-- The length has thirteen digits at most. -/
  short : r.body.length < 10 ^ 13

instance (r : HttpResponse) : Decidable (WellFormed r) :=
  decidable_of_iff (¬kCRLF <:+: r.statusMessage ∧ (∀ e ∈ r.headers.entries, IsField e) ∧
      (∀ e ∈ r.headers.entries, ¬IsFraming e.1) ∧ r.body.length < 10 ^ 13)
    ⟨fun h => ⟨h.1, h.2.1, h.2.2.1, h.2.2.2⟩, fun h => ⟨h.1, h.2, h.3, h.4⟩⟩

/-! ## What is written -/

/-- The header lines in front of those of the map. -/
def framing (r : HttpResponse) : List (Bytes × Bytes) :=
  if r.closeConnection then [(ascii "Connection", ascii "close")]
  else [(ascii "Content-Length", decimal.write r.body.length),
    (ascii "Connection", ascii "Keep-Alive")]

def statusLine (r : HttpResponse) : Bytes :=
  ascii "HTTP/1.1 " ++ decimal.write r.statusCode.toInt ++ ascii " " ++ r.statusMessage

def fieldLine (e : Bytes × Bytes) : Bytes := e.1 ++ ascii ": " ++ e.2

def render (r : HttpResponse) : Bytes :=
  r.statusLine ++ kCRLF ++
    ((r.framing ++ r.headers.entries).flatMap (fun e => fieldLine e ++ kCRLF) ++ kCRLF ++ r.body)

variable {r : HttpResponse} {b : Buffer}

/-- An operation that appends `data`. -/
def Appends (f : Buffer → Traced Buffer.Assertion Buffer) (data : Bytes) : Prop :=
  ∀ b, b.Valid → Buffer.Keeps (f b) (b.content ++ data)

theorem appends_append (data : Bytes) : Appends (fun output => output.append data) data :=
  fun _ h => Buffer.append_keeps h data

theorem Appends.bind {f g : Buffer → Traced Buffer.Assertion Buffer} {data data' : Bytes}
    (hf : Appends f data) (hg : Appends g data') :
    Appends (fun output => f output >>= g) (data ++ data') := by
  intro b h
  obtain ⟨hvalid, hcontent, htrace⟩ := hf b h
  obtain ⟨hvalid', hcontent', htrace'⟩ := hg _ hvalid
  rw [hcontent, List.append_assoc] at hcontent'
  exact ⟨hvalid', hcontent', by rw [Traced.bind_trace, htrace, htrace', List.append_nil]⟩

theorem appends_appendHeader (e : Bytes × Bytes) :
    Appends (fun output => appendHeader output e) (fieldLine e ++ kCRLF) := by
  have h := (appends_append e.1).bind ((appends_append (ascii ": ")).bind
    ((appends_append e.2).bind (appends_append (ascii "\r\n"))))
  have hdata : e.1 ++ (ascii ": " ++ (e.2 ++ ascii "\r\n")) = fieldLine e ++ kCRLF := by
    have hcrlf : ascii "\r\n" = kCRLF := by decide
    simp only [fieldLine, hcrlf, List.append_assoc]
  rwa [hdata] at h

theorem appends_headers (es : List (Bytes × Bytes)) :
    Appends (fun output => es.foldlM appendHeader output)
      (es.flatMap fun e => fieldLine e ++ kCRLF) := by
  induction es with
  | nil => exact fun b h => ⟨h, (List.append_nil _).symm, rfl⟩
  | cons e es ih =>
      simp only [List.foldlM_cons, List.flatMap_cons]
      exact (appends_appendHeader e).bind ih

theorem snprintf_of_le {s : Bytes} (h : s.length ≤ 31) : snprintf s = s :=
  List.take_of_length_le h

/-- The buffers of `snprintf` are long enough. -/
theorem snprintf_status (code : HttpStatusCode) :
    snprintf (ascii "HTTP/1.1 " ++ decimal.write code.toInt ++ ascii " ") =
      ascii "HTTP/1.1 " ++ decimal.write code.toInt ++ ascii " " := by
  have hdigits : (decimal.write code.toInt).length ≤ 3 :=
    decimal.length_write_le (by cases code <;> decide)
  have hfront : (ascii "HTTP/1.1 ").length = 9 := by decide
  have hblank : (ascii " ").length = 1 := by decide
  refine snprintf_of_le ?_
  simp only [List.length_append]
  omega

theorem snprintf_length {n : Nat} (h : n < 10 ^ 13) :
    snprintf (ascii "Content-Length: " ++ decimal.write n ++ ascii "\r\n") =
      ascii "Content-Length: " ++ decimal.write n ++ ascii "\r\n" := by
  have hdigits : (decimal.write n).length ≤ 13 := decimal.length_write_le h
  have hfront : (ascii "Content-Length: ").length = 16 := by decide
  have hcrlf : (ascii "\r\n").length = 2 := by decide
  refine snprintf_of_le ?_
  simp only [List.length_append]
  omega

theorem appends_appendToBuffer (h : r.body.length < 10 ^ 13) :
    Appends r.appendToBuffer r.render := by
  have hcrlf : ascii "\r\n" = kCRLF := by decide
  have hrest := (appends_headers r.headers.entries).bind
    ((appends_append (ascii "\r\n")).bind (appends_append r.body))
  -- The branches differ in the lines between the status line and those of the map.
  have hbehind {f : Buffer → Traced Buffer.Assertion Buffer} (hf : Appends f
      (r.framing.flatMap (fun e => fieldLine e ++ kCRLF) ++
        (r.headers.entries.flatMap (fun e => fieldLine e ++ kCRLF) ++
          (ascii "\r\n" ++ r.body)))) :
      Appends (fun output => do
        let output ← output.append
          (ascii "HTTP/1.1 " ++ decimal.write r.statusCode.toInt ++ ascii " ")
        let output ← output.append r.statusMessage
        let output ← output.append (ascii "\r\n")
        f output) r.render := by
    have happends := (appends_append (ascii "HTTP/1.1 " ++ decimal.write r.statusCode.toInt ++
      ascii " ")).bind ((appends_append r.statusMessage).bind
        ((appends_append (ascii "\r\n")).bind hf))
    have hrender : ascii "HTTP/1.1 " ++ decimal.write r.statusCode.toInt ++ ascii " " ++
        (r.statusMessage ++ (ascii "\r\n" ++ (r.framing.flatMap (fun e => fieldLine e ++ kCRLF) ++
          (r.headers.entries.flatMap (fun e => fieldLine e ++ kCRLF) ++
            (ascii "\r\n" ++ r.body))))) = r.render := by
      simp only [render, statusLine, hcrlf, List.flatMap_append, List.append_assoc]
    rwa [hrender] at happends
  unfold appendToBuffer
  by_cases hclosed : r.closeConnection = true
  · have hclose : r.framing.flatMap (fun e => fieldLine e ++ kCRLF) =
        ascii "Connection: close\r\n" := by
      simp only [framing, hclosed, if_true]
      decide
    rw [hclose] at hbehind
    simp only [snprintf_status, hclosed, if_true]
    exact hbehind ((appends_append _).bind hrest)
  · have hlength : r.framing.flatMap (fun e => fieldLine e ++ kCRLF) =
        ascii "Content-Length: " ++ decimal.write r.body.length ++ ascii "\r\n" ++
          ascii "Connection: Keep-Alive\r\n" := by
      have hname : ascii "Content-Length: " = ascii "Content-Length" ++ ascii ": " := by decide
      have hkeep : ascii "Connection: Keep-Alive\r\n" =
          fieldLine (ascii "Connection", ascii "Keep-Alive") ++ kCRLF := by decide
      rw [hname, hkeep, hcrlf]
      simp [framing, hclosed, fieldLine]
    rw [hlength, List.append_assoc _ (ascii "Connection: Keep-Alive\r\n")] at hbehind
    simp only [snprintf_status, snprintf_length h, hclosed]
    exact hbehind ((appends_append _).bind ((appends_append _).bind hrest))

/-! ## What is read -/

theorem readFields_of_some {s line rest : Bytes} (hnext : lines.next s = some (line, rest)) :
    readFields s =
      if line = [] then some ([], rest)
      else (readFields rest).map fun r => (readField line :: r.1, r.2) := by
  rw [readFields]
  split
  · next hnone => simp [hnext] at hnone
  · next line' rest' hsome =>
      obtain ⟨rfl, rfl⟩ := Prod.mk.inj (Option.some.inj (hnext.symm.trans hsome))
      rfl

theorem IsField.unbroken {e : Bytes × Bytes} (h : IsField e) : ¬kCRLF <:+: fieldLine e := by
  intro hbroken
  have hmem : char '\r' ∈ fieldLine e := hbroken.subset (by decide)
  have hcolon : char '\r' ∉ ascii ": " := by decide
  simp only [fieldLine, List.mem_append] at hmem
  rcases hmem with (hname | hblank) | hvalue
  · exact h.name hname
  · exact hcolon hblank
  · exact h.value hvalue

theorem IsField.read {e : Bytes × Bytes} (h : IsField e) : readField (fieldLine e) = e := by
  have hline : fieldLine e = e.1 ++ char ':' :: (char ' ' :: e.2) := by
    have hcolon : ascii ": " = [char ':', char ' '] := by decide
    simp [fieldLine, hcolon]
  have hidx : (fieldLine e).idxOf (char ':') = e.1.length := by
    rw [hline, List.idxOf_append_of_notMem h.colon, List.idxOf_cons_self, Nat.add_zero]
  have hdrop : (fieldLine e).drop (e.1.length + 2) = e.2 := by
    rw [hline, List.drop_append, List.drop_of_length_le (by omega)]
    simp
  rw [readField, hidx]
  exact Prod.ext (by rw [hline]; exact List.take_left) hdrop

theorem readFields_render (es : List (Bytes × Bytes)) (h : ∀ e ∈ es, IsField e) (rest : Bytes) :
    readFields (es.flatMap (fun e => fieldLine e ++ kCRLF) ++ kCRLF ++ rest) = some (es, rest) := by
  induction es with
  | nil =>
      have hnext : lines.next ([] ++ kCRLF ++ rest) = some ([], rest) :=
        Buffer.lines_next (by decide) rest
      exact readFields_of_some hnext
  | cons e es ih =>
      have hfield := h e List.mem_cons_self
      have hnext := Buffer.lines_next hfield.unbroken
        (es.flatMap (fun e => fieldLine e ++ kCRLF) ++ kCRLF ++ rest)
      have hne : fieldLine e ≠ [] := by
        have hcolon : ascii ": " ≠ [] := by decide
        simp [fieldLine, hcolon]
      rw [List.flatMap_cons, List.append_assoc _ _ kCRLF, List.append_assoc (fieldLine e ++ kCRLF),
        readFields_of_some hnext, if_neg hne, ih fun f hf => h f (List.mem_cons_of_mem _ hf),
        hfield.read]
      rfl

theorem blank_notMem_write (n : Nat) : char ' ' ∉ decimal.write n := by
  intro hmem
  obtain ⟨d, hd, heq⟩ := decimal.exists_digit_of_mem_write hmem
  have hdigit : ∀ d < 10, char ' ' ≠ char '0' + UInt8.ofNat d := by decide
  exact hdigit d hd heq

theorem cr_notMem_write (n : Nat) : char '\r' ∉ decimal.write n := by
  intro hmem
  obtain ⟨d, hd, heq⟩ := decimal.exists_digit_of_mem_write hmem
  have hdigit : ∀ d < 10, char '\r' ≠ char '0' + UInt8.ofNat d := by decide
  exact hdigit d hd heq

theorem readStatus_statusLine (r : HttpResponse) :
    readStatus r.statusLine = some (r.statusCode, r.statusMessage) := by
  have hline : r.statusLine =
      ascii "HTTP/1.1 " ++ (decimal.write r.statusCode.toInt ++ char ' ' :: r.statusMessage) := by
    have hblank : ascii " " = [char ' '] := by decide
    simp [statusLine, hblank]
  have hrest : r.statusLine.drop (ascii "HTTP/1.1 ").length =
      decimal.write r.statusCode.toInt ++ char ' ' :: r.statusMessage := by
    rw [hline, List.drop_left]
  have hidx : (decimal.write r.statusCode.toInt ++ char ' ' :: r.statusMessage).idxOf (char ' ') =
      (decimal.write r.statusCode.toInt).length := by
    rw [List.idxOf_append_of_notMem (blank_notMem_write _), List.idxOf_cons_self, Nat.add_zero]
  have hcode : statusOf r.statusCode.toInt = some r.statusCode := by
    cases r.statusCode <;> decide
  have hfront : ascii "HTTP/1.1 " <+: r.statusLine := hline ▸ List.prefix_append _ _
  have hmessage : (decimal.write r.statusCode.toInt ++ char ' ' :: r.statusMessage).drop
      ((decimal.write r.statusCode.toInt).length + 1) = r.statusMessage := by
    rw [← List.drop_drop, List.drop_left]
    rfl
  simp only [readStatus, hrest, hidx, List.take_left, decimal.read_write, Option.bind_some, hcode,
    if_pos hfront, Option.map_some, hmessage]

/-! ## The round trip -/

theorem isField_framing (r : HttpResponse) : ∀ e ∈ r.framing, IsField e := by
  have hclose : IsField (ascii "Connection", ascii "close") := ⟨by decide, by decide, by decide⟩
  have hkeep : IsField (ascii "Connection", ascii "Keep-Alive") :=
    ⟨by decide, by decide, by decide⟩
  have hlength : IsField (ascii "Content-Length", decimal.write r.body.length) :=
    ⟨show char ':' ∉ ascii "Content-Length" by decide,
      show char '\r' ∉ ascii "Content-Length" by decide, cr_notMem_write _⟩
  intro e he
  unfold framing at he
  split_ifs at he
  · obtain rfl := List.mem_singleton.mp he
    exact hclose
  · rcases List.mem_cons.mp he with rfl | he
    · exact hlength
    · obtain rfl := List.mem_singleton.mp he
      exact hkeep

/-- What is left of the header lines without those that say how long the response is. -/
theorem filter_fields (h : WellFormed r) :
    (r.framing ++ r.headers.entries).filter (fun f => ¬IsFraming f.1) = r.headers.entries := by
  have hframing : r.framing.filter (fun f => ¬IsFraming f.1) = [] := by
    unfold framing
    split_ifs <;> simp [IsFraming]
  have hentries : r.headers.entries.filter (fun f => ¬IsFraming f.1) = r.headers.entries :=
    List.filter_eq_self.mpr fun e he => decide_eq_true (h.framing e he)
  rw [List.filter_append, hframing, hentries, List.nil_append]

theorem lookup_entries (h : WellFormed r) {name : Bytes} (hname : IsFraming name) :
    r.headers.entries.lookup name = none := by
  refine List.lookup_eq_none_iff.mpr fun e he => ?_
  have hne : name ≠ e.1 := fun heq => h.framing e he (heq ▸ hname)
  exact bne_iff_ne.mpr hne

theorem lookup_fields (h : WellFormed r) {name : Bytes} (hname : IsFraming name) :
    (r.framing ++ r.headers.entries).lookup name = r.framing.lookup name := by
  rw [List.lookup_append, lookup_entries h hname, Option.or_none]

/-- What the header lines say of the length. -/
theorem lookup_framing (r : HttpResponse) :
    r.framing.lookup (ascii "Transfer-Encoding") = none ∧
      r.framing.lookup (ascii "Connection") =
        some (if r.closeConnection then ascii "close" else ascii "Keep-Alive") ∧
      (r.closeConnection = false →
        r.framing.lookup (ascii "Content-Length") = some (decimal.write r.body.length)) := by
  have htransfer : (ascii "Transfer-Encoding" == ascii "Content-Length") = false ∧
      (ascii "Transfer-Encoding" == ascii "Connection") = false := by decide
  have hconnection : (ascii "Connection" == ascii "Content-Length") = false := by decide
  by_cases hclosed : r.closeConnection = true
  · simp [framing, hclosed, htransfer]
  · simp [framing, hclosed, List.lookup_cons, htransfer, hconnection]

theorem statusLine_unbroken (h : WellFormed r) : ¬kCRLF <:+: r.statusLine := by
  intro hbroken
  have hline : r.statusLine =
      (ascii "HTTP/1.1 " ++ decimal.write r.statusCode.toInt) ++ char ' ' :: r.statusMessage := by
    have hblank : ascii " " = [char ' '] := by decide
    simp [statusLine, hblank]
  rw [hline] at hbroken
  rcases infix_append_cons (by decide) hbroken with hfront | hmessage
  · have hmem : char '\r' ∈ ascii "HTTP/1.1 " ++ decimal.write r.statusCode.toInt :=
      hfront.subset (by decide)
    rcases List.mem_append.mp hmem with hword | hcode
    · exact absurd hword (by decide)
    · exact cr_notMem_write _ hcode
  · exact h.message hmessage

/-- **A response is read as it was written.**  A client finds the response, and where the next one
begins; if the connection is to be closed, the body is all that follows. -/
theorem decode_render (h : WellFormed r) (rest : Bytes) :
    decode (r.render ++ rest) =
      if r.closeConnection then some ({ r with body := r.body ++ rest }, [])
      else some (r, rest) := by
  have hnext : lines.next (r.render ++ rest) = some (r.statusLine,
      (r.framing ++ r.headers.entries).flatMap (fun e => fieldLine e ++ kCRLF) ++ kCRLF ++
        (r.body ++ rest)) := by
    have hline := Buffer.lines_next (statusLine_unbroken h)
      ((r.framing ++ r.headers.entries).flatMap (fun e => fieldLine e ++ kCRLF) ++ kCRLF ++
        (r.body ++ rest))
    have hrender : r.render ++ rest = r.statusLine ++ kCRLF ++
        ((r.framing ++ r.headers.entries).flatMap (fun e => fieldLine e ++ kCRLF) ++ kCRLF ++
          (r.body ++ rest)) := by
      simp only [render, List.append_assoc]
    rwa [hrender]
  have hfields := readFields_render (r.framing ++ r.headers.entries) (fun e he => by
    rcases List.mem_append.mp he with he | he
    · exact isField_framing r e he
    · exact h.fields e he) (r.body ++ rest)
  obtain ⟨htransfer, hconnection, hlength⟩ := lookup_framing r
  have htransfer' := (lookup_fields h (by decide)).trans htransfer
  have hconnection' := (lookup_fields h (by decide)).trans hconnection
  have hmap := OrderedMap.insertAll_entries r.headers
  rw [decode]
  simp only [hnext, Option.bind_eq_bind, Option.bind_some, readStatus_statusLine, hfields,
    htransfer', hconnection', filter_fields h, hmap, ne_eq, not_true_eq_false, if_false]
  by_cases hclosed : r.closeConnection = true
  · simp only [hclosed, if_true, pure]
  · have hopen : r.closeConnection = false := Bool.eq_false_iff.mpr hclosed
    have hlength' := (lookup_fields h (by decide)).trans (hlength hopen)
    have hne : some (ascii "Keep-Alive") ≠ some (ascii "close") := by decide
    have hfits : r.body.length ≤ (r.body ++ rest).length := by simp
    simp only [hopen, Bool.false_eq_true, if_false, hne, hlength', Option.bind_some,
      decimal.read_write, hfits, if_true, List.take_left, List.drop_left, pure]
    rw [← hopen]

/-- Only the last response may close the connection. -/
theorem decodes_render {rs : List HttpResponse} (h : ∀ r ∈ rs, WellFormed r)
    (hopen : ∀ r ∈ rs.dropLast, r.closeConnection = false) :
    Decodes (rs.flatMap render) rs := by
  induction rs with
  | nil => exact .nil
  | cons r rs ih =>
      have hr := h r List.mem_cons_self
      have hrest : ∀ r ∈ rs, WellFormed r := fun r' hr' => h r' (List.mem_cons_of_mem _ hr')
      have hdecode := decode_render hr (rs.flatMap render)
      rw [List.flatMap_cons]
      cases rs with
      | nil =>
          refine .cons (hdecode.trans ?_) .nil
          rw [List.flatMap_nil, List.append_nil]
          exact ite_self _
      | cons r' rs =>
          have hkeep : r.closeConnection = false := hopen r (by simp)
          rw [hkeep] at hdecode
          refine .cons hdecode (ih hrest fun q hq => hopen q ?_)
          rw [List.dropLast_cons_cons]
          exact List.mem_cons_of_mem _ hq

/-- **The responses on a connection can be told apart.**  Whatever responses are appended to a
buffer, a client reads from the bytes those responses again, as long as only the last one closes the
connection. -/
theorem responses_decoded {rs : List HttpResponse} (h : ∀ r ∈ rs, WellFormed r)
    (hopen : ∀ r ∈ rs.dropLast, r.closeConnection = false) (hb : b.Valid) :
    ∃ data, Buffer.Keeps (rs.foldlM (fun output r => r.appendToBuffer output) b)
        (b.content ++ data) ∧ Decodes data rs := by
  refine ⟨rs.flatMap render, ?_, decodes_render h hopen⟩
  clear hopen
  have happends : Appends (fun output => rs.foldlM (fun output r => r.appendToBuffer output) output)
      (rs.flatMap render) := by
    induction rs with
    | nil => exact fun b h => ⟨h, (List.append_nil _).symm, rfl⟩
    | cons r rs ih =>
        simp only [List.foldlM_cons, List.flatMap_cons]
        exact (appends_appendToBuffer (h r List.mem_cons_self).short).bind
          (ih fun r' hr' => h r' (List.mem_cons_of_mem _ hr'))
  exact happends b hb

/-- A response with a body, and one that closes the connection. -/
def okThenNotFound : List HttpResponse :=
  [((((create false).setStatusCode .k200k).setStatusMessage (ascii "OK")).setContentType
    (ascii "text/plain")).setBody (ascii "chaonet\r\n"), defaultHttpCallback (create false)]

theorem responses_decoded_okThenNotFound :
    ∃ data, Buffer.Keeps (okThenNotFound.foldlM (fun output r => r.appendToBuffer output)
        Buffer.fresh) (Buffer.fresh.content ++ data) ∧ Decodes data okThenNotFound :=
  responses_decoded (by decide) (by decide) Buffer.fresh_valid

end HttpResponse
end Chaonet
