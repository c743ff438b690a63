import Chaonet.Http.Requests

/-!
# A request as it is written and read

`Header` is a header that has one spelling: no white space around the value, and no colon in the
name.  What is written with such headers is read as it was (`parseRequest_render`).
-/

namespace Chaonet

open Foundation

/-- A header as it is written down. -/
structure Header where
  name : Bytes
  value : Bytes
  name_noColon : char ':' ∉ name
  name_noBreak : char '\r' ∉ name ∧ char '\n' ∉ name
  value_noBreak : char '\r' ∉ value ∧ char '\n' ∉ value
  value_head : ∀ c ∈ value.head?, isspace c = false
  value_last : ∀ c ∈ value.getLast?, isspace c = false

namespace Header

/-- The line of the header. -/
def render (h : Header) : Bytes := h.name ++ ascii ": " ++ h.value

/-- The value of the last header of that name. -/
def valueOf (hs : List Header) (name : Bytes) : Option Bytes :=
  (hs.filter (·.name = name)).getLast?.map (·.value)

theorem colon_mem_render (h : Header) : char ':' ∈ h.render := by
  have hcolon : char ':' ∈ ascii ": " := by decide
  simp [render, hcolon]

theorem cr_notMem_render (h : Header) : char '\r' ∉ h.render := by
  have hsep : char '\r' ∉ ascii ": " := by decide
  simp [render, h.name_noBreak.1, hsep, h.value_noBreak.1]

/-- The colon of the name is found, and the white space around the value is dropped. -/
theorem record_render (h : Header) (r : HttpRequest) :
    HttpContext.record r h.render =
      { r with headers := Function.update r.headers h.name (some h.value) } := by
  have hrender : h.render = h.name ++ char ':' :: (char ' ' :: h.value) := by
    simp [render, ascii]
  have hcolon : h.render.idxOf (char ':') = h.name.length := by
    rw [hrender, List.idxOf_append_of_notMem h.name_noColon, List.idxOf_cons_self, Nat.add_zero]
  have hname : h.render.take h.name.length = h.name := by
    rw [hrender, List.take_left]
  have hvalue : h.render.drop (h.name.length + 1) = char ' ' :: h.value := by
    rw [hrender, ← List.drop_drop, List.drop_left, List.drop_one, List.tail_cons]
  have hhead : (char ' ' :: h.value).dropWhile isspace = h.value := by
    rw [List.dropWhile_cons_of_pos (by decide)]
    cases hfirst : h.value with
    | nil => rfl
    | cons c v =>
        have hspace := h.value_head c (by rw [hfirst]; rfl)
        rw [List.dropWhile_cons_of_neg (by rw [hspace]; exact Bool.false_ne_true)]
  have hlast : h.value.rdropWhile isspace = h.value := by
    refine List.rdropWhile_eq_self_iff.mpr fun hne => ?_
    have hspace := h.value_last _ (List.getLast?_eq_some_getLast hne)
    rw [hspace]
    exact Bool.false_ne_true
  rw [HttpContext.record, HttpRequest.addHeader, hcolon]
  simp only [hname, hvalue, hhead, hlast]

theorem valueOf_append_singleton (hs : List Header) (h : Header) (name : Bytes) :
    valueOf (hs ++ [h]) name = if h.name = name then some h.value else valueOf hs name := by
  by_cases hname : h.name = name
  · simp [valueOf, List.filter_append, hname]
  · simp [valueOf, List.filter_append, hname]

/-- The headers that are recorded one after the other: the last one of a name counts. -/
theorem foldl_record (hs : List Header) (r : HttpRequest) :
    (hs.map render).foldl HttpContext.record r =
      { r with headers := fun name => (valueOf hs name).or (r.headers name) } := by
  -- From the back, as `addHeader` lets the last header of a name count.
  induction hs using List.reverseRecOn with
  | nil => rfl
  | append_singleton hs h ih =>
      rw [List.map_append, List.foldl_append, ih, List.map_singleton, List.foldl_cons,
        List.foldl_nil, record_render]
      congr 1
      funext name
      rw [valueOf_append_singleton]
      by_cases hname : h.name = name
      · subst hname
        simp
      · simp [hname, Function.update_of_ne (Ne.symm hname)]

end Header

/-! ## The request line has no CRLF of its own -/

theorem RequestLine.render_unbroken {l : RequestLine} (h : ¬kCRLF <:+: l.target) :
    ¬kCRLF <:+: l.render := by
  have hspace : char ' ' ∉ kCRLF := by decide
  have hmethod : ¬kCRLF <:+: l.method.string := by
    cases l.method <;> decide
  have hversion : ¬kCRLF <:+: l.version.string := by
    cases l.version <;> decide
  intro hcrlf
  rw [RequestLine.render_eq] at hcrlf
  -- A CRLF has no space, so that it is in one of the three parts.
  rcases infix_append_cons hspace hcrlf with hcrlf | hcrlf
  · exact hmethod hcrlf
  · rcases infix_append_cons hspace hcrlf with hcrlf | hcrlf
    · exact h hcrlf
    · exact hversion hcrlf

/-! ## The request -/

/-- The request that a request line and headers make. -/
def Request.ofParts (l : RequestLine) (hs : List Header) (h : ¬kCRLF <:+: l.target) : Request where
  line := l.render
  headers := hs.map Header.render
  line_accepted := by rw [HttpContext.IsRequestLine, RequestLine.processRequestLine_render]
  line_unbroken := RequestLine.render_unbroken h
  headers_colon line hline := by
    obtain ⟨header, -, rfl⟩ := List.mem_map.mp hline
    exact header.colon_mem_render
  headers_unbroken line hline hcrlf := by
    obtain ⟨header, -, rfl⟩ := List.mem_map.mp hline
    exact header.cr_notMem_render (hcrlf.subset (by decide))

namespace HttpContext

/-- A request with these parts, as it is sent. -/
def renderRequest (l : RequestLine) (hs : List Header) : Bytes :=
  l.render ++ kCRLF ++ hs.flatMap (fun h => h.render ++ kCRLF) ++ kCRLF

/-- **What is written is read as it was.**  The buffer may hold anything behind the request. -/
theorem parseRequest_render {l : RequestLine} (htarget : ¬kCRLF <:+: l.target) (hs : List Header)
    (rest : Bytes) {buf : Buffer} (hvalid : buf.Valid)
    (hcontent : buf.content = renderRequest l hs ++ rest) (receiveTime : Int) :
    ∃ s : ParseState, Loop (parseStep receiveTime) (parseStart .fresh buf) [] s ∧
      s.ok = true ∧ s.context.gotAll ∧
      s.context.request.method = l.method ∧ s.context.request.version = l.version ∧
      s.context.request.path = l.target.takeWhile (· ≠ char '?') ∧
      s.context.request.query = l.target.dropWhile (· ≠ char '?') ∧
      (∀ name, s.context.request.headers name = Header.valueOf hs name) ∧
      s.buf.content = rest := by
  let q := Request.ofParts l hs htarget
  have hbytes : buf.content = q.bytes ++ rest := by
    rw [hcontent, renderRequest, Request.bytes]
    simp [q, Request.ofParts, List.flatMap_map]
  obtain ⟨buf', hloop, -, hrest⟩ := Request.parse_bytes hvalid hbytes receiveTime
  have hparsed : q.parsed receiveTime =
      { l.request.setReceiveTime receiveTime with headers := Header.valueOf hs } := by
    have hhead : q.head = l.request := by
      rw [Request.head]
      exact congrArg (fun x => x.val.2) l.processRequestLine_render
    rw [Request.parsed, hhead]
    refine (Header.foldl_record hs _).trans ?_
    congr 1
    funext name
    exact Option.or_none
  rw [hparsed] at hloop
  exact ⟨_, hloop, rfl, rfl, rfl, rfl, rfl, rfl, fun _ => rfl, hrest⟩

/-- The request line of a request with a query. -/
def getPageLine : RequestLine where
  method := .kGet
  target := ascii "/page?id=3"
  version := .kHttp11
  method_known := by decide
  target_noSpace := by decide
  version_known := by decide

def hostHeader : Header where
  name := ascii "Host"
  value := ascii "chaonet"
  name_noColon := by decide
  name_noBreak := by decide
  value_noBreak := by decide
  value_head := by
    intro c hc
    cases hc
    decide
  value_last := by
    intro c hc
    cases hc
    decide

theorem parseRequest_render_getPage :
    ∃ (buf : Buffer) (s : ParseState),
      buf.content = ascii "GET /page?id=3 HTTP/1.1\r\nHost: chaonet\r\n\r\nGE" ∧
        Loop (parseStep 6) (parseStart .fresh buf) [] s ∧ s.context.gotAll ∧
          s.context.request.path = ascii "/page" ∧ s.context.request.query = ascii "?id=3" ∧
            s.context.request.headers (ascii "Host") = some (ascii "chaonet") ∧
              s.buf.content = ascii "GE" := by
  obtain ⟨buf, hvalid, hcontent⟩ :=
    Buffer.exists_content (renderRequest getPageLine [hostHeader] ++ ascii "GE")
  have hbytes : renderRequest getPageLine [hostHeader] ++ ascii "GE" =
      ascii "GET /page?id=3 HTTP/1.1\r\nHost: chaonet\r\n\r\nGE" := by decide
  obtain ⟨s, hloop, -, hgot, -, -, hpath, hquery, hheaders, hrest⟩ :=
    parseRequest_render (by decide) [hostHeader] (ascii "GE") hvalid hcontent 6
  refine ⟨_, s, hcontent.trans hbytes, hloop, hgot, ?_, ?_, ?_, hrest⟩
  · rw [hpath]
    decide
  · rw [hquery]
    decide
  · rw [hheaders]
    decide

end HttpContext
end Chaonet
