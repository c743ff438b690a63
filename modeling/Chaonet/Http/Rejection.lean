import Chaonet.Http.HttpServer
import Chaonet.Http.RequestLine

/-!
# What a rejected request leaves

A line that is not a request line stays in the buffer, and `processRequestLine` looks at it again
as soon as more bytes arrive.  What it had recognised of the line was set before, the method
first; so the second look fails the assertion of `setMethod` if the line begins with a method.
`rejected_leavesUsable_iff` says on which lines the parser is left as it was.
-/

namespace Chaonet

open Foundation

open Buffer (lines)

namespace HttpContext

open HttpRequest

/-! ## A line that is looked at -/

theorem takeWhile_word {w : Bytes} (h : char ' ' ∉ w) (start : Bytes) :
    (w ++ char ' ' :: start).takeWhile (· ≠ char ' ') = w := by
  have hall : ∀ c ∈ w, decide (c ≠ char ' ') = true := fun c hc =>
    decide_eq_true fun heq => h (heq ▸ hc)
  rw [List.takeWhile_append_of_pos hall]
  simp

/-- What comes before the first space is the method afterwards. -/
theorem processRequestLine_method (r : HttpRequest) {line : Bytes} (h : char ' ' ∈ line) :
    (processRequestLine r line).val.2.method =
      methodOf (line.takeWhile (· ≠ char ' ')) := by
  obtain ⟨w, start, rfl, hw⟩ := List.eq_append_cons_of_mem h
  rw [takeWhile_word hw, processRequestLine_word r hw]
  split_ifs
  · simp only [setProtocol, setTarget, setVersion, setPath, setQuery]
    split_ifs <;> rfl
  · rfl

/-- The assertion of `setMethod` is reached with the first space. -/
theorem mem_processRequestLine_trace (r : HttpRequest) {line : Bytes} :
    Assertion.setMethodInvalid ∈ (processRequestLine r line).trace ↔
      char ' ' ∈ line ∧ r.method ≠ .kInvalid := by
  by_cases hspace : char ' ' ∈ line
  · obtain ⟨w, start, rfl, hw⟩ := List.eq_append_cons_of_mem hspace
    rw [processRequestLine_word r hw, Traced.mem_check_trace]
    simp
  · rw [processRequestLine_noSpace r hspace]
    simp [hspace]

/-- A line with an unknown method sets nothing else. -/
theorem processRequestLine_unchanged (r : HttpRequest) {line : Bytes}
    (h : char ' ' ∈ line →
      methodOf (line.takeWhile (· ≠ char ' ')) = .kInvalid ∧ r.method = .kInvalid) :
    (processRequestLine r line).val.2 = r := by
  by_cases hspace : char ' ' ∈ line
  · obtain ⟨hunknown, hinvalid⟩ := h hspace
    obtain ⟨w, start, rfl, hw⟩ := List.eq_append_cons_of_mem hspace
    rw [takeWhile_word hw] at hunknown
    rw [processRequestLine_unknown r hw hunknown]
    obtain ⟨method, version, path, query, receiveTime, headers⟩ := r
    obtain rfl : method = .kInvalid := hinvalid
    rfl
  · rw [processRequestLine_noSpace r hspace]

/-! ## A call that returns false -/

/-- Once a request line has been taken, the result stays true. -/
theorem parseStep_ok {s : ParseState} (h : s.buf.Valid) (hok : s.ok = true)
    (hstate : s.context.state ≠ .kExpectRequestLine) (receiveTime : Int) :
    (∃ t es, parseStep receiveTime s = ⟨.inl t, es⟩ ∧
        t.buf.Valid ∧ t.ok = true ∧ t.context.state ≠ .kExpectRequestLine) ∨
      ∃ r es, parseStep receiveTime s = ⟨.inr r, es⟩ ∧ r.ok = true := by
  obtain ⟨⟨state, request⟩, buf, ok, hasMore⟩ := s
  obtain rfl : ok = true := hok
  cases hasMore with
  | false => exact .inr ⟨_, _, parseStep_done _ rfl, rfl⟩
  | true =>
      left
      cases state with
      | kExpectRequestLine => exact absurd rfl hstate
      | kExpectBody | kGotAll => exact ⟨_, _, rfl, h, rfl, hstate⟩
      | kExpectHeaders =>
          cases hnext : lines.next buf.content with
          | none => exact ⟨_, _, parseStep_noHeader _ _ _ h hnext, h, rfl, hstate⟩
          | some out =>
              obtain ⟨l, rest⟩ := out
              by_cases hcolon : char ':' ∈ l
              · obtain ⟨buf', hstep, hvalid, -⟩ :=
                  parseStep_header receiveTime request true h hnext hcolon
                exact ⟨_, _, hstep, hvalid, rfl, hstate⟩
              · obtain ⟨buf', hstep, hvalid, -⟩ :=
                  parseStep_lastLine receiveTime request true h hnext hcolon
                exact ⟨_, _, hstep, hvalid, rfl, by simp⟩

variable {c : HttpContext} {buf : Buffer} {receiveTime : Int} {es : List Event} {s : ParseState}

/-- `parseRequest` returns false only where a request line is expected and the first line of the
buffer is none, and then it has looked at that line and done nothing else. -/
theorem rejected_iff (h : buf.Valid) :
    (Loop (parseStep receiveTime) (parseStart c buf) es s ∧ s.ok = false) ↔
      ∃ l rest request es', c.state = .kExpectRequestLine ∧
        lines.next buf.content = some (l, rest) ∧
        processRequestLine c.request l = ⟨(false, request), es'⟩ ∧
        s = ⟨⟨.kExpectRequestLine, request⟩, buf, false, false⟩ ∧ es = es'.map .request := by
  obtain ⟨state, request⟩ := c
  -- `ok` is set to false in `kExpectRequestLine` only, and the loop does not come back there.
  have hkeeps : ∀ {t : ParseState} {es : List Event} {r : ParseState}, t.buf.Valid →
      t.ok = true → t.context.state ≠ .kExpectRequestLine →
      Loop (parseStep receiveTime) t es r → r.ok = true := by
    intro t es r hvalid hok hstate hloop
    exact hloop.invariant
      (fun t => t.buf.Valid ∧ t.ok = true ∧ t.context.state ≠ .kExpectRequestLine)
      (fun r => r.ok = true)
      (fun t ht => parseStep_ok ht.1 ht.2.1 ht.2.2 receiveTime) ⟨hvalid, hok, hstate⟩
  constructor
  · rintro ⟨hloop, hok⟩
    have hstate : state = .kExpectRequestLine := by
      by_contra hstate
      have htrue := hkeeps (t := parseStart ⟨state, request⟩ buf) h rfl hstate hloop
      exact absurd (hok.symm.trans htrue) Bool.false_ne_true
    subst hstate
    cases hnext : lines.next buf.content with
    | none =>
        have hexit : Loop (parseStep receiveTime)
            (parseStart ⟨.kExpectRequestLine, request⟩ buf) ([] ++ [])
            ⟨⟨.kExpectRequestLine, request⟩, buf, true, false⟩ :=
          .again (parseStep_noRequestLine _ _ _ h hnext) (.exit (parseStep_done _ rfl))
        obtain ⟨-, rfl⟩ := hloop.unique hexit
        exact absurd hok.symm Bool.false_ne_true
    | some out =>
        obtain ⟨l, rest⟩ := out
        cases hprocess : processRequestLine request l with
        | mk out es' =>
            obtain ⟨known, request'⟩ := out
            cases known with
            | true =>
                obtain ⟨buf', hstep, hvalid, -⟩ :=
                  parseStep_requestLine receiveTime true h hnext hprocess
                obtain ⟨es'', -, hrest⟩ := hloop.rest hstep
                have htrue := hkeeps hvalid rfl (by simp) hrest
                exact absurd (hok.symm.trans htrue) Bool.false_ne_true
            | false =>
                have hexit := Loop.again
                  (parseStep_badRequestLine receiveTime true h hnext hprocess)
                  (.exit (parseStep_done receiveTime rfl))
                obtain ⟨rfl, rfl⟩ := hloop.unique hexit
                exact ⟨l, rest, request', es', rfl, rfl, hprocess, rfl, List.append_nil _⟩
  · rintro ⟨l, rest, request', es', hstate, hnext, hprocess, rfl, rfl⟩
    obtain rfl : state = .kExpectRequestLine := hstate
    have hexit := Loop.again (parseStep_badRequestLine receiveTime true h hnext hprocess)
      (.exit (parseStep_done receiveTime rfl))
    rw [List.append_nil] at hexit
    exact ⟨hexit, rfl⟩

/-- The call of `parseRequest` that led to `s` has changed neither the context nor the buffer, and
when more bytes have been received the next call does not fail the assertion of `setMethod`. -/
structure LeavesUsable (c : HttpContext) (buf : Buffer) (s : ParseState) : Prop where
  context : s.context = c
  buffer : s.buf = buf
  next (more : HttpServer.Received) {es : List Event} {t : ParseState} :
    Loop (parseStep more.receiveTime)
        (parseStart s.context (s.buf.readFd (some more.data)).val.2) es t →
      .request .setMethodInvalid ∉ es

/-- The next call looks at the rejected line again, in the request that this one has left. -/
theorem rejected_again (h : buf.Valid) {l rest : Bytes}
    (hnext : lines.next buf.content = some (l, rest)) (hline : ¬IsRequestLine l)
    (request : HttpRequest) (more : HttpServer.Received) :
    Loop (parseStep more.receiveTime)
      (parseStart ⟨.kExpectRequestLine, request⟩ (buf.readFd (some more.data)).val.2)
      ((processRequestLine request l).trace.map .request)
      ⟨⟨.kExpectRequestLine, (processRequestLine request l).val.2⟩,
        (buf.readFd (some more.data)).val.2, false, false⟩ := by
  obtain ⟨⟨hvalid, hcontent, -⟩, -⟩ := Buffer.readFd_keeps h more.data
  rw [Traced.map_val] at hvalid hcontent
  have hnext' := lines.stable hnext more.data
  rw [← hcontent] at hnext'
  have hrejected : (processRequestLine request l).val.1 = false := by
    rw [← Bool.not_eq_true, processRequestLine_fst]
    exact hline
  refine ((rejected_iff hvalid).mpr ⟨l, rest ++ more.data, _, _, rfl, hnext', ?_, rfl, rfl⟩).1
  rw [← hrejected]

theorem leavesUsable_iff (h : buf.Valid) {l rest : Bytes}
    (hnext : lines.next buf.content = some (l, rest)) (hline : ¬IsRequestLine l)
    (request request' : HttpRequest) :
    LeavesUsable ⟨.kExpectRequestLine, request⟩ buf
        ⟨⟨.kExpectRequestLine, request'⟩, buf, false, false⟩ ↔
      request' = request ∧ (char ' ' ∈ l → request'.method = .kInvalid) := by
  have hagain := rejected_again h hnext hline request'
  constructor
  · rintro ⟨hcontext, -, hasserts⟩
    refine ⟨congrArg HttpContext.request hcontext, fun hspace => ?_⟩
    by_contra hmethod
    have hfails := (mem_processRequestLine_trace request').mpr ⟨hspace, hmethod⟩
    -- Any byte will do for `onMessage` to look at the line again.
    exact hasserts ⟨[10], List.cons_ne_nil _ _, 0⟩ (hagain _) (List.mem_map_of_mem hfails)
  · rintro ⟨rfl, hinvalid⟩
    refine ⟨rfl, rfl, fun more es t hloop hmem => ?_⟩
    obtain ⟨rfl, -⟩ := hloop.unique (hagain more)
    obtain ⟨e, hfails, heq⟩ := List.mem_map.mp hmem
    obtain rfl : e = .setMethodInvalid := Event.request.inj heq
    obtain ⟨hspace, hmethod⟩ := (mem_processRequestLine_trace request').mp hfails
    exact hmethod (hinvalid hspace)

/-- **What a rejected request leaves.**  If `parseRequest` returns false, the parser is as it was
before the call exactly if the line that was rejected has no space, or what comes before its first
space is no method and none was set. -/
theorem rejected_leavesUsable_iff (h : buf.Valid)
    (hloop : Loop (parseStep receiveTime) (parseStart c buf) es s) (hok : s.ok = false) :
    LeavesUsable c buf s ↔ ∀ l rest, lines.next buf.content = some (l, rest) → char ' ' ∈ l →
      methodOf (l.takeWhile (· ≠ char ' ')) = .kInvalid ∧ c.request.method = .kInvalid := by
  obtain ⟨l, rest, request', es', hstate, hnext, hprocess, rfl, rfl⟩ :=
    (rejected_iff h).mp ⟨hloop, hok⟩
  obtain ⟨state, request⟩ := c
  obtain rfl : state = .kExpectRequestLine := hstate
  have hline : ¬IsRequestLine l := by
    rw [← processRequestLine_fst request, hprocess]
    exact Bool.false_ne_true
  rw [leavesUsable_iff h hnext hline]
  constructor
  · rintro ⟨rfl, hinvalid⟩ l' rest' hnext' hspace
    obtain ⟨rfl, rfl⟩ := Prod.mk.inj (Option.some.inj (hnext.symm.trans hnext'))
    have hmethod := processRequestLine_method request' hspace
    rw [hprocess, hinvalid hspace] at hmethod
    exact ⟨hmethod.symm, hinvalid hspace⟩
  · intro hcondition
    -- Without a space, or with an unknown method, nothing but `kInvalid` has been set.
    have hunchanged := processRequestLine_unchanged request (hcondition l rest hnext)
    rw [hprocess] at hunchanged
    obtain rfl : request' = request := hunchanged
    exact ⟨rfl, fun hspace => (hcondition l rest hnext hspace).2⟩

/-- A buffer that holds a line which is none that a request begins with. -/
theorem exists_rejected {l : Bytes} (hline : ¬IsRequestLine l)
    (hnext : lines.next (l ++ kCRLF) = some (l, [])) :
    ∃ buf : Buffer, buf.Valid ∧ buf.content = l ++ kCRLF ∧
      Loop (parseStep 0) (parseStart .fresh buf) ((processRequestLine .fresh l).trace.map .request)
        ⟨⟨.kExpectRequestLine, (processRequestLine .fresh l).val.2⟩, buf, false, false⟩ := by
  obtain ⟨buf, hvalid, hcontent⟩ := Buffer.exists_content (l ++ kCRLF)
  rw [← hcontent] at hnext
  have hrejected : (processRequestLine .fresh l).val.1 = false := by
    rw [← Bool.not_eq_true]
    exact hline
  refine ⟨buf, hvalid, hcontent,
    ((rejected_iff hvalid).mpr ⟨l, [], _, _, rfl, hnext, ?_, rfl, rfl⟩).1⟩
  rw [← hrejected]
  rfl

/-- An unknown method leaves nothing behind. -/
theorem rejected_leavesUsable_brew :
    ∃ (buf : Buffer) (es : List Event) (s : ParseState),
      buf.content = ascii "BREW / HTTP/1.1\r\n" ∧
        Loop (parseStep 0) (parseStart .fresh buf) es s ∧ s.ok = false ∧
          LeavesUsable .fresh buf s := by
  have hbytes : ascii "BREW / HTTP/1.1\r\n" = ascii "BREW / HTTP/1.1" ++ kCRLF := by decide
  have hsome : lines.next (ascii "BREW / HTTP/1.1" ++ kCRLF) =
      some (ascii "BREW / HTTP/1.1", []) := by decide
  obtain ⟨buf, hvalid, hcontent, hloop⟩ := exists_rejected (by decide) hsome
  refine ⟨buf, _, _, hcontent.trans hbytes.symm, hloop, rfl,
    (rejected_leavesUsable_iff hvalid hloop rfl).mpr fun l rest hnext _ => ?_⟩
  rw [hcontent, hsome] at hnext
  obtain ⟨rfl, rfl⟩ := Prod.mk.inj (Option.some.inj hnext)
  exact ⟨by decide, rfl⟩

/-- The method of a line with an unknown version has been set. -/
theorem not_leavesUsable_http20 :
    ∃ (buf : Buffer) (es : List Event) (s : ParseState),
      buf.content = ascii "GET / HTTP/2.0\r\n" ∧
        Loop (parseStep 0) (parseStart .fresh buf) es s ∧ s.ok = false ∧
          ¬LeavesUsable .fresh buf s := by
  have hbytes : ascii "GET / HTTP/2.0\r\n" = ascii "GET / HTTP/2.0" ++ kCRLF := by decide
  have hsome : lines.next (ascii "GET / HTTP/2.0" ++ kCRLF) =
      some (ascii "GET / HTTP/2.0", []) := by decide
  obtain ⟨buf, hvalid, hcontent, hloop⟩ := exists_rejected (by decide) hsome
  refine ⟨buf, _, _, hcontent.trans hbytes.symm, hloop, rfl, fun husable => ?_⟩
  have hmethod : (processRequestLine .fresh (ascii "GET / HTTP/2.0")).val.2.method = .kInvalid :=
    congrArg (fun c : HttpContext => c.request.method) husable.context
  exact absurd hmethod (by decide)

end HttpContext
end Chaonet
