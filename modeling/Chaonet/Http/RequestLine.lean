import Chaonet.Http.HttpContext

/-!
# The request line

A request line is a method, a target and a version with one space between them.  `RequestLine`
is such a line before it is written down, and `processRequestLine` accepts what `render` writes
and nothing else (`processRequestLine_accepts`).
-/

namespace Chaonet

open Foundation

/-- What `methodString()` returns for a method. -/
def Method.string : Method → Bytes
  | .kInvalid => ascii "UNKNOWN"
  | .kGet => ascii "GET"
  | .kPost => ascii "POST"
  | .kHead => ascii "HEAD"
  | .kPut => ascii "PUT"
  | .kDelete => ascii "DELETE"

/-- The bytes that name a version; there are none for `kUnknown`. -/
def Version.string : Version → Bytes
  | .kUnknown => []
  | .kHttp10 => ascii "HTTP/1.0"
  | .kHttp11 => ascii "HTTP/1.1"

namespace HttpRequest

theorem methodOf_string {m : Method} (h : m ≠ .kInvalid) : methodOf m.string = m := by
  cases m with
  | kInvalid => exact absurd rfl h
  | kGet | kPost | kHead | kPut | kDelete => decide

theorem string_methodOf {w : Bytes} (h : methodOf w ≠ .kInvalid) : (methodOf w).string = w := by
  unfold methodOf at h ⊢
  split_ifs at h ⊢ with hget hpost hhead hput hdelete
  · exact hget.symm
  · exact hpost.symm
  · exact hhead.symm
  · exact hput.symm
  · exact hdelete.symm
  · exact absurd rfl h

theorem space_notMem_method (m : Method) : char ' ' ∉ m.string := by
  cases m <;> decide

end HttpRequest

namespace HttpContext

open HttpRequest

/-! ## Where the searches stop -/

theorem processRequestLine_noSpace (r : HttpRequest) {line : Bytes} (h : char ' ' ∉ line) :
    processRequestLine r line = ⟨(false, r), []⟩ :=
  if_neg (not_not.mpr (List.idxOf_eq_length h))

/-- The word before the first space is set as the method in any case. -/
theorem processRequestLine_word (r : HttpRequest) {w start : Bytes} (h : char ' ' ∉ w) :
    processRequestLine r (w ++ char ' ' :: start) =
      ⟨if methodOf w ≠ .kInvalid ∧ start.idxOf (char ' ') ≠ start.length then
          setProtocol (setTarget { r with method := methodOf w }
            (start.take (start.idxOf (char ' ')))) (start.drop (start.idxOf (char ' ') + 1))
        else (false, { r with method := methodOf w }),
        (Traced.check Assertion.setMethodInvalid (r.method = .kInvalid)).trace⟩ := by
  have hspace : (w ++ char ' ' :: start).idxOf (char ' ') = w.length := by
    rw [List.idxOf_append_of_notMem h, List.idxOf_cons_self, Nat.add_zero]
  have hinside : w.length ≠ (w ++ char ' ' :: start).length := by
    rw [List.length_append, List.length_cons]
    omega
  have htake : (w ++ char ' ' :: start).take w.length = w := List.take_left
  have hdrop : (w ++ char ' ' :: start).drop (w.length + 1) = start := by
    rw [← List.drop_drop, List.drop_left, List.drop_one, List.tail_cons]
  simp only [processRequestLine, hspace, hinside, setMethod, htake, hdrop, ne_eq, not_false_eq_true,
    if_true]
  by_cases hboth : methodOf w ≠ .kInvalid ∧ start.idxOf (char ' ') ≠ start.length
  · simp [hboth, bind, pure]
  · have hboth' : ¬(¬methodOf w = .kInvalid ∧ ¬start.idxOf (char ' ') = start.length) := hboth
    simp [hboth', bind, pure]

theorem processRequestLine_unknown (r : HttpRequest) {w start : Bytes} (h : char ' ' ∉ w)
    (hw : methodOf w = .kInvalid) :
    processRequestLine r (w ++ char ' ' :: start) =
      ⟨(false, { r with method := .kInvalid }),
        (Traced.check Assertion.setMethodInvalid (r.method = .kInvalid)).trace⟩ := by
  simp [processRequestLine_word r h, hw]

theorem processRequestLine_noTarget (r : HttpRequest) {w start : Bytes} (h : char ' ' ∉ w)
    (hstart : char ' ' ∉ start) :
    processRequestLine r (w ++ char ' ' :: start) =
      ⟨(false, { r with method := methodOf w }),
        (Traced.check Assertion.setMethodInvalid (r.method = .kInvalid)).trace⟩ := by
  simp [processRequestLine_word r h, List.idxOf_eq_length hstart]

theorem processRequestLine_target (r : HttpRequest) {w target protocol : Bytes}
    (h : char ' ' ∉ w) (hw : methodOf w ≠ .kInvalid) (htarget : char ' ' ∉ target) :
    processRequestLine r (w ++ char ' ' :: (target ++ char ' ' :: protocol)) =
      ⟨setProtocol (setTarget { r with method := methodOf w } target) protocol,
        (Traced.check Assertion.setMethodInvalid (r.method = .kInvalid)).trace⟩ := by
  have hspace : (target ++ char ' ' :: protocol).idxOf (char ' ') = target.length := by
    rw [List.idxOf_append_of_notMem htarget, List.idxOf_cons_self, Nat.add_zero]
  have hinside : target.length ≠ (target ++ char ' ' :: protocol).length := by
    rw [List.length_append, List.length_cons]
    omega
  have htake : (target ++ char ' ' :: protocol).take target.length = target := List.take_left
  have hdrop : (target ++ char ' ' :: protocol).drop (target.length + 1) = protocol := by
    rw [← List.drop_drop, List.drop_left, List.drop_one, List.tail_cons]
  rw [processRequestLine_word r h, hspace, if_pos ⟨hw, hinside⟩, htake, hdrop]

/-! ## The target and the version -/

/-- The path ends before the first question mark, and the query is what remains. -/
theorem setTarget_eq (r : HttpRequest) (target : Bytes) :
    setTarget r target =
      { r with
        path := target.takeWhile (· ≠ char '?')
        query := if char '?' ∈ target then target.dropWhile (· ≠ char '?') else r.query } := by
  have hpath : target.take (target.idxOf (char '?')) = target.takeWhile (· ≠ char '?') := by
    rw [List.takeWhile_eq_take_findIdx_not]
    simp [List.idxOf, beq_eq_decide]
  have hquery : target.drop (target.idxOf (char '?')) = target.dropWhile (· ≠ char '?') := by
    rw [List.dropWhile_eq_drop_findIdx_not]
    simp [List.idxOf, beq_eq_decide]
  by_cases hquestion : char '?' ∈ target
  · have hinside := (List.idxOf_lt_length_iff.mpr hquestion).ne
    simp [setTarget, hinside, setPath, setQuery, hpath, hquery, hquestion]
  · have hend := List.idxOf_eq_length hquestion
    rw [hend, List.take_length] at hpath
    simp [setTarget, setPath, hquestion]
    simpa using hpath

theorem setProtocol_string (r : HttpRequest) {v : Version} (h : v ≠ .kUnknown) :
    setProtocol r v.string = (true, r.setVersion v) := by
  cases v with
  | kUnknown => exact absurd rfl h
  | kHttp10 => rfl
  | kHttp11 => rfl

theorem setProtocol_accepts {r : HttpRequest} {protocol : Bytes}
    (h : (setProtocol r protocol).1 = true) :
    ∃ v : Version, v ≠ .kUnknown ∧ protocol = v.string := by
  unfold setProtocol at h
  split_ifs at h with hstart hone hzero
  · refine ⟨.kHttp11, by decide, ?_⟩
    rw [← List.take_append_drop 7 protocol, hstart.2, hone]
    decide
  · refine ⟨.kHttp10, by decide, ?_⟩
    rw [← List.take_append_drop 7 protocol, hstart.2, hzero]
    decide

end HttpContext

/-! ## The grammar -/

/-- A request line before it is written down. -/
structure RequestLine where
  method : Method
  target : Bytes
  version : Version
  method_known : method ≠ .kInvalid
  target_noSpace : char ' ' ∉ target
  version_known : version ≠ .kUnknown

namespace RequestLine

open HttpRequest HttpContext

/-- The line as it is written. -/
def render (l : RequestLine) : Bytes :=
  l.method.string ++ [char ' '] ++ l.target ++ [char ' '] ++ l.version.string

/-- What the line says of the request. -/
def request (l : RequestLine) : HttpRequest :=
  { HttpRequest.fresh with
    method := l.method
    version := l.version
    path := l.target.takeWhile (· ≠ char '?')
    query := l.target.dropWhile (· ≠ char '?') }

theorem render_eq (l : RequestLine) :
    l.render = l.method.string ++ char ' ' :: (l.target ++ char ' ' :: l.version.string) := by
  simp [render]

theorem path_append_query (l : RequestLine) : l.request.path ++ l.request.query = l.target :=
  List.takeWhile_append_dropWhile

theorem question_notMem_path (l : RequestLine) : char '?' ∉ l.request.path := by
  intro hmem
  have hne := List.mem_takeWhile_imp hmem
  simp at hne

theorem setTarget_fresh (m : Method) (target : Bytes) :
    setTarget { HttpRequest.fresh with method := m } target =
      { HttpRequest.fresh with
        method := m
        path := target.takeWhile (· ≠ char '?')
        query := target.dropWhile (· ≠ char '?') } := by
  rw [setTarget_eq]
  by_cases hquestion : char '?' ∈ target
  · simp [hquestion]
  · have hall : ∀ c ∈ target, decide (c ≠ char '?') = true := fun c hc =>
      decide_eq_true fun heq => hquestion (heq ▸ hc)
    rw [if_neg hquestion, List.dropWhile_eq_nil_iff.mpr hall]
    rfl

/-- What is written is accepted, and read as what it says. -/
theorem processRequestLine_render (l : RequestLine) :
    processRequestLine .fresh l.render = ⟨(true, l.request), []⟩ := by
  have hmethod := methodOf_string l.method_known
  have hknown : methodOf l.method.string ≠ .kInvalid := by
    rw [hmethod]
    exact l.method_known
  rw [render_eq, processRequestLine_target _ (space_notMem_method _) hknown l.target_noSpace,
    hmethod, setTarget_fresh, setProtocol_string _ l.version_known]
  rfl

/-- What is accepted is written as a request line. -/
theorem exists_render {line : Bytes} (h : IsRequestLine line) :
    ∃ l : RequestLine, line = l.render := by
  -- The cases are where `processRequestLine` gives up: at either space, or at the method.
  rw [IsRequestLine] at h
  by_cases hspace : char ' ' ∈ line
  · obtain ⟨w, start, rfl, hw⟩ := List.eq_append_cons_of_mem hspace
    by_cases hmethod : methodOf w = .kInvalid
    · rw [processRequestLine_unknown _ hw hmethod] at h
      exact absurd h Bool.false_ne_true
    · by_cases hspace' : char ' ' ∈ start
      · obtain ⟨target, protocol, rfl, htarget⟩ := List.eq_append_cons_of_mem hspace'
        rw [processRequestLine_target _ hw hmethod htarget] at h
        obtain ⟨v, hv, rfl⟩ := setProtocol_accepts h
        refine ⟨⟨methodOf w, target, v, hmethod, htarget, hv⟩, ?_⟩
        rw [render_eq, string_methodOf hmethod]
      · rw [processRequestLine_noTarget _ hw hspace'] at h
        exact absurd h Bool.false_ne_true
  · rw [processRequestLine_noSpace _ hspace] at h
    exact absurd h Bool.false_ne_true

/-- The parts of a line are determined by it. -/
theorem render_injective {l l' : RequestLine} (h : l.render = l'.render) : l = l' := by
  -- The request that is parsed has the method and the version, and the target in two parts.
  have hrequest : l.request = l'.request := by
    have heq := congrArg (fun line => (processRequestLine .fresh line).val.2) h
    simpa only [processRequestLine_render] using heq
  have hmethod : l.method = l'.method := congrArg HttpRequest.method hrequest
  have hversion : l.version = l'.version := congrArg HttpRequest.version hrequest
  have htarget : l.target = l'.target := by
    rw [← path_append_query, hrequest, path_append_query]
  cases l
  cases l'
  simp_all

end RequestLine

namespace HttpContext

/-- **The grammar of the request line.**  On a fresh request a line is accepted exactly if it is a
method, a target and a version with one space between them.  These are unique then, and the
request has them. -/
theorem processRequestLine_accepts (line : Bytes) :
    let processed := (processRequestLine .fresh line).val
    (processed.1 = true ↔ ∃ l : RequestLine, line = l.render) ∧
      (processed.1 = true → ∃! l : RequestLine, line = l.render) ∧
      ∀ l : RequestLine, line = l.render →
        processed.2.method = l.method ∧ processed.2.version = l.version ∧
          char '?' ∉ processed.2.path ∧ processed.2.path ++ processed.2.query = l.target := by
  have haccepts : (processRequestLine .fresh line).val.1 = true ↔
      ∃ l : RequestLine, line = l.render := by
    constructor
    · exact RequestLine.exists_render
    · rintro ⟨l, rfl⟩
      rw [RequestLine.processRequestLine_render]
  refine ⟨haccepts, fun h => ?_, ?_⟩
  · obtain ⟨l, rfl⟩ := haccepts.mp h
    exact ⟨l, rfl, fun l' hl' => RequestLine.render_injective hl'.symm⟩
  · rintro l rfl
    rw [RequestLine.processRequestLine_render]
    exact ⟨rfl, rfl, l.question_notMem_path, l.path_append_query⟩

end HttpContext
end Chaonet
