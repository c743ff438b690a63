import Chaonet.Foundation.Path
import Chaonet.Http.Requests

/-!
# The files that requests name

`onRequest` opens the file whose name is the page root with the path of the request behind it.  It
does not look into the path, so that a request stays inside every page root exactly if its path is
empty, or begins with a slash and does not lead above where it starts (`inside_pageRoot_iff`).
-/

namespace Chaonet

open Foundation

namespace HttpServer

/-! ## Names of files -/

/-- The bytes that `c_str()` points at, as a function of the C library reads them. -/
def cStr (bytes : Bytes) : Bytes := bytes.takeWhile (· ≠ 0)

def component (w : Bytes) : Option (Component Bytes) :=
  if w = [] ∨ w = ascii "." then none
  else if w = ascii ".." then some .up
  else some (.name w)

def components (path : Bytes) : List (Component Bytes) :=
  (path.splitOn (char '/')).filterMap component

def isAbsolute (path : Bytes) : Bool := path.head? = some (char '/')

/-- Where a path leads, without a look at any file. -/
def resolve (path : Bytes) : Place Bytes := Place.walk ⟨isAbsolute path, 0, []⟩ (components path)

theorem components_append_slash (u v : Bytes) :
    components (u ++ char '/' :: v) = components u ++ components v := by
  rw [components, List.splitOn_append_cons_self, List.filterMap_append]
  rfl

theorem components_of_noSlash {w : Bytes} (h : char '/' ∉ w) :
    components w = (component w).toList := by
  rw [components, List.splitOn_eq_singleton h]
  cases hw : component w <;> simp [hw]

theorem components_slash (v : Bytes) : components (char '/' :: v) = components v :=
  components_append_slash [] v

theorem resolve_append_slash {u : Bytes} (h : u ≠ []) (v : Bytes) :
    resolve (u ++ char '/' :: v) = Place.walk (resolve u) (components v) := by
  have habsolute : isAbsolute (u ++ char '/' :: v) = isAbsolute u := by
    rw [isAbsolute, List.head?_append_of_ne_nil _ h, isAbsolute]
  rw [resolve, components_append_slash, Place.walk_append, habsolute, resolve]

/-- A component is not longer than the path. -/
theorem length_le_of_mem_splitOn {a : UInt8} {w path : Bytes} (h : w ∈ path.splitOn a) :
    w.length ≤ path.length := by
  induction path generalizing w with
  | nil =>
      rw [List.splitOn_nil, List.mem_singleton] at h
      rw [h]
  | cons c path ih =>
      -- A separator begins a new component, and any other byte makes the first one longer.
      rw [List.splitOn_cons_eq_if_modifyHead] at h
      split_ifs at h
      · rcases List.mem_cons.mp h with rfl | h
        · exact Nat.zero_le _
        · exact (ih h).trans (Nat.le_succ _)
      · cases hsplit : path.splitOn a with
        | nil => exact absurd hsplit (List.splitOn_ne_nil a path)
        | cons v vs =>
            rw [hsplit, List.modifyHead_cons] at h
            rcases List.mem_cons.mp h with rfl | h
            · exact Nat.succ_le_succ (ih (hsplit ▸ List.mem_cons_self))
            · exact (ih (hsplit ▸ List.mem_cons_of_mem _ h)).trans (Nat.le_succ _)

theorem name_of_component {w a : Bytes} (h : component w = some (.name a)) : w = a := by
  unfold component at h
  split_ifs at h
  · simp at h
  · exact Component.name.inj (Option.some.inj h)

theorem name_length_le {a path : Bytes} (h : .name a ∈ components path) :
    a.length ≤ path.length := by
  obtain ⟨w, hw, hname⟩ := List.mem_filterMap.mp h
  obtain rfl := name_of_component hname
  exact length_le_of_mem_splitOn hw

/-! ## The page root -/

/-- A page root; it names a path, so that it is not empty and has no NUL. -/
structure PageRoot where
  bytes : Bytes
  nonempty : bytes ≠ []
  noNul : 0 ∉ bytes

/-- What `onRequest` puts behind the page root. -/
def page (r : HttpRequest) : Bytes := if r.path = ascii "/" then ascii "/index.html" else r.path

/-- `fileName` of `onRequest`. -/
def fileName (pageRoot : Bytes) (r : HttpRequest) : Bytes := pageRoot ++ page r

/-- The file that is opened is the page root, or lies below it. -/
def Inside (root : PageRoot) (r : HttpRequest) : Prop :=
  Place.Below (resolve root.bytes) (resolve (cStr (fileName root.bytes r)))

/-- What is opened behind the page root is nothing, or begins with a slash and never leads above
where it starts. -/
def StaysInside (r : HttpRequest) : Prop :=
  cStr (page r) = [] ∨
    isAbsolute (cStr (page r)) = true ∧ Place.Descends (components (cStr (page r)))

instance (r : HttpRequest) : Decidable (StaysInside r) := inferInstanceAs (Decidable (_ ∨ _ ∧ _))

/-- The page root ends with a name, `w`: not with a slash, and not with `.` or `..`. -/
structure EndsWithName (root w : Bytes) : Prop where
  noSlash : char '/' ∉ w
  isName : component w = some (.name w)
  parent : ∃ parent, root = parent ++ w ∧ (parent = [] ∨ ∃ u, parent = u ++ [char '/'])

variable {root : PageRoot} {r : HttpRequest} {w : Bytes}

theorem cStr_fileName (root : PageRoot) (r : HttpRequest) :
    cStr (fileName root.bytes r) = root.bytes ++ cStr (page r) := by
  have hall : ∀ c ∈ root.bytes, decide (c ≠ 0) = true := fun c hc =>
    decide_eq_true fun heq => root.noNul (heq ▸ hc)
  rw [cStr, fileName, List.takeWhile_append_of_pos hall, cStr]

theorem inside_of_staysInside (h : StaysInside r) (root : PageRoot) : Inside root r := by
  rw [Inside, cStr_fileName]
  rcases h with hempty | ⟨hslash, hdescends⟩
  · rw [hempty, List.append_nil]
    exact ⟨rfl, rfl, List.suffix_rfl⟩
  · obtain ⟨v, hpage⟩ : ∃ v, cStr (page r) = char '/' :: v := by
      cases hpage : cStr (page r) with
      | nil => simp [hpage, isAbsolute] at hslash
      | cons c v =>
          rw [hpage] at hslash
          exact ⟨v, by rw [Option.some.inj (of_decide_eq_true hslash)]⟩
    rw [hpage, components_slash] at hdescends
    rw [hpage, resolve_append_slash root.nonempty]
    exact Place.below_walk hdescends _

theorem components_append_of_directory {parent : Bytes}
    (h : parent = [] ∨ ∃ u, parent = u ++ [char '/']) (v : Bytes) :
    components (parent ++ v) = components parent ++ components v := by
  have hnil : components [] = [] := rfl
  rcases h with rfl | ⟨u, rfl⟩
  · rw [hnil, List.nil_append, List.nil_append]
  · rw [List.append_assoc, List.singleton_append, components_append_slash, components_append_slash,
      hnil, List.append_nil]

/-- The last name of the page root is no component any more when bytes are written behind it. -/
theorem name_notMem_append (hw : char '/' ∉ w) {c : UInt8} (hc : c ≠ char '/') {v : Bytes}
    (h : .name w ∉ components (c :: v)) : .name w ∉ components (w ++ c :: v) := by
  have hfirst {u : Bytes} (hu : char '/' ∉ u) (hne : u ≠ []) : .name w ∉ components (w ++ u) := by
    have hnoSlash : char '/' ∉ w ++ u := by
      rw [List.mem_append, not_or]
      exact ⟨hw, hu⟩
    rw [components_of_noSlash hnoSlash, Option.mem_toList]
    intro hname
    exact hne (List.append_right_eq_self.mp (name_of_component hname))
  by_cases hslash : char '/' ∈ c :: v
  · obtain ⟨u, behind, heq, hu⟩ := List.eq_append_cons_of_mem hslash
    have hne : u ≠ [] := by
      rintro rfl
      exact hc (List.cons.inj heq).1
    rw [heq, components_append_slash, List.mem_append, not_or] at h
    rw [heq, ← List.append_assoc, components_append_slash, List.mem_append, not_or]
    exact ⟨hfirst hu hne, h.2⟩
  · exact hfirst hslash (List.cons_ne_nil _ _)

/-- A page root that ends with a name which the path does not have. -/
theorem inside_iff (hroot : EndsWithName root.bytes w)
    (hapart : .name w ∉ components (cStr (page r))) : Inside root r ↔ StaysInside r := by
  refine ⟨fun hinside => ?_, fun h => inside_of_staysInside h root⟩
  obtain ⟨hnoSlash, hname, parent, hparent, hdirectory⟩ := hroot
  -- The name of the page root is the innermost one where the path begins.
  have hresolve : resolve root.bytes =
      ⟨(Place.walk ⟨isAbsolute root.bytes, 0, []⟩ (components parent)).absolute,
        (Place.walk ⟨isAbsolute root.bytes, 0, []⟩ (components parent)).ups,
        w :: (Place.walk ⟨isAbsolute root.bytes, 0, []⟩ (components parent)).names⟩ := by
    rw [resolve, hparent, components_append_of_directory hdirectory, Place.walk_append,
      components_of_noSlash hnoSlash, hname]
    rfl
  rw [Inside, cStr_fileName] at hinside
  cases hpage : cStr (page r) with
  | nil => exact .inl hpage
  | cons c v =>
      rw [hpage] at hinside hapart
      by_cases hc : c = char '/'
      · subst hc
        rw [components_slash] at hapart
        right
        rw [hpage, components_slash]
        refine ⟨rfl, ?_⟩
        by_contra hclimbs
        rw [resolve_append_slash root.nonempty, hresolve] at hinside
        exact Place.not_below_walk hapart hclimbs hinside
      · -- The page root is not among the components, as its last name has grown.
        have habsolute : isAbsolute (root.bytes ++ c :: v) = isAbsolute root.bytes := by
          rw [isAbsolute, List.head?_append_of_ne_nil _ root.nonempty, isAbsolute]
        have hnames := hinside.names
        rw [hresolve, resolve, habsolute, hparent, List.append_assoc,
          components_append_of_directory hdirectory, Place.walk_append] at hnames
        refine absurd hnames (Place.not_suffix_walk (name_notMem_append hnoSlash hc hapart) ?_)
        intro hsuffix
        exact absurd hsuffix.length_le (Nat.not_succ_le_self _)

/-- A page root with a name that is too long to be in the path. -/
theorem exists_apart (r : HttpRequest) :
    ∃ root : PageRoot, EndsWithName root.bytes root.bytes ∧
      .name root.bytes ∉ components (cStr (page r)) := by
  -- A component is not longer than the path it is in.
  have hlength := List.length_replicate (n := (cStr (page r)).length + 3) (a := char 'a')
  generalize hw : List.replicate ((cStr (page r)).length + 3) (char 'a') = w at hlength
  have hmem {c : UInt8} (h : c ∈ w) : c = char 'a' := by
    rw [← hw] at h
    exact (List.mem_replicate.mp h).2
  have hlong {v : Bytes} (hv : v.length ≤ 2) : w ≠ v := by
    rintro rfl
    omega
  refine ⟨⟨w, hlong (Nat.zero_le 2), fun h => ?_⟩, ⟨fun h => ?_, ?_, [], rfl, .inl rfl⟩,
    fun h => ?_⟩
  · have hnul : (0 : UInt8) = char 'a' := hmem h
    exact absurd hnul (by decide)
  · have hslash : char '/' = char 'a' := hmem h
    exact absurd hslash (by decide)
  · have hdot : ¬(w = [] ∨ w = ascii ".") :=
      not_or.mpr ⟨hlong (Nat.zero_le 2), hlong (by decide)⟩
    rw [component, if_neg hdot, if_neg (hlong (by decide))]
  · have hle : w.length ≤ (cStr (page r)).length := name_length_le h
    omega

/-- **Which requests stay inside the page root.** -/
theorem inside_pageRoot_iff (r : HttpRequest) :
    ((∀ root : PageRoot, Inside root r) ↔ StaysInside r) ∧
      ∀ (root : PageRoot) (w : Bytes), EndsWithName root.bytes w →
        .name w ∉ components (cStr (page r)) → (Inside root r ↔ StaysInside r) := by
  refine ⟨⟨fun h => ?_, fun h root => inside_of_staysInside h root⟩, fun root w => inside_iff⟩
  obtain ⟨root, hroot, hapart⟩ := exists_apart r
  exact (inside_iff hroot hapart).mp (h root)

/-- The default page root. -/
def defaultRoot : PageRoot := ⟨ascii "./pages", by decide, by decide⟩

theorem defaultRoot_endsWithName : EndsWithName defaultRoot.bytes (ascii "pages") :=
  ⟨by decide, by decide, ascii "./", rfl, .inr ⟨ascii ".", rfl⟩⟩

theorem inside_pageRoot_index : Inside defaultRoot { HttpRequest.fresh with path := ascii "/" } :=
  ((inside_pageRoot_iff _).2 defaultRoot _ defaultRoot_endsWithName (by decide)).mpr (by decide)

/-- A request for a file above the page root. -/
def getPasswd : Request where
  line := ascii "GET /../etc/passwd HTTP/1.1"
  headers := []
  line_accepted := by decide
  line_unbroken := by decide
  headers_colon := by decide
  headers_unbroken := by decide

theorem not_inside_passwd :
    ∃ (buf : Buffer) (s : HttpContext.ParseState), buf.content = getPasswd.bytes ∧
      Loop (HttpContext.parseStep 8) (HttpContext.parseStart .fresh buf) [] s ∧
        s.ok = true ∧ s.context.gotAll ∧ ¬Inside defaultRoot s.context.request := by
  obtain ⟨buf, hvalid, hcontent⟩ := Buffer.exists_content getPasswd.bytes
  obtain ⟨buf', hloop, -⟩ :=
    Request.parse_bytes hvalid (hcontent.trans (List.append_nil _).symm) 8
  refine ⟨_, _, hcontent, hloop, rfl, rfl, fun hinside => ?_⟩
  have hnames : (resolve defaultRoot.bytes).names <:+
      (resolve (cStr (fileName defaultRoot.bytes (getPasswd.parsed 8)))).names := hinside.names
  exact absurd hnames (by decide)

end HttpServer
end Chaonet
