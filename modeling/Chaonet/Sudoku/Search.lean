import Chaonet.Sudoku.Records

/-!
# The search

`traceback` is called for a position when all cells before it have a digit.  It ends either with a
solution on the board, or with the tables as they stood for the assignment before the call, and
there is no solution then (`traceback_outcome`).  The induction is on the number of cells that are
left; for one cell it is on the digits that are still to be tried.
-/

namespace Chaonet

open Foundation

open Assignment (Apart Free Solves Solvable)

namespace Sudoku

/-- The tables stand for the assignment. -/
structure Tracks (s : Sudoku) (a : Assignment Cell Digit) : Prop where
  holds : s.Holds a
  recorded : s.Recorded a

/-- What a search for the assignment comes to: a solution on the board if there is one, and else
the tables stand for the assignment again. -/
structure Outcome (a : Assignment Cell Digit) (x : Traced Outside Sudoku) : Prop where
  inside : x.trace = []
  found : Solvable group a → x.val.solved = true ∧
    ∃ f, Solves group a f ∧ x.val.Holds fun c => some (f c)
  failed : ¬Solvable group a → x.val.solved = false ∧ x.val.Tracks a

variable {s : Sudoku} {a : Assignment Cell Digit} {c : Cell} {d : Digit}

/-! ## One cell -/

theorem curEleValid_eq (h : s.Recorded a) (c : Cell) (d : Digit) :
    ∃ valid, s.curEleValid c.1 c.2 ((d + 1 : Nat) : Int) = pure valid ∧
      (valid = true ↔ a.Free group c d) := by
  obtain ⟨present, heq, hpresent⟩ := recorded_eq h c d
  have hk : ((d + 1 : Nat) : Int) - 1 = (d : Nat) := by omega
  refine ⟨!present, ?_, ?_⟩
  · rw [curEleValid, hk, heq]
    rfl
  · rw [Bool.not_eq_true', ← Bool.not_eq_true, hpresent, not_not]

theorem updateRecord_eq (s : Sudoku) (c : Cell) (d : Digit) :
    s.updateRecord c.1 c.2 ((d + 1 : Nat) : Int) = pure (s.putRecord c d (char 'v')) := by
  have hk : ((d + 1 : Nat) : Int) - 1 = (d : Nat) := by omega
  rw [updateRecord, hk, setRecord_eq]

theorem cancelRecord_eq (s : Sudoku) (c : Cell) (d : Digit) :
    s.cancelRecord c.1 c.2 ((d + 1 : Nat) : Int) = pure (s.putRecord c d (char '0')) := by
  have hk : ((d + 1 : Nat) : Int) - 1 = (d : Nat) := by omega
  rw [cancelRecord, hk, setRecord_eq]

theorem Tracks.assign (h : s.Tracks a) (hc : a c = none) (d : Digit) :
    ((s.put .board c.1 (c.2 : Nat) (charOf (some d))).putRecord c d (char 'v')).Tracks
      (Function.update a c (some d)) :=
  ⟨(h.holds.put c (some d)).putRecord c d _, (h.recorded.put_board _ _ _).assign hc d⟩

theorem Tracks.cancel (h : s.Tracks (Function.update a c (some d))) (hc : a c = none)
    (hfree : a.Free group c d) :
    ((s.put .board c.1 (c.2 : Nat) (char '.')).putRecord c d (char '0')).Tracks a := by
  have hholds := h.holds.put c none
  rw [Function.update_idem, ← hc, Function.update_eq_self] at hholds
  rw [hc] at hholds
  exact ⟨hholds.putRecord c d _, (h.recorded.put_board _ _ _).cancel hc hfree⟩

/-- What the loop of `traceback` has come to after some of the digits. -/
structure Tried (a : Assignment Cell Digit) (c : Cell) (ds : List Digit)
    (x : Traced Outside Sudoku) : Prop where
  inside : x.trace = []
  found : (∃ d ∈ ds, Solvable group (Function.update a c (some d))) → x.val.solved = true ∧
    ∃ f, Solves group a f ∧ x.val.Holds fun c => some (f c)
  failed : (¬∃ d ∈ ds, Solvable group (Function.update a c (some d))) →
    x.val.solved = false ∧ x.val.Tracks a

variable {call : Sudoku → Traced Outside Sudoku}

/-- One digit is tried. -/
theorem tryDigit_tried (h : s.Tracks a) (hapart : Apart group a) (hsolved : s.solved = false)
    (hc : a c = none) (hcall : ∀ s, s.solved = false →
      s.Tracks (Function.update a c (some d)) → Apart group (Function.update a c (some d)) →
        Outcome (Function.update a c (some d)) (call s)) :
    Tried a c [d] (tryDigit call c.1 c.2 s (d + 1)) := by
  obtain ⟨valid, hvalid, hfree⟩ := curEleValid_eq h.recorded c d
  have hsingle : (∃ d' ∈ [d], Solvable group (Function.update a c (some d'))) ↔
      Solvable group (Function.update a c (some d)) := by
    simp
  cases valid with
  | false =>
      -- The source does not try a digit that one of the records has.
      have hnot := Assignment.not_solvable_update hc
        fun hf => Bool.false_ne_true (hfree.mpr hf)
      have hval : tryDigit call c.1 c.2 s (d + 1) = pure s := by
        rw [tryDigit, if_neg (Bool.eq_false_iff.mp hsolved), hvalid]
        rfl
      rw [hval]
      exact ⟨rfl, fun hd => absurd (hsingle.mp hd) hnot, fun _ => ⟨hsolved, h⟩⟩
  | true =>
      have hfree := hfree.mp rfl
      have hassign := h.assign hc d
      generalize hs' :
        (s.put .board c.1 (c.2 : Nat) (charOf (some d))).putRecord c d (char 'v') = s' at hassign
      have hunsolved : s'.solved = false := by
        rw [← hs']
        exact hsolved
      -- The call finds the tables as they stand for the assignment with the digit.
      obtain ⟨hinside, hfound, hfailed⟩ := hcall s' hunsolved hassign (hapart.update hfree)
      have hpure := Traced.eq_pure hinside
      generalize (call s').val = s'' at hfound hfailed hpure
      have hval : tryDigit call c.1 c.2 s (d + 1) = if s''.solved then pure s''
          else pure ((s''.put .board c.1 (c.2 : Nat) (char '.')).putRecord c d (char '0')) := by
        have hput : s.put .board c.1 (c.2 : Nat) (UInt8.ofNat (d + 1) + char '0') =
            s.put .board c.1 (c.2 : Nat) (charOf (some d)) := rfl
        rw [tryDigit, if_neg (Bool.eq_false_iff.mp hsolved), hvalid, pure_bind, if_pos rfl,
          set_eq s .board c.1.isLt c.2.isLt, pure_bind, hput, updateRecord_eq, pure_bind, hs',
          hpure, pure_bind, set_eq s'' .board c.1.isLt c.2.isLt, pure_bind, cancelRecord_eq]
      by_cases hsolvable : Solvable group (Function.update a c (some d))
      · obtain ⟨hdone, f, hf, hboard⟩ := hfound hsolvable
        rw [hval, if_pos hdone]
        refine ⟨rfl, fun _ => ⟨hdone, f, ?_, hboard⟩, fun hno => ?_⟩
        · exact ((Assignment.solves_update_iff hc).mp hf).1
        · exact absurd (hsingle.mpr hsolvable) hno
      · obtain ⟨hundone, htracks⟩ := hfailed hsolvable
        rw [hval, if_neg (Bool.eq_false_iff.mp hundone)]
        exact ⟨rfl, fun hd => absurd (hsingle.mp hd) hsolvable,
          fun _ => ⟨hundone, htracks.cancel hc hfree⟩⟩

theorem foldlM_tryDigit_solved (hsolved : s.solved = true) (i j : Nat) (ks : List Nat) :
    ks.foldlM (tryDigit call i j) s = pure s := by
  induction ks with
  | nil => rfl
  | cons k ks ih => rw [List.foldlM_cons, tryDigit, if_pos hsolved, pure_bind, ih]

/-- The digits are tried one after the other. -/
theorem foldlM_tried (h : s.Tracks a) (hapart : Apart group a) (hsolved : s.solved = false)
    (hc : a c = none) (ds : List Digit) (hcall : ∀ (d : Digit) (s : Sudoku), s.solved = false →
      s.Tracks (Function.update a c (some d)) → Apart group (Function.update a c (some d)) →
        Outcome (Function.update a c (some d)) (call s)) :
    Tried a c ds ((ds.map fun d : Digit => (d : Nat) + 1).foldlM (tryDigit call c.1 c.2) s) := by
  induction ds generalizing s with
  | nil => exact ⟨rfl, fun hd => by simp at hd, fun _ => ⟨hsolved, h⟩⟩
  | cons d ds ih =>
      obtain ⟨hinside, hfound, hfailed⟩ := tryDigit_tried h hapart hsolved hc (hcall d)
      rw [List.map_cons, List.foldlM_cons, Traced.eq_pure hinside, pure_bind]
      generalize (tryDigit call c.1 c.2 s (d + 1)).val = s' at hfound hfailed
      by_cases hfirst : Solvable group (Function.update a c (some d))
      · obtain ⟨hdone, hboard⟩ := hfound ⟨d, List.mem_singleton_self d, hfirst⟩
        -- The condition `!solved_` skips the digits that are left.
        rw [foldlM_tryDigit_solved hdone]
        exact ⟨rfl, fun _ => ⟨hdone, hboard⟩, fun hno => absurd ⟨d, List.mem_cons_self, hfirst⟩ hno⟩
      · obtain ⟨hundone, htracks⟩ := hfailed (by simpa using hfirst)
        obtain ⟨hinside', hfound', hfailed'⟩ := ih htracks hundone
        have hiff : (∃ d' ∈ d :: ds, Solvable group (Function.update a c (some d'))) ↔
            ∃ d' ∈ ds, Solvable group (Function.update a c (some d')) := by
          simp [hfirst]
        exact ⟨hinside', fun hd => hfound' (hiff.mp hd), fun hno => hfailed' (mt hiff.mpr hno)⟩

/-! ## All cells -/

/-- The cells before the position have a digit. -/
def Filled (a : Assignment Cell Digit) (p : Position) : Prop :=
  ∀ c : Cell, 9 * (c.1 : Nat) + c.2 < 9 * p.i + p.j → a c ≠ none

theorem Filled.update {p : Position} (hfilled : Filled a p) (c : Cell) (d : Digit) :
    Filled (Function.update a c (some d)) p := by
  intro c' hplace
  by_cases hcell : c' = c
  · rw [hcell, Function.update_self]
    exact Option.some_ne_none d
  · rw [Function.update_of_ne hcell]
    exact hfilled c' hplace

theorem Position.place_next (p : Position) (h : p.i ≠ 9) :
    9 * (p.next h).i + (p.next h).j = 9 * p.i + p.j + 1 := by
  have hj := p.j_lt
  unfold next
  split_ifs <;> simp only <;> omega

theorem Position.i_lt (p : Position) (h : p.i ≠ 9) : p.i < 9 := Nat.lt_of_le_of_ne p.i_le h

/-- The cell of a position that is not behind the last one. -/
def Position.cell (p : Position) (h : p.i ≠ 9) : Cell := (⟨p.i, p.i_lt h⟩, ⟨p.j, p.j_lt⟩)

theorem Filled.next {p : Position} (hfilled : Filled a p) (h : p.i ≠ 9)
    (hc : a (p.cell h) ≠ none) : Filled a (p.next h) := by
  intro c hplace
  rw [p.place_next h] at hplace
  by_cases hbefore : 9 * (c.1 : Nat) + c.2 < 9 * p.i + p.j
  · exact hfilled c hbefore
  · have hcell : c = p.cell h := by
      have hj := p.j_lt
      have hc₂ := c.2.isLt
      refine Prod.ext (Fin.ext ?_) (Fin.ext ?_) <;> simp only [Position.cell] <;> omega
    rw [hcell]
    exact hc

/-- **The search.** -/
theorem traceback_outcome {p : Position} (h : s.Tracks a) (hapart : Apart group a)
    (hsolved : s.solved = false) (hfilled : Filled a p) : Outcome a (s.traceback p) := by
  induction hleft : p.left using Nat.strongRecOn generalizing s a p with
  | ind n ih =>
      have hns := Bool.eq_false_iff.mp hsolved
      by_cases hlast : p.i = 9
      · -- Behind the last cell all cells have a digit.
        have htotal : ∀ c, ∃ d, a c = some d := by
          intro c
          have hc₁ := c.1.isLt
          have hc₂ := c.2.isLt
          exact Option.ne_none_iff_exists'.mp (hfilled c (by omega))
        choose f hf using htotal
        have hsolves := Assignment.solves_of_total hapart hf
        rw [traceback, if_neg hns, dif_pos hlast]
        refine ⟨rfl, fun _ => ⟨rfl, f, hsolves, fun c => ?_⟩, fun hno => absurd ⟨f, hsolves⟩ hno⟩
        exact (h.holds c).trans (congrArg charOf (hf c))
      · have hnext : (p.next hlast).left < n := hleft ▸ p.left_next hlast
        have hget : s.get .board p.i p.j = pure (charOf (a (p.cell hlast))) := by
          rw [← h.holds (p.cell hlast)]
          exact get_eq s .board (Nat.lt_of_le_of_ne p.i_le hlast) p.j_lt
        rw [traceback, if_neg hns, dif_neg hlast, hget, pure_bind]
        cases hc : a (p.cell hlast) with
        | some d =>
            rw [if_pos (charOf_ne_dot d)]
            -- A cell with a digit is passed over.
            have hne : a (p.cell hlast) ≠ none := hc ▸ Option.some_ne_none d
            exact ih _ hnext h hapart hsolved (hfilled.next hlast hne) rfl
        | none =>
            have hdigits : [1, 2, 3, 4, 5, 6, 7, 8, 9] =
                (List.finRange 9).map fun d : Digit => (d : Nat) + 1 := by decide
            have hdot : charOf none = char '.' := rfl
            -- The induction hypothesis, for each digit that the cell may get.
            have hcall (d : Digit) (s : Sudoku) (hsolved : s.solved = false)
                (h : s.Tracks (Function.update a (p.cell hlast) (some d)))
                (hapart : Apart group (Function.update a (p.cell hlast) (some d))) :
                Outcome (Function.update a (p.cell hlast) (some d))
                  (s.traceback (p.next hlast)) := by
              refine ih _ hnext h hapart hsolved ((hfilled.update _ d).next hlast ?_) rfl
              rw [Function.update_self]
              exact Option.some_ne_none d
            rw [if_neg (not_not.mpr hdot), hdigits]
            have htried := foldlM_tried h hapart hsolved hc (List.finRange 9) hcall
            have hiff : Solvable group a ↔ ∃ d ∈ List.finRange 9,
                Solvable group (Function.update a (p.cell hlast) (some d)) := by
              rw [Assignment.solvable_update_iff hc]
              simp
            exact ⟨htried.inside, fun hd => htried.found (hiff.mp hd),
              fun hno => htried.failed (mt hiff.mpr hno)⟩

end Sudoku
end Chaonet
