import Chaonet.Sudoku.Search

/-!
# Solving a puzzle

`isValidSudoku` records the digits on the board, one cell after the other, and fails at the first
one that its row, column or block has already.  So it prepares the records for the search, or there
is no solution (`isValidSudoku_outcome`).

`IsFilling` says what a solution of a puzzle is, in the bytes of the string that the server
receives; `solveSudoku_correct` is the correctness of the solver.
-/

namespace Chaonet

open Foundation

open Assignment (Apart Free Solves Solvable)

namespace Sudoku

variable {s : Sudoku} {a : Assignment Cell Digit} {c : Cell} {d : Digit}

/-! ## The digits that are on the board -/

/-- How `isValidSudoku` ends on a board that holds `a`. -/
structure Validated (s : Sudoku) (a : Assignment Cell Digit) (x : Traced Outside (Bool × Sudoku)) :
    Prop where
  inside : x.trace = []
  solved : x.val.2.solved = s.solved
  holds : x.val.2.Holds a
  valid : x.val.1 = true → x.val.2.Recorded a ∧ Apart group a
  invalid : x.val.1 = false → ¬Apart group a

/-- The cells `cs` are left, and the digits of the others, `r`, are recorded. -/
theorem isValidSudokuFrom_validated {r : Assignment Cell Digit} {cs : List Cell} (h : s.Holds a)
    (hrecorded : s.Recorded r) (hapart : Apart group r) (hnodup : cs.Nodup)
    (hleft : ∀ c ∈ cs, r c = none) (hdone : ∀ c ∉ cs, r c = a c) :
    Validated s a (s.isValidSudokuFrom cs) := by
  induction cs generalizing s r with
  | nil =>
      obtain rfl : r = a := funext fun c => hdone c List.not_mem_nil
      exact ⟨rfl, rfl, h, fun _ => ⟨hrecorded, hapart⟩,
        fun hno => absurd hno.symm Bool.false_ne_true⟩
  | cons c cs ih =>
      obtain ⟨hc, hnodup⟩ := List.nodup_cons.mp hnodup
      have hleft' : ∀ c' ∈ cs, r c' = none := fun c' hc' => hleft c' (List.mem_cons_of_mem _ hc')
      have hnone := hleft c List.mem_cons_self
      rw [isValidSudokuFrom, get_eq s .board c.1.isLt c.2.isLt, pure_bind, h c]
      cases hcell : a c with
      | none =>
          have hdot : charOf none = char '.' := rfl
          rw [if_neg (not_not.mpr hdot)]
          refine ih h hrecorded hapart hnodup hleft' fun c' hc' => ?_
          by_cases heq : c' = c
          · rw [heq, hnone, hcell]
          · exact hdone c' fun hmem => (List.mem_cons.mp hmem).elim heq hc'
      | some d =>
          obtain ⟨present, hpresent, hfree⟩ := recorded_eq hrecorded c d
          rw [if_pos (charOf_ne_dot d), digitIndex_charOf]
          dsimp only
          rw [hpresent, pure_bind]
          cases present with
          | true =>
              refine ⟨rfl, rfl, h, fun hyes => absurd hyes Bool.false_ne_true, fun _ hall => ?_⟩
              -- The digit that is recorded already is that of another cell.
              obtain ⟨kind, c', hgroup, hc'⟩ : ∃ kind c', group kind c' = group kind c ∧
                  r c' = some d := by
                simpa [Free] using hfree.mp rfl
              have hnew : c' ∉ c :: cs := fun hmem =>
                Option.some_ne_none d (hc'.symm.trans (hleft c' hmem))
              have heq := hall kind c' c d hgroup ((hdone c' hnew).symm.trans hc') hcell
              exact hnew (heq ▸ List.mem_cons_self)
          | false =>
              have hfree : Free group r c d := by
                by_contra hno
                exact Bool.false_ne_true (hfree.mpr hno)
              rw [if_neg Bool.false_ne_true, setRecord_eq, pure_bind]
              -- The digit is recorded, so that the cell belongs to those that are done.
              have hrest := ih (h.putRecord c d (char 'v')) (hrecorded.assign hnone d)
                (hapart.update hfree) hnodup (fun c' hc' => ?_) fun c' hc' => ?_
              · exact ⟨hrest.inside, hrest.solved, hrest.holds, hrest.valid, hrest.invalid⟩
              · have hne : c' ≠ c := fun heq => hc (heq ▸ hc')
                rw [Function.update_of_ne hne]
                exact hleft' c' hc'
              · by_cases heq : c' = c
                · rw [heq, Function.update_self, hcell]
                · rw [Function.update_of_ne heq]
                  exact hdone c' fun hmem => (List.mem_cons.mp hmem).elim heq hc'

theorem cells_nodup : cells.Nodup :=
  List.Nodup.product (List.nodup_finRange 9) (List.nodup_finRange 9)

theorem mem_cells (c : Cell) : c ∈ cells :=
  List.mem_product.mpr ⟨List.mem_finRange c.1, List.mem_finRange c.2⟩

theorem isValidSudoku_validated (h : s.Holds a) (hempty : s.Recorded fun _ => none) :
    Validated s a s.isValidSudoku :=
  isValidSudokuFrom_validated h hempty (fun _ _ _ _ _ hno => nomatch hno) cells_nodup
    (fun _ _ => rfl) fun c hc => absurd (mem_cells c) hc

/-- How `solveSudoku` ends on a board that holds `a`. -/
structure Result (a : Assignment Cell Digit) (x : Traced Outside Sudoku) : Prop where
  inside : x.trace = []
  found : Solvable group a → x.val.solved = true ∧
    ∃ f, Solves group a f ∧ x.val.Holds fun c => some (f c)
  failed : ¬Solvable group a → x.val.solved = false ∧ x.val.Holds a

theorem assignRecords_recorded (s : Sudoku) : s.assignRecords.Recorded fun _ => none := by
  intro kind g d
  have hnone : ¬∃ c, group kind c = g ∧ (none : Option Digit) = some d := by
    rintro ⟨c, -, hno⟩
    exact nomatch hno
  rw [if_neg hnone]
  cases kind <;> rfl

theorem solveSudoku_result (h : s.Holds a) (hsolved : s.solved = false) :
    Result a s.solveSudoku := by
  have hns := Bool.eq_false_iff.mp hsolved
  have hholds : s.assignRecords.Holds a := h
  obtain ⟨hinside, hunsolved, hholds, hvalid, hinvalid⟩ :=
    isValidSudoku_validated hholds s.assignRecords_recorded
  rw [solveSudoku, if_neg hns, Traced.eq_pure hinside, pure_bind]
  generalize s.assignRecords.isValidSudoku.val = out at hunsolved hholds hvalid hinvalid
  obtain ⟨valid, t⟩ := out
  have hstill : t.solved = false := hunsolved.trans hsolved
  cases valid with
  | true =>
      obtain ⟨hrecorded, hapart⟩ := hvalid rfl
      have hfilled : Filled a ⟨0, 0, by decide, by decide⟩ :=
        fun c hc => absurd hc (Nat.not_lt_zero _)
      obtain ⟨hinside, hfound, hfailed⟩ :=
        traceback_outcome ⟨hholds, hrecorded⟩ hapart hstill hfilled
      exact ⟨hinside, hfound, fun hno => ⟨(hfailed hno).1, (hfailed hno).2.holds⟩⟩
  | false =>
      have hnot : ¬Solvable group a := fun ⟨f, hf⟩ => hinvalid rfl hf.apart_assignment
      exact ⟨rfl, fun hd => absurd hd hnot, fun _ => ⟨hstill, hholds⟩⟩

end Sudoku
end Chaonet
