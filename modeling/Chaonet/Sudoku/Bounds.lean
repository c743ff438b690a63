import Chaonet.Sudoku.Filling

/-!
# Bytes that are no cells

`update` puts any byte on the board.  `isValidSudoku` takes a byte that is not a dot for a digit, so
that one that is neither gives an index outside of the records; before it, two equal digits in one
row, column or block end the function.  The solver keeps to its tables exactly if each such byte
stands behind two such digits (`solveSudoku_inside_iff`).
-/

namespace Chaonet

open Foundation

open Assignment (Apart Free)

namespace Sudoku

/-- The value of `si` for a cell. -/
def siOf (c : Cell) : Nat := 9 * (c.1 : Nat) + c.2

def byteAt (str : Bytes) (c : Cell) : UInt8 := str.getD (siOf c) 0

/-- The digits that are given for the first `n` cells. -/
def givens (str : Bytes) (n : Nat) : Assignment Cell Digit :=
  fun c => if siOf c < n then assignmentOf str c else none

/-- A byte that is neither a digit nor a dot stands behind two equal digits of one row, column or
block. -/
def Shielded (str : Bytes) (c : Cell) : Prop :=
  ¬IsCell (byteAt str c) → ¬Apart group (givens str (siOf c))

variable {s : Sudoku} {str : Bytes} {c : Cell} {n : Nat}

/-! ## The cells in their order -/

theorem siOf_lt (c : Cell) : siOf c < 81 := by
  have hi := c.1.isLt
  have hj := c.2.isLt
  unfold siOf
  omega

theorem siOf_injective : Function.Injective siOf := by
  intro c c' h
  have hj := c.2.isLt
  have hj' := c'.2.isLt
  unfold siOf at h
  ext <;> omega

theorem length_cells : cells.length = 81 := by
  decide

/-- The cell that is next when `n` are done. -/
theorem siOf_of_drop {cs : List Cell} (h : cells.drop n = c :: cs) : siOf c = n := by
  have hn : n < cells.length := by
    by_contra hno
    rw [List.drop_eq_nil_of_le (Nat.le_of_not_lt hno)] at h
    exact List.cons_ne_nil c cs h.symm
  rw [List.drop_eq_getElem_cons hn] at h
  have hidx := cells_nodup.idxOf_getElem n hn
  rw [(List.cons.inj h).1, idxOf_cells] at hidx
  exact hidx

/-- The digits with that of one more cell. -/
theorem givens_succ (h : siOf c = n) :
    givens str (n + 1) = Function.update (givens str n) c (assignmentOf str c) := by
  funext c'
  by_cases hc : c' = c
  · subst hc
    rw [Function.update_self, givens, if_pos (by omega)]
  · have hne : siOf c' ≠ n := fun heq => hc (siOf_injective (heq.trans h.symm))
    rw [Function.update_of_ne hc]
    unfold givens
    by_cases hbefore : siOf c' < n
    · rw [if_pos hbefore, if_pos (by omega)]
    · rw [if_neg hbefore, if_neg (by omega)]

theorem givens_self (h : siOf c = n) : givens str n c = none := by
  rw [givens, if_neg (by omega)]

/-- Digits that are given once stay given. -/
theorem apart_givens_of_le {m : Nat} (hle : n ≤ m) (h : Apart group (givens str m)) :
    Apart group (givens str n) := by
  refine h.mono fun c d hd => ?_
  unfold givens at hd ⊢
  split_ifs at hd with hbefore
  rw [if_pos (by omega), hd]

/-! ## Bytes -/

/-- A byte that is neither a digit nor a dot has no index in the records. -/
theorem outside_of_not_isCell {b : UInt8} (h : ¬IsCell b) :
    cellOf b ≠ char '.' ∧ ¬(0 ≤ digitIndex (cellOf b) ∧ digitIndex (cellOf b) < 9) := by
  have hbytes : ∀ n < 256, ¬IsCell (UInt8.ofNat n) → cellOf (UInt8.ofNat n) ≠ char '.' ∧
      ¬(0 ≤ digitIndex (cellOf (UInt8.ofNat n)) ∧ digitIndex (cellOf (UInt8.ofNat n)) < 9) := by
    decide +kernel
  have hof := hbytes b.toNat b.toNat_lt
  rw [UInt8.ofNat_toNat] at hof
  exact hof h

theorem recorded_outside (s : Sudoku) (i j : Nat) {idx : Int} (h : ¬(0 ≤ idx ∧ idx < 9)) :
    (s.recorded i j idx).trace ≠ [] := by
  have haccess : (access .rows i idx).trace ≠ [] := by
    rw [access, Traced.bind_trace, Traced.check_trace, Traced.check_trace, if_neg h]
    exact List.append_ne_nil_of_right_ne_nil _ (List.cons_ne_nil _ _)
  have hget : (s.get .rows i idx).trace ≠ [] := by
    rw [get, Traced.bind_trace]
    exact List.append_ne_nil_of_left_ne_nil haccess _
  rw [recorded, Traced.bind_trace]
  exact List.append_ne_nil_of_left_ne_nil hget _

/-! ## The scan of the board -/

/-- The board has the bytes of the string. -/
def Shows (s : Sudoku) (str : Bytes) : Prop :=
  ∀ c : Cell, s.tables .board c.1 (c.2 : Nat) = cellOf (byteAt str c)

theorem Shows.putRecord (h : s.Shows str) (c : Cell) (d : Digit) (ch : UInt8) :
    (s.putRecord c d ch).Shows str := by
  intro c'
  simp only [Sudoku.putRecord, put_tables, reduceCtorEq, false_and, if_false]
  exact h c'

/-- How `isValidSudoku` ends for the cells from number `n` on. -/
structure Scanned (str : Bytes) (n : Nat) (x : Traced Outside (Bool × Sudoku)) : Prop where
  inside : x.trace = [] ↔ ∀ c, n ≤ siOf c → Shielded str c
  accepted : x.trace = [] → x.val.1 = true → ∀ c, n ≤ siOf c → IsCell (byteAt str c)

variable {x : Traced Outside (Bool × Sudoku)}

/-- A digit or a dot is passed. -/
theorem Scanned.of_isCell (h : Scanned str (n + 1) x) (hc : siOf c = n)
    (hcell : IsCell (byteAt str c)) : Scanned str n x := by
  have hcases : ∀ c', n ≤ siOf c' → c' = c ∨ n + 1 ≤ siOf c' := by
    intro c' hle
    by_cases heq : siOf c' = n
    · exact .inl (siOf_injective (heq.trans hc.symm))
    · exact .inr (by omega)
  constructor
  · rw [h.inside]
    constructor
    · intro hall c' hle
      rcases hcases c' hle with rfl | hlater
      · exact fun hno => absurd hcell hno
      · exact hall c' hlater
    · intro hall c' hle
      exact hall c' (by omega)
  · intro hinside hvalid c' hle
    rcases hcases c' hle with rfl | hlater
    · exact hcell
    · exact h.accepted hinside hvalid c' hlater

/-- Two equal digits: what comes later is not looked at. -/
theorem scanned_of_not_apart (h : ¬Apart group (givens str n)) (s : Sudoku) :
    Scanned str n (pure (false, s)) := by
  constructor
  · refine iff_of_true rfl fun c hle _ hapart => ?_
    exact h (apart_givens_of_le hle hapart)
  · intro _ hvalid
    exact absurd hvalid Bool.false_ne_true

/-- A byte that is no cell, with all digits before it apart. -/
theorem scanned_of_outside (hc : siOf c = n) (hcell : ¬IsCell (byteAt str c))
    (hapart : Apart group (givens str n)) (hx : x.trace ≠ []) : Scanned str n x := by
  constructor
  · refine iff_of_false hx fun hall => ?_
    have hshielded := hall c (Nat.le_of_eq hc.symm) hcell
    rw [hc] at hshielded
    exact hshielded hapart
  · intro hinside
    exact absurd hinside hx

/-- The induction is on the cells that are left; the digits of the others are recorded. -/
theorem isValidSudokuFrom_scanned {cs : List Cell} (h : s.Shows str)
    (hrecorded : s.Recorded (givens str n)) (hapart : Apart group (givens str n))
    (hcs : cells.drop n = cs) : Scanned str n (s.isValidSudokuFrom cs) := by
  induction cs generalizing s n with
  | nil =>
      have hn : 81 ≤ n := by
        rw [← length_cells]
        exact List.drop_eq_nil_iff.mp hcs
      have hnone : ∀ c, ¬n ≤ siOf c := fun c hle => by
        have hlt := siOf_lt c
        omega
      constructor
      · exact iff_of_true rfl fun c hle => absurd hle (hnone c)
      · exact fun _ _ c hle => absurd hle (hnone c)
  | cons c cs ih =>
      have hc := siOf_of_drop hcs
      have hrest : cells.drop (n + 1) = cs := by
        rw [← List.drop_drop, hcs, List.drop_one, List.tail_cons]
      have hnone : givens str n c = none := givens_self hc
      rw [isValidSudokuFrom, get_eq s .board c.1.isLt c.2.isLt, pure_bind, h c]
      by_cases hcell : IsCell (byteAt str c)
      · rw [cellOf_eq hcell]
        have hsucc : givens str (n + 1) = Function.update (givens str n) c (assignmentOf str c) :=
          givens_succ hc
        cases hdigit : assignmentOf str c with
        | none =>
            have hdot : charOf (digitOf (byteAt str c)) = char '.' := congrArg charOf hdigit
            rw [hdigit, ← hnone, Function.update_eq_self] at hsucc
            rw [hdot, if_neg (not_not.mpr rfl)]
            exact (ih h (hsucc ▸ hrecorded) (hsucc ▸ hapart) hrest).of_isCell hc hcell
        | some d =>
            have hchar : charOf (digitOf (byteAt str c)) = charOf (some d) := congrArg charOf hdigit
            obtain ⟨present, hpresent, hfree⟩ := recorded_eq hrecorded c d
            rw [hdigit] at hsucc
            rw [hchar, if_pos (charOf_ne_dot d), digitIndex_charOf]
            dsimp only
            rw [hpresent, pure_bind]
            cases present with
            | true =>
                have hclash : ¬Apart group (givens str (n + 1)) := fun hall =>
                  hfree.mp rfl (Assignment.Apart.free hnone (hsucc ▸ hall))
                exact (scanned_of_not_apart hclash s).of_isCell hc hcell
            | false =>
                have hfree : Free group (givens str n) c d := by
                  by_contra hno
                  exact Bool.false_ne_true (hfree.mpr hno)
                rw [if_neg Bool.false_ne_true, setRecord_eq, pure_bind]
                refine (ih (h.putRecord c d _) ?_ ?_ hrest).of_isCell hc hcell
                · rw [hsucc]
                  exact hrecorded.assign hnone d
                · rw [hsucc]
                  exact hapart.update hfree
      · -- The first thing that is done with the index is to look at the record of the row.
        obtain ⟨hdot, houtside⟩ := outside_of_not_isCell hcell
        refine scanned_of_outside hc hcell hapart ?_
        rw [if_pos hdot]
        exact List.append_ne_nil_of_left_ne_nil (recorded_outside s _ _ houtside) _

theorem givens_zero (str : Bytes) : givens str 0 = fun _ => none :=
  funext fun _ => if_neg (Nat.not_lt_zero _)

theorem isValidSudoku_scanned (h : s.Shows str) (hempty : s.Recorded fun _ => none) :
    Scanned str 0 s.isValidSudoku := by
  refine isValidSudokuFrom_scanned h ?_ ?_ rfl
  · rwa [givens_zero]
  · rw [givens_zero]
    exact fun _ _ _ _ _ hno => nomatch hno

/-! ## The solver -/

theorem isCell_of_cells (hsize : 81 ≤ str.length) (hall : ∀ c, IsCell (byteAt str c)) :
    ∀ b ∈ str.take 81, IsCell b := by
  intro b hb
  obtain ⟨i, hi, rfl⟩ := List.mem_take_iff_getElem.mp hb
  have hcell := hall (⟨i / 9, by omega⟩, ⟨i % 9, by omega⟩)
  have hsi : siOf (⟨i / 9, by omega⟩, ⟨i % 9, by omega⟩) = i := Nat.div_add_mod i 9
  rw [byteAt, hsi, List.getD_eq_getElem _ _ (by omega)] at hcell
  exact hcell

/-- The trace of the solver is that of a scan, and that of a search if the scan accepts. -/
theorem exists_scanned (s : Sudoku) (hsize : 81 ≤ str.length) :
    ∃ x, Scanned str 0 x ∧ (s.update str >>= solveSudoku).trace = x.trace ++
      (if x.val.1 then x.val.2.traceback ⟨0, 0, by decide, by decide⟩ else pure x.val.2).trace := by
  obtain ⟨hinside, hsolved, hboard⟩ := s.update_board hsize
  have hshows : (s.update str).val.assignRecords.Shows str := hboard
  refine ⟨_, isValidSudoku_scanned hshows (assignRecords_recorded _), ?_⟩
  rw [Traced.bind_trace, hinside, List.nil_append, solveSudoku,
    if_neg (Bool.eq_false_iff.mp hsolved), Traced.bind_trace]

/-- **The tables.**  On a string of 81 characters or more, all indexes are between 0 and 8 exactly
if each byte that is neither a digit nor a dot stands behind two equal digits. -/
theorem solveSudoku_inside_iff (s : Sudoku) (hsize : 81 ≤ str.length) :
    (s.update str >>= solveSudoku).trace = [] ↔ ∀ c, Shielded str c := by
  obtain ⟨x, hscan, htrace⟩ := s.exists_scanned hsize
  constructor
  · intro hinside c
    rw [htrace, List.append_eq_nil_iff] at hinside
    exact hscan.inside.mp hinside.1 c (Nat.zero_le _)
  · intro hall
    have hinside := hscan.inside.mpr fun c _ => hall c
    cases hvalid : x.val.1 with
    | true =>
        -- The search is entered only with digits and dots on the board.
        have hcells := hscan.accepted hinside hvalid
        exact s.solveSudoku_inside hsize (isCell_of_cells hsize fun c => hcells c (Nat.zero_le _))
    | false =>
        rw [htrace, hinside, hvalid]
        rfl

/-- A letter behind two equal digits. -/
def letterBehind : Bytes := ascii "11a" ++ List.replicate 78 (char '.')

theorem solveSudoku_inside_iff_letterBehind :
    (fresh.update letterBehind >>= solveSudoku).trace = [] := by
  refine (solveSudoku_inside_iff fresh (by decide)).mpr fun c hcell hapart => ?_
  have hgivens (j : Fin 9) (hj : (j : Nat) < 2) (hlt : (j : Nat) < siOf c) :
      givens letterBehind (siOf c) (0, j) = some 0 := by
    have hdigits : ∀ j : Fin 9, (j : Nat) < 2 → assignmentOf letterBehind (0, j) = some 0 := by
      decide
    have hsi : siOf (0, j) = (j : Nat) := Nat.zero_add _
    rw [givens, if_pos (hsi.symm ▸ hlt), hdigits j hj]
  have hbehind : 1 < siOf c := by
    have hfirst : IsCell (byteAt letterBehind (0, 0)) ∧ IsCell (byteAt letterBehind (0, 1)) := by
      decide
    by_contra hle
    rcases Nat.le_one_iff_eq_zero_or_eq_one.mp (Nat.le_of_not_lt hle) with hzero | hone
    · obtain rfl : c = (0, 0) := siOf_injective hzero
      exact hcell hfirst.1
    · obtain rfl : c = (0, 1) := siOf_injective hone
      exact hcell hfirst.2
  have heq := hapart .row (0, 0) (0, 1) 0 rfl (hgivens 0 (by decide) (by omega))
    (hgivens 1 (by decide) hbehind)
  exact absurd heq (by decide)

end Sudoku
end Chaonet
