import Chaonet.Sudoku.Solution
import Mathlib.Data.Bool.AllAny
import Mathlib.Data.Fintype.Option
import Mathlib.Data.List.GetD

/-!
# The solutions of a puzzle

`IsFilling` says what a solution is, in the bytes of the string that `update` reads and of the
board.  It is a solution of the assignment that the string is (`isFilling_iff`), so that the solver
finds one exactly if there is one (`solveSudoku_correct`).
-/

namespace Chaonet

open Foundation

open Assignment (Apart Solves Solvable)

namespace Sudoku

/-! ## Reading the string -/

/-- A digit or a dot. -/
def IsCell (b : UInt8) : Prop := b = char '.' ∨ char '0' ≤ b ∧ b ≤ char '9'

instance (b : UInt8) : Decidable (IsCell b) := inferInstanceAs (Decidable (_ ∨ _ ∧ _))

/-- What is given with a byte of the string. -/
def digitOf (b : UInt8) : Option Digit :=
  if h : 49 ≤ b.toNat ∧ b.toNat < 58 then some ⟨b.toNat - 49, by omega⟩ else none

/-- The digits that are given. -/
def assignmentOf (str : Bytes) : Assignment Cell Digit :=
  fun c => digitOf (str.getD (9 * (c.1 : Nat) + c.2) 0)

/-- What `update` makes of a byte. -/
def cellOf (b : UInt8) : UInt8 := if b = char '0' then char '.' else b

theorem IsCell.toNat {b : UInt8} (h : IsCell b) :
    b.toNat = 46 ∨ 48 ≤ b.toNat ∧ b.toNat < 58 := by
  rcases h with rfl | ⟨hlow, hhigh⟩
  · exact .inl rfl
  · have hlow : 48 ≤ b.toNat := hlow
    have hhigh : b.toNat ≤ 57 := hhigh
    omega

theorem cellOf_eq {b : UInt8} (h : IsCell b) : cellOf b = charOf (digitOf b) := by
  have hcells : ∀ n < 58, 46 ≤ n → n ≠ 47 →
      cellOf (UInt8.ofNat n) = charOf (digitOf (UInt8.ofNat n)) := by decide
  have hb := h.toNat
  have hof := hcells b.toNat (by omega) (by omega) (by omega)
  rwa [UInt8.ofNat_toNat] at hof

theorem charOf_digitOf {b : UInt8} {d : Digit} (h : digitOf b = some d) : charOf (some d) = b := by
  unfold digitOf at h
  split_ifs at h with hrange
  obtain rfl := Option.some.inj h
  have hdigits : ∀ n < 58, 49 ≤ n → ∀ h : n - 49 < 9,
      charOf (some ⟨n - 49, h⟩) = UInt8.ofNat n := by decide
  have hof := hdigits b.toNat hrange.2 hrange.1 (by omega)
  rwa [UInt8.ofNat_toNat] at hof

/-- A cell that is neither `'0'` nor `'.'` is a digit. -/
theorem IsCell.exists_digitOf {b : UInt8} (h : IsCell b) (hzero : b ≠ char '0')
    (hdot : b ≠ char '.') : ∃ d, digitOf b = some d := by
  have hzero : b.toNat ≠ 48 := fun heq => hzero (UInt8.toNat.inj heq)
  have hdot : b.toNat ≠ 46 := fun heq => hdot (UInt8.toNat.inj heq)
  have hb := h.toNat
  exact ⟨_, dif_pos (by omega)⟩

theorem charOf_injective : Function.Injective charOf := by
  have hall : ∀ v w : Option Digit, charOf v = charOf w → v = w := by decide
  exact fun v w => hall v w

/-! ## The board after `update` -/

theorem put_put (s : Sudoku) (m : Member) (i : Nat) (idx : Int) (x y : UInt8) :
    (s.put m i idx x).put m i idx y = s.put m i idx y := by
  simp [put]

/-- The body of the loops as a function. -/
def place (str : Bytes) (t : Sudoku × Nat) (c : Cell) : Sudoku × Nat :=
  (t.1.put .board c.1 (c.2 : Nat) (cellOf (str.getD t.2 0)), t.2 + 1)

theorem updateCell_eq (str : Bytes) (t : Sudoku × Nat) (c : Cell) :
    updateCell str t c = pure (place str t c) := by
  obtain ⟨i, j⟩ := c
  obtain ⟨s, si⟩ := t
  have hget : (s.put .board i (j : Nat) (str.getD si 0)).tables .board i (j : Nat) =
      str.getD si 0 := by
    rw [put_tables, if_pos ⟨rfl, rfl, rfl⟩]
  rw [updateCell]
  simp only [set_eq _ .board i.isLt j.isLt, get_eq _ .board i.isLt j.isLt, pure_bind, hget]
  by_cases hzero : str.getD si 0 = char '0'
  · rw [if_pos hzero, put_put, place, cellOf, if_pos hzero]
  · rw [if_neg hzero, place, cellOf, if_neg hzero]

theorem foldl_place_solved (str : Bytes) (cs : List Cell) (t : Sudoku × Nat) :
    (cs.foldl (place str) t).1.solved = t.1.solved := by
  induction cs generalizing t with
  | nil => rfl
  | cons c cs ih => exact ih (place str t c)

theorem foldl_place_other (str : Bytes) {cs : List Cell} {c : Cell} (h : c ∉ cs)
    (t : Sudoku × Nat) : (cs.foldl (place str) t).1.tables .board c.1 (c.2 : Nat) =
      t.1.tables .board c.1 (c.2 : Nat) := by
  induction cs generalizing t with
  | nil => rfl
  | cons c' cs ih =>
      rw [List.mem_cons, not_or] at h
      rw [List.foldl_cons, ih h.2, place, put_tables, if_neg]
      rintro ⟨-, hi, hj⟩
      exact h.1 (Prod.ext (Fin.ext hi) (Fin.ext (Int.ofNat_inj.mp hj)))

/-- Each cell gets the byte at its place among the cells. -/
theorem foldl_place (str : Bytes) {cs : List Cell} {c : Cell} (hnodup : cs.Nodup) (h : c ∈ cs)
    (t : Sudoku × Nat) : (cs.foldl (place str) t).1.tables .board c.1 (c.2 : Nat) =
      cellOf (str.getD (t.2 + cs.idxOf c) 0) := by
  induction cs generalizing t with
  | nil => exact absurd h List.not_mem_nil
  | cons c' cs ih =>
      obtain ⟨hc', hnodup⟩ := List.nodup_cons.mp hnodup
      rw [List.foldl_cons]
      by_cases heq : c = c'
      · subst heq
        rw [foldl_place_other str hc', place, put_tables, if_pos ⟨rfl, rfl, rfl⟩,
          List.idxOf_cons_self, Nat.add_zero]
      · have hmem := (List.mem_cons.mp h).resolve_left heq
        rw [ih hnodup hmem, List.idxOf_cons_ne _ (Ne.symm heq), place]
        congr 2
        omega

theorem idxOf_cells (c : Cell) : cells.idxOf c = 9 * (c.1 : Nat) + c.2 := by
  revert c
  decide +kernel

theorem isCell_getD {str : Bytes} (hsize : 81 ≤ str.length)
    (hchars : ∀ b ∈ str.take 81, IsCell b) (c : Cell) :
    IsCell (str.getD (9 * (c.1 : Nat) + c.2) 0) := by
  have hc₁ := c.1.isLt
  have hc₂ := c.2.isLt
  have hplace : 9 * (c.1 : Nat) + c.2 < str.length := by omega
  refine hchars _ ?_
  rw [List.getD_eq_getElem _ _ hplace]
  exact List.mem_take_iff_getElem.mpr ⟨_, by omega, rfl⟩

/-- `update` puts the bytes of the string on the board. -/
theorem update_board (s : Sudoku) {str : Bytes} (hsize : 81 ≤ str.length) :
    (s.update str).trace = [] ∧ (s.update str).val.solved = false ∧
      ∀ c : Cell, (s.update str).val.tables .board c.1 (c.2 : Nat) =
        cellOf (str.getD (9 * (c.1 : Nat) + c.2) 0) := by
  have hupdate : s.update str =
      pure (cells.foldl (place str) ({ s with solved := false }, 0)).1 := by
    have hbody : updateCell str = fun t c => pure (place str t c) :=
      funext fun t => funext fun c => updateCell_eq str t c
    rw [update, if_neg (Nat.not_lt_of_le hsize), hbody, List.foldlM_pure]
    rfl
  rw [hupdate]
  refine ⟨rfl, foldl_place_solved _ _ _, fun c => ?_⟩
  refine (foldl_place str cells_nodup (mem_cells c) _).trans ?_
  rw [Nat.zero_add, idxOf_cells]

/-- `update` puts the digits on the board that are given. -/
theorem update_holds (s : Sudoku) {str : Bytes} (hsize : 81 ≤ str.length)
    (hchars : ∀ b ∈ str.take 81, IsCell b) :
    (s.update str).trace = [] ∧ (s.update str).val.solved = false ∧
      (s.update str).val.Holds (assignmentOf str) := by
  obtain ⟨hinside, hsolved, hboard⟩ := s.update_board hsize
  refine ⟨hinside, hsolved, fun c => ?_⟩
  rw [hboard c, cellOf_eq (isCell_getD hsize hchars c)]
  rfl

/-! ## Fillings -/

/-- The char of the digit `d + 1`. -/
def digitChar (d : Digit) : UInt8 := charOf (some d)

/-- A filling of the cells that are `'0'` or `'.'` in the string: the other cells are kept, and
each digit is in each row, column and block exactly once. -/
structure IsFilling (str : Bytes) (f : Fin 9 → Fin 9 → UInt8) : Prop where
  givens (i j : Fin 9) : str.getD (9 * (i : Nat) + j) 0 ≠ char '0' →
    str.getD (9 * (i : Nat) + j) 0 ≠ char '.' → f i j = str.getD (9 * (i : Nat) + j) 0
  rows (i : Fin 9) (d : Digit) : ∃! j, f i j = digitChar d
  cols (j : Fin 9) (d : Digit) : ∃! i, f i j = digitChar d
  blocks (g : Fin 9) (d : Digit) :
    ∃! c : Cell, blockOf c.1 c.2 = g ∧ f c.1 c.2 = digitChar d

theorem digitChar_injective : Function.Injective digitChar := fun _ _ h =>
  Option.some.inj (charOf_injective h)

theorem digitChar_ne (d : Digit) : digitChar d ≠ char '0' ∧ digitChar d ≠ char '.' := by
  revert d
  decide

theorem card_group (kind : Kind) (g : Fin 9) :
    Fintype.card {c // group kind c = g} = Fintype.card Digit := by
  revert g
  cases kind <;> decide +kernel

/-- A row has a digit in each of its cells, if it has each digit once. -/
theorem IsFilling.exists_digit {str : Bytes} {f : Fin 9 → Fin 9 → UInt8} (h : IsFilling str f)
    (i j : Fin 9) : ∃ d, f i j = digitChar d := by
  -- Nine digits have nine places in the row.
  choose place hplace _ using h.rows i
  have hinjective : Function.Injective place := by
    intro d d' heq
    have hd := hplace d
    rw [heq, hplace d'] at hd
    exact (digitChar_injective hd).symm
  obtain ⟨d, rfl⟩ := Finite.surjective_of_injective hinjective j
  exact ⟨d, hplace d⟩

/-- The fillings are the solutions of what is given. -/
theorem isFilling_iff {str : Bytes} (hsize : 81 ≤ str.length)
    (hchars : ∀ b ∈ str.take 81, IsCell b) {f : Fin 9 → Fin 9 → UInt8} :
    IsFilling str f ↔ ∃ g, Solves group (assignmentOf str) g ∧
      ∀ c : Cell, f c.1 c.2 = digitChar (g c) := by
  constructor
  · intro h
    -- A filling has a digit in each cell, and two cells of a group with one digit are the same.
    choose g hg using fun c : Cell => h.exists_digit c.1 c.2
    refine ⟨g, ⟨fun c d hc => ?_, fun kind c c' d hgroup hc hc' => ?_⟩, hg⟩
    · have hgiven : digitChar d = str.getD (9 * (c.1 : Nat) + c.2) 0 := charOf_digitOf hc
      have hplain : digitChar d ≠ char '0' ∧ digitChar d ≠ char '.' := digitChar_ne d
      have hkept := h.givens c.1 c.2 (hgiven ▸ hplain.1) (hgiven ▸ hplain.2)
      exact digitChar_injective ((hg c).symm.trans (hkept.trans hgiven.symm))
    · have hd : f c.1 c.2 = digitChar d := by rw [hg c, Option.some.inj hc]
      have hd' : f c'.1 c'.2 = digitChar d := by rw [hg c', Option.some.inj hc']
      cases kind with
      | row =>
          have hrow : c.1 = c'.1 := hgroup
          exact Prod.ext hrow ((h.rows c.1 d).unique hd (hrow ▸ hd'))
      | col =>
          have hcol : c.2 = c'.2 := hgroup
          exact Prod.ext ((h.cols c.2 d).unique hd (hcol ▸ hd')) hcol
      | block =>
          have hblock : blockOf c'.1 c'.2 = group .block c := congrArg Fin.val hgroup.symm
          exact (h.blocks (group .block c) d).unique ⟨rfl, hd⟩ ⟨hblock, hd'⟩
  · rintro ⟨g, hsolves, hf⟩
    -- A group has nine cells with different digits, so that it has each of the nine.
    have hunique := fun kind n d => hsolves.apart.exists_unique kind n (card_group kind n) d
    have hdigit (c : Cell) (d : Digit) : f c.1 c.2 = digitChar d ↔ g c = d := by
      rw [hf c, digitChar_injective.eq_iff]
    refine ⟨fun i j hzero hdot => ?_, fun i d => ?_, fun j d => ?_, fun n d => ?_⟩
    · obtain ⟨d, hd⟩ := (isCell_getD hsize hchars (i, j)).exists_digitOf hzero hdot
      have hgiven : g (i, j) = d := hsolves.extends_ (i, j) d hd
      exact ((hdigit (i, j) d).mpr hgiven).trans (charOf_digitOf hd)
    · obtain ⟨⟨i', j⟩, ⟨rfl, hd⟩, honly⟩ := hunique .row i d
      refine ⟨j, (hdigit (_, j) d).mpr hd, fun j' hj' => ?_⟩
      exact congrArg Prod.snd (honly (_, j') ⟨rfl, (hdigit (_, j') d).mp hj'⟩)
    · obtain ⟨⟨i, j'⟩, ⟨rfl, hd⟩, honly⟩ := hunique .col j d
      refine ⟨i, (hdigit (i, _) d).mpr hd, fun i' hi' => ?_⟩
      exact congrArg Prod.fst (honly (i', _) ⟨rfl, (hdigit (i', _) d).mp hi'⟩)
    · obtain ⟨c, ⟨rfl, hd⟩, honly⟩ := hunique .block n d
      refine ⟨c, ⟨rfl, (hdigit c d).mpr hd⟩, fun c' hc' => ?_⟩
      exact honly c' ⟨Fin.ext hc'.1, (hdigit c' d).mp hc'.2⟩

/-! ## The solver -/

/-- The board. -/
def boardOf (s : Sudoku) (i j : Fin 9) : UInt8 := s.tables .board i (j : Nat)

/-- The solver keeps to its tables on digits and dots. -/
theorem solveSudoku_inside (s : Sudoku) {str : Bytes} (hsize : 81 ≤ str.length)
    (hchars : ∀ b ∈ str.take 81, IsCell b) :
    (s.update str >>= solveSudoku).trace = [] := by
  obtain ⟨hinside, hsolved, hholds⟩ := s.update_holds hsize hchars
  rw [Traced.bind_trace, hinside, (solveSudoku_result hholds hsolved).inside]
  rfl

/-- **The solver is sound and complete.**  On a string of digits and dots it finds a filling if
there is one, and leaves the board as it was if there is none. -/
theorem solveSudoku_correct (s : Sudoku) {str : Bytes} (hsize : 81 ≤ str.length)
    (hchars : ∀ b ∈ str.take 81, IsCell b) :
    let updated := (s.update str).val
    let result := updated.solveSudoku.val
    (result.solved = true ↔ ∃ f, IsFilling str f) ∧
      (result.solved = true → IsFilling str result.boardOf) ∧
      (result.solved = false → result.boardOf = updated.boardOf) := by
  obtain ⟨-, hsolved, hholds⟩ := s.update_holds hsize hchars
  obtain ⟨-, hfound, hfailed⟩ := solveSudoku_result hholds hsolved
  have hsolvable : (∃ f, IsFilling str f) ↔ Solvable group (assignmentOf str) := by
    constructor
    · rintro ⟨f, hf⟩
      obtain ⟨g, hg, -⟩ := (isFilling_iff hsize hchars).mp hf
      exact ⟨g, hg⟩
    · rintro ⟨g, hg⟩
      refine ⟨fun i j => digitChar (g (i, j)), ?_⟩
      exact (isFilling_iff hsize hchars).mpr ⟨g, hg, fun _ => rfl⟩
  rw [hsolvable]
  by_cases hsol : Solvable group (assignmentOf str)
  · obtain ⟨hdone, g, hg, hboard⟩ := hfound hsol
    refine ⟨iff_of_true hdone hsol, fun _ => ?_, fun hno => ?_⟩
    · exact (isFilling_iff hsize hchars).mpr ⟨g, hg, hboard⟩
    · exact absurd (hno.symm.trans hdone) Bool.false_ne_true
  · obtain ⟨hundone, hboard⟩ := hfailed hsol
    refine ⟨iff_of_false (Bool.eq_false_iff.mp hundone) hsol, fun hyes => ?_, fun _ => ?_⟩
    · exact absurd (hundone.symm.trans hyes) Bool.false_ne_true
    · funext i j
      exact (hboard (i, j)).trans (hholds (i, j)).symm

/-- Every row is the one above moved by three digits, and by one more where a block begins. -/
def shifted (i j : Fin 9) : UInt8 := digitChar (Fin.ofNat 9 (3 * i + i / 3 + j))

/-- The first two rows are to be filled. -/
def twoRows : Bytes :=
  ascii "0................." ++ (cells.drop 18).map fun c => shifted c.1 c.2

theorem isFilling_shifted : IsFilling twoRows shifted := by
  constructor
  case givens => decide +kernel
  case rows =>
    unfold ExistsUnique
    decide +kernel
  case cols =>
    unfold ExistsUnique
    decide +kernel
  case blocks =>
    unfold ExistsUnique
    decide +kernel

/-- Two equal digits in the first row. -/
def twoOnes : Bytes := ascii "11" ++ List.replicate 79 (char '.')

theorem not_isFilling_twoOnes (f : Fin 9 → Fin 9 → UInt8) : ¬IsFilling twoOnes f := by
  intro hf
  have hfirst : f 0 0 = digitChar 0 := hf.givens 0 0 (by decide) (by decide)
  have hsecond : f 0 1 = digitChar 0 := hf.givens 0 1 (by decide) (by decide)
  exact absurd ((hf.rows 0 0).unique hfirst hsecond) (by decide)

/-- The search fills a puzzle, and leaves the board of another as it was. -/
theorem solveSudoku_correct_twoRows :
    ((fresh.update twoRows).val.solveSudoku.val.solved = true ∧
      IsFilling twoRows (fresh.update twoRows).val.solveSudoku.val.boardOf) ∧
    (fresh.update twoOnes).val.solveSudoku.val.solved = false ∧
      (fresh.update twoOnes).val.solveSudoku.val.boardOf = (fresh.update twoOnes).val.boardOf := by
  constructor
  · have hcells : ∀ b ∈ twoRows.take 81, IsCell b :=
      List.all_iff_forall_prop.mp (by decide +kernel)
    obtain ⟨hsolved, hfilling, -⟩ :=
      fresh.solveSudoku_correct (show 81 ≤ twoRows.length by decide +kernel) hcells
    have hfilled := hsolved.mpr ⟨shifted, isFilling_shifted⟩
    exact ⟨hfilled, hfilling hfilled⟩
  · have hcells : ∀ b ∈ twoOnes.take 81, IsCell b := List.all_iff_forall_prop.mp (by decide)
    obtain ⟨hsolved, -, hfailed⟩ :=
      fresh.solveSudoku_correct (show 81 ≤ twoOnes.length by decide) hcells
    have hunsolved := Bool.eq_false_iff.mpr fun hyes =>
      (hsolved.mp hyes).elim not_isFilling_twoOnes
    exact ⟨hunsolved, hfailed hunsolved⟩

end Sudoku
end Chaonet
