import Chaonet.Buffer.Model
import Mathlib.Data.List.ProdSigma

/-!
# The Sudoku solver

`Sudoku` embeds the class of the same name.  Its four vectors of vectors are functions of two
indices.  Whoever uses an index that is not between 0 and 8 shows it as an event; what the source
finds there is not defined, and here it is what the function has there.

`traceback` calls itself for the next cell; its arguments are a `Position`.
-/

namespace Chaonet

open Foundation

/-- The members of type `vector<vector<char>>`. -/
inductive Member
  | board
  | rows
  | cols
  | blocks
deriving DecidableEq, Repr

/-- A `vector<vector<char>>`. -/
abbrev Table := Nat → Int → UInt8

structure Sudoku where
  tables : Member → Table
  solved : Bool

namespace Sudoku

/-- An index that is not between 0 and 8. -/
structure Outside where
  member : Member
  index : Int
deriving DecidableEq, Repr

/-- `Sudoku()`. -/
def fresh : Sudoku := ⟨fun _ _ _ => char '0', false⟩

/-! ## Access to the tables -/

def access (m : Member) (i : Nat) (idx : Int) : Traced Outside Unit := do
  Traced.check ⟨m, i⟩ (i < 9)
  Traced.check ⟨m, idx⟩ (0 ≤ idx ∧ idx < 9)

/-- `m[i][idx]` as a value. -/
def get (s : Sudoku) (m : Member) (i : Nat) (idx : Int) : Traced Outside UInt8 := do
  access m i idx
  pure (s.tables m i idx)

/-- The tables after `m[i][idx] = c`. -/
def put (s : Sudoku) (m : Member) (i : Nat) (idx : Int) (c : UInt8) : Sudoku :=
  let row := Function.update (s.tables m i) idx c
  { s with tables := Function.update s.tables m (Function.update (s.tables m) i row) }

/-- `m[i][idx] = c`. -/
def set (s : Sudoku) (m : Member) (i : Nat) (idx : Int) (c : UInt8) : Traced Outside Sudoku := do
  access m i idx
  pure (s.put m i idx c)

/-! ## Reading a puzzle -/

/-- The cells in the order of the two loops over them. -/
def cells : List (Fin 9 × Fin 9) := List.finRange 9 ×ˢ List.finRange 9

/-- The body of the loops of `update`, with `si`. -/
def updateCell (str : Bytes) (t : Sudoku × Nat) (cell : Fin 9 × Fin 9) :
    Traced Outside (Sudoku × Nat) := do
  let (i, j) := cell
  let (s, si) := t
  let s ← s.set .board i j (str.getD si 0)
  let c ← s.get .board i j
  let s ← if c = char '0' then s.set .board i j (char '.') else pure s
  pure (s, si + 1)

/-- `update(s)`. -/
def update (s : Sudoku) (str : Bytes) : Traced Outside Sudoku :=
  -- A string that is too short is not read, and `solved_` stays as it was.
  if str.length < 81 then pure s
  else do
    let (s, _) ← cells.foldlM (updateCell str) ({ s with solved := false }, 0)
    pure s

/-! ## The records -/

/-- `bidx`, the block of a cell. -/
def blockOf (i j : Nat) : Nat := i / 3 * 3 + j / 3

/-- `rows_[i][idx] != '0' || cols_[j][idx] != '0' || blocks_[bidx][idx] != '0'`. -/
def recorded (s : Sudoku) (i j : Nat) (idx : Int) : Traced Outside Bool := do
  let row ← s.get .rows i idx
  if row ≠ char '0' then pure true
  else do
    let col ← s.get .cols j idx
    if col ≠ char '0' then pure true
    else do
      let block ← s.get .blocks (blockOf i j) idx
      pure (block ≠ char '0')

def setRecord (s : Sudoku) (i j : Nat) (idx : Int) (c : UInt8) : Traced Outside Sudoku := do
  let s ← s.set .rows i idx c
  let s ← s.set .cols j idx c
  s.set .blocks (blockOf i j) idx c

/-- `curEleValid(board, i, j, k)`. -/
def curEleValid (s : Sudoku) (i j : Nat) (k : Int) : Traced Outside Bool := do
  let present ← s.recorded i j (k - 1)
  pure (!present)

/-- `updateRecord(i, j, k)`. -/
def updateRecord (s : Sudoku) (i j : Nat) (k : Int) : Traced Outside Sudoku :=
  s.setRecord i j (k - 1) (char 'v')

/-- `cancelRecord(i, j, k)`. -/
def cancelRecord (s : Sudoku) (i j : Nat) (k : Int) : Traced Outside Sudoku :=
  s.setRecord i j (k - 1) (char '0')

/-- `c - '0' - 1`; a `char` is signed. -/
def digitIndex (c : UInt8) : Int := c.toInt8.toInt - 48 - 1

/-- The loops of `isValidSudoku` over the cells that are left. -/
def isValidSudokuFrom (s : Sudoku) : List (Fin 9 × Fin 9) → Traced Outside (Bool × Sudoku)
  | [] => pure (true, s)
  | (i, j) :: left => do
      let c ← s.get .board i j
      if c ≠ char '.' then do
        let idx := digitIndex c
        let present ← s.recorded i j idx
        -- What has been recorded before stays.
        if present then pure (false, s)
        else do
          let s ← s.setRecord i j idx (char 'v')
          s.isValidSudokuFrom left
      else s.isValidSudokuFrom left

/-- `isValidSudoku(board_)`. -/
def isValidSudoku (s : Sudoku) : Traced Outside (Bool × Sudoku) := s.isValidSudokuFrom cells

/-! ## The search -/

/-- The arguments `i` and `j` of `traceback`. -/
structure Position where
  i : Nat
  j : Nat
  i_le : i ≤ 9
  j_lt : j < 9

/-- The arguments of the next call: `i, j + 1` or `i + 1, 0`. -/
def Position.next (p : Position) (h : p.i ≠ 9) : Position :=
  if hj : p.j < 8 then ⟨p.i, p.j + 1, p.i_le, Nat.succ_lt_succ hj⟩
  else ⟨p.i + 1, 0, Nat.lt_of_le_of_ne p.i_le h, by decide⟩

/-- How many cells there are from the position on. -/
def Position.left (p : Position) : Nat := 81 - (9 * p.i + p.j)

theorem Position.left_next (p : Position) (h : p.i ≠ 9) : (p.next h).left < p.left := by
  have hi := p.i_le
  have hj := p.j_lt
  unfold next left
  split_ifs <;> simp only <;> omega

/-- The loop of `traceback` with the condition `!solved_`, where `next` is the call for the next
cell. -/
def tryDigit (next : Sudoku → Traced Outside Sudoku) (i j : Nat) (s : Sudoku) (k : Nat) :
    Traced Outside Sudoku :=
  if s.solved then pure s
  else do
    let valid ← s.curEleValid i j k
    if valid then do
      let s ← s.set .board i j (UInt8.ofNat k + char '0')
      let s ← s.updateRecord i j k
      -- `solved_` tells whether the call has filled the rest of the board.
      let s ← next s
      if s.solved then pure s
      else do
        let s ← s.set .board i j (char '.')
        s.cancelRecord i j k
    else pure s

/-- `traceback(board_, i, j)`. -/
def traceback (s : Sudoku) (p : Position) : Traced Outside Sudoku :=
  if s.solved then pure s
  else if h : p.i = 9 then pure { s with solved := true }
  else do
    let c ← s.get .board p.i p.j
    if c ≠ char '.' then s.traceback (p.next h)
    else [1, 2, 3, 4, 5, 6, 7, 8, 9].foldlM (tryDigit (fun s => s.traceback (p.next h)) p.i p.j) s
termination_by p.left
decreasing_by all_goals exact p.left_next h

/-- `rows_.assign(9, vector<char>(9, '0'))`, and the same for the columns and the blocks. -/
def assignRecords (s : Sudoku) : Sudoku :=
  let tables : Member → Table
    | .board => s.tables .board
    | .rows | .cols | .blocks => fun _ _ => char '0'
  { s with tables }

/-- `solveSudoku()`. -/
def solveSudoku (s : Sudoku) : Traced Outside Sudoku :=
  if s.solved then pure s
  else do
    let (valid, s) ← s.assignRecords.isValidSudoku
    if valid then s.traceback ⟨0, 0, by decide, by decide⟩ else pure s

/-- `result()`. -/
def result (s : Sudoku) : Traced Outside Bytes :=
  if s.solved then cells.mapM fun (i, j) => s.get .board i j else pure []

end Sudoku
end Chaonet
