import Chaonet.Buffer.Lines
import Chaonet.Sudoku.Bounds

/-!
# The requests of the Sudoku server

`onMessage` takes the lines out of the input buffer.  In a line, what is in front of the first
colon is the id, and the rest is the request; a request of 81 characters or more is given to a
`Sudoku` as it is.  Such a request is any string without a CRLF (`received_iff`).
-/

namespace Chaonet

open Foundation

open Buffer (lines)

namespace SudokuServer

def kCells : Nat := 81

/-- `id` and `request` of a line. -/
def splitId (line : Bytes) : Bytes × Bytes :=
  let colon := line.idxOf (char ':')
  if colon ≠ line.length then (line.take colon, line.drop (colon + 1)) else ([], line)

/-- A string of 81 characters or more that a line is a request for. -/
structure Received (str : Bytes) : Prop where
  kCells_le : kCells ≤ str.length
  received : ∃ stream, ∃ line ∈ (lines.drain stream).1, (splitId line).2 = str

theorem splitId_suffix (line : Bytes) : (splitId line).2 <:+ line := by
  unfold splitId
  dsimp only
  split_ifs
  · exact List.drop_suffix _ _
  · exact List.suffix_rfl

/-- An empty id. -/
theorem splitId_colon (str : Bytes) : splitId (char ':' :: str) = ([], str) := by
  simp [splitId]

theorem drain_line {l : Bytes} (h : ¬kCRLF <:+: l) : (lines.drain (l ++ kCRLF)).1 = [l] := by
  have hnext := Buffer.lines_next h []
  rw [List.append_nil] at hnext
  rw [lines.drain_of_some hnext, lines.drain_of_none (delimited_next_eq_none.mpr rfl)]

/-- Any string without a CRLF is received. -/
theorem received_iff {str : Bytes} : Received str ↔ kCells ≤ str.length ∧ ¬kCRLF <:+: str := by
  constructor
  · rintro ⟨hsize, stream, line, hline, rfl⟩
    refine ⟨hsize, fun hbroken => ?_⟩
    have hpieces : Pieces kCRLF stream (lines.drain stream).1 (lines.drain stream).2 :=
      pieces_drain stream
    exact hpieces.not_infix Buffer.kCRLF_ne_nil line hline
      (hbroken.trans (splitId_suffix line).isInfix)
  · rintro ⟨hsize, hunbroken⟩
    have hline : ¬kCRLF <:+: char ':' :: str := by
      rw [List.infix_cons_iff, not_or]
      refine ⟨fun hfront => ?_, hunbroken⟩
      rw [kCRLF, List.cons_prefix_cons] at hfront
      exact absurd hfront.1 (by decide)
    refine ⟨hsize, (char ':' :: str) ++ kCRLF, char ':' :: str, ?_, ?_⟩
    · rw [drain_line hline]
      exact List.mem_singleton_self _
    · rw [splitId_colon]

/-- A letter in front. -/
def letterFirst : Bytes := ascii "a" ++ List.replicate 80 (char '.')

/-- A received string gives an index outside of the tables. -/
theorem not_inside_letterFirst : ¬∀ str, Received str →
    (Sudoku.fresh.update str >>= Sudoku.solveSudoku).trace = [] := by
  intro hall
  have hreceived : Received letterFirst := by
    refine received_iff.mpr ⟨by decide, ?_⟩
    rintro ⟨u, v, heq⟩
    have hmem : char '\r' ∈ letterFirst := by
      have hin : char '\r' ∈ kCRLF := by decide
      rw [← heq]
      exact List.mem_append_left _ (List.mem_append_right _ hin)
    exact absurd hmem (by decide)
  have hsize : 81 ≤ letterFirst.length := by decide
  -- The letter stands behind nothing at all.
  obtain ⟨x, hscan, htrace⟩ := Sudoku.fresh.exists_scanned hsize
  have hinside := hall letterFirst hreceived
  rw [htrace, List.append_eq_nil_iff] at hinside
  have hshielded := hscan.inside.mp hinside.1 (0, 0) (Nat.zero_le _)
  refine hshielded (by decide) ?_
  have hnone : Sudoku.givens letterFirst (Sudoku.siOf (0, 0)) = fun _ => none :=
    Sudoku.givens_zero letterFirst
  rw [hnone]
  exact fun _ _ _ _ _ hno => nomatch hno

end SudokuServer
end Chaonet
