import Chaonet.Foundation.Assignment
import Chaonet.Sudoku.Sudoku
import Mathlib.Data.Fintype.Prod

/-!
# What the tables stand for

An assignment of digits to cells is on the board (`Holds`), and the records say of each row, column
and block which digits it has (`Recorded`).  A digit is free for a cell exactly if none of the three
records has it (`recorded_eq`), and to set or to cancel the records of a cell follows the
assignment (`Recorded.assign`, `Recorded.cancel`).
-/

namespace Chaonet

open Foundation

namespace Sudoku

abbrev Cell := Fin 9 × Fin 9

/-- The digit `d + 1`. -/
abbrev Digit := Fin 9

/-- The ways to group the cells. -/
inductive Kind
  | row
  | col
  | block
deriving DecidableEq, Repr

/-- The member with the records. -/
def Kind.member : Kind → Member
  | .row => .rows
  | .col => .cols
  | .block => .blocks

theorem blockOf_lt {i j : Nat} (hi : i < 9) (hj : j < 9) : blockOf i j < 9 := by
  unfold blockOf
  omega

def group : Kind → Cell → Fin 9
  | .row, c => c.1
  | .col, c => c.2
  | .block, c => ⟨blockOf c.1 c.2, blockOf_lt c.1.isLt c.2.isLt⟩

/-- How a cell is written. -/
def charOf : Option Digit → UInt8
  | none => char '.'
  | some d => UInt8.ofNat (d + 1) + char '0'

theorem charOf_ne_dot (d : Digit) : charOf (some d) ≠ char '.' := by
  revert d
  decide

theorem digitIndex_charOf (d : Digit) : digitIndex (charOf (some d)) = (d : Nat) := by
  revert d
  decide

/-- The assignment is on the board. -/
def Holds (s : Sudoku) (a : Assignment Cell Digit) : Prop :=
  ∀ c : Cell, s.tables .board c.1 (c.2 : Nat) = charOf (a c)

/-- The records say which digits the groups have. -/
def Recorded (s : Sudoku) (a : Assignment Cell Digit) : Prop :=
  ∀ (kind : Kind) (g : Fin 9) (d : Digit), s.tables kind.member g (d : Nat) =
    if ∃ c, group kind c = g ∧ a c = some d then char 'v' else char '0'

variable {s : Sudoku} {a : Assignment Cell Digit} {c : Cell} {d : Digit}

/-! ## Access inside of the tables -/

theorem access_eq (m : Member) {i idx : Nat} (hi : i < 9) (hidx : idx < 9) :
    access m i idx = pure () := by
  have hrange : (0 : Int) ≤ idx ∧ (idx : Int) < 9 := by omega
  rw [access, Traced.check_of hi, Traced.check_of hrange]
  rfl

theorem get_eq (s : Sudoku) (m : Member) {i idx : Nat} (hi : i < 9) (hidx : idx < 9) :
    s.get m i idx = pure (s.tables m i idx) := by
  rw [get, access_eq m hi hidx]
  rfl

theorem set_eq (s : Sudoku) (m : Member) {i idx : Nat} (hi : i < 9) (hidx : idx < 9) (ch : UInt8) :
    s.set m i idx ch = pure (s.put m i idx ch) := by
  rw [set, access_eq m hi hidx]
  rfl

theorem put_tables (s : Sudoku) (m m' : Member) (i i' : Nat) (idx idx' : Int) (ch : UInt8) :
    (s.put m i idx ch).tables m' i' idx' =
      if m' = m ∧ i' = i ∧ idx' = idx then ch else s.tables m' i' idx' := by
  by_cases hm : m' = m
  · subst hm
    by_cases hi : i' = i
    · subst hi
      by_cases hidx : idx' = idx
      · subst hidx
        simp [put]
      · simp [put, hidx]
    · simp [put, hi]
  · simp [put, hm]

@[simp] theorem put_solved (s : Sudoku) (m : Member) (i : Nat) (idx : Int) (ch : UInt8) :
    (s.put m i idx ch).solved = s.solved := rfl

/-! ## The board -/

theorem Holds.put (h : s.Holds a) (c : Cell) (v : Option Digit) :
    (s.put .board c.1 (c.2 : Nat) (charOf v)).Holds (Function.update a c v) := by
  intro c'
  rw [put_tables]
  by_cases hc : c' = c
  · subst hc
    simp
  · rw [if_neg, Function.update_of_ne hc]
    · exact h c'
    · rintro ⟨-, hi, hj⟩
      exact hc (Prod.ext (Fin.ext hi) (Fin.ext (Int.ofNat_inj.mp hj)))

theorem Recorded.put_board (h : s.Recorded a) (i : Nat) (idx : Int) (ch : UInt8) :
    (s.put .board i idx ch).Recorded a := by
  intro kind g d
  have hother : kind.member ≠ .board := by
    cases kind <;> decide
  rw [put_tables, if_neg fun heq => hother heq.1]
  exact h kind g d

/-! ## The records -/

/-- The state after the three records of a cell have been set. -/
def putRecord (s : Sudoku) (c : Cell) (d : Digit) (ch : UInt8) : Sudoku :=
  let s := (s.put .rows c.1 (d : Nat) ch).put .cols c.2 (d : Nat) ch
  s.put .blocks (blockOf c.1 c.2) (d : Nat) ch

@[simp] theorem putRecord_solved (s : Sudoku) (c : Cell) (d : Digit) (ch : UInt8) :
    (s.putRecord c d ch).solved = s.solved := rfl

theorem setRecord_eq (s : Sudoku) (c : Cell) (d : Digit) (ch : UInt8) :
    s.setRecord c.1 c.2 (d : Nat) ch = pure (s.putRecord c d ch) := by
  rw [setRecord, set_eq s .rows c.1.isLt d.isLt, pure_bind,
    set_eq _ .cols c.2.isLt d.isLt, pure_bind,
    set_eq _ .blocks (blockOf_lt c.1.isLt c.2.isLt) d.isLt]
  rfl

theorem putRecord_tables (s : Sudoku) (c : Cell) (d d' : Digit) (ch : UInt8) (kind : Kind)
    (g : Fin 9) : (s.putRecord c d ch).tables kind.member g (d' : Nat) =
      if g = group kind c ∧ d' = d then ch else s.tables kind.member g (d' : Nat) := by
  have hd : ((d' : Nat) : Int) = (d : Nat) ↔ (d' : Nat) = d := Int.ofNat_inj
  cases kind <;> simp [putRecord, put_tables, Kind.member, group, Fin.ext_iff, hd]

theorem Holds.putRecord (h : s.Holds a) (c : Cell) (d : Digit) (ch : UInt8) :
    (s.putRecord c d ch).Holds a := by
  intro c'
  simp only [Sudoku.putRecord, put_tables, reduceCtorEq, false_and, if_false]
  exact h c'

/-- Which digits the groups have changes with a cell only where the cell and the digit are. -/
theorem exists_update_iff (hc : a c = none) {kind : Kind} {g : Fin 9} {d' : Digit}
    (hother : ¬(g = group kind c ∧ d' = d)) :
    (∃ c', group kind c' = g ∧ Function.update a c (some d) c' = some d') ↔
      ∃ c', group kind c' = g ∧ a c' = some d' := by
  constructor
  · rintro ⟨c', hgroup, hd⟩
    by_cases heq : c' = c
    · subst heq
      rw [Function.update_self] at hd
      exact absurd ⟨hgroup.symm, (Option.some.inj hd).symm⟩ hother
    · rw [Function.update_of_ne heq] at hd
      exact ⟨c', hgroup, hd⟩
  · rintro ⟨c', hgroup, hd⟩
    refine ⟨c', hgroup, ?_⟩
    rw [Function.update_of_ne (Assignment.ne_of_none hc hd), hd]

/-- To set the records of a cell. -/
theorem Recorded.assign (h : s.Recorded a) (hc : a c = none) (d : Digit) :
    (s.putRecord c d (char 'v')).Recorded (Function.update a c (some d)) := by
  intro kind g d'
  rw [putRecord_tables]
  by_cases hhere : g = group kind c ∧ d' = d
  · obtain ⟨rfl, rfl⟩ := hhere
    have hexists : ∃ c', group kind c' = group kind c ∧
        Function.update a c (some d') c' = some d' := ⟨c, rfl, Function.update_self c _ a⟩
    rw [if_pos ⟨rfl, rfl⟩, if_pos hexists]
  · rw [if_neg hhere, h kind g d']
    simp only [exists_update_iff hc hhere]

/-- To cancel the records of a cell. -/
theorem Recorded.cancel (h : s.Recorded (Function.update a c (some d))) (hc : a c = none)
    (hfree : a.Free group c d) : (s.putRecord c d (char '0')).Recorded a := by
  intro kind g d'
  rw [putRecord_tables]
  by_cases hhere : g = group kind c ∧ d' = d
  · obtain ⟨rfl, rfl⟩ := hhere
    have hnone : ¬∃ c', group kind c' = group kind c ∧ a c' = some d' := by
      rintro ⟨c', hgroup, hd⟩
      exact hfree kind c' hgroup hd
    rw [if_pos ⟨rfl, rfl⟩, if_neg hnone]
  · rw [if_neg hhere, h kind g d']
    simp only [exists_update_iff hc hhere]

theorem record_ne_iff (h : s.Recorded a) (kind : Kind) (c : Cell) (d : Digit) :
    s.tables kind.member (group kind c) (d : Nat) ≠ char '0' ↔
      ∃ c', group kind c' = group kind c ∧ a c' = some d := by
  rw [h kind (group kind c) d]
  split_ifs with hexists
  · exact iff_of_true (by decide) hexists
  · exact iff_of_false (not_not.mpr rfl) hexists

/-- A digit that one of the three records has is not free. -/
theorem recorded_eq (h : s.Recorded a) (c : Cell) (d : Digit) :
    ∃ present, s.recorded c.1 c.2 (d : Nat) = pure present ∧
      (present = true ↔ ¬a.Free group c d) := by
  have hfree : ¬a.Free group c d ↔
      ∃ kind c', group kind c' = group kind c ∧ a c' = some d := by
    simp only [Assignment.Free, not_forall, not_not, exists_prop]
  have hrow := record_ne_iff h .row c d
  have hcol := record_ne_iff h .col c d
  have hblock := record_ne_iff h .block c d
  rw [recorded, get_eq s .rows c.1.isLt d.isLt, pure_bind, get_eq s .cols c.2.isLt d.isLt,
    pure_bind, get_eq s .blocks (blockOf_lt c.1.isLt c.2.isLt) d.isLt, pure_bind]
  -- The source looks at the next record only if this one does not have the digit.
  by_cases hr : s.tables .rows c.1 (d : Nat) ≠ char '0'
  · exact ⟨true, if_pos hr, iff_of_true rfl (hfree.mpr ⟨.row, hrow.mp hr⟩)⟩
  · by_cases hcl : s.tables .cols c.2 (d : Nat) ≠ char '0'
    · refine ⟨true, ?_, iff_of_true rfl (hfree.mpr ⟨.col, hcol.mp hcl⟩)⟩
      rw [if_neg hr, if_pos hcl]
    · refine ⟨_, by rw [if_neg hr, if_neg hcl], ?_⟩
      rw [decide_eq_true_iff, hfree]
      constructor
      · exact fun hb => ⟨.block, hblock.mp hb⟩
      · rintro ⟨kind, hexists⟩
        cases kind with
        | row => exact absurd (hrow.mpr hexists) hr
        | col => exact absurd (hcol.mpr hexists) hcl
        | block => exact hblock.mpr hexists

end Sudoku
end Chaonet
