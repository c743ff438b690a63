import Mathlib.Data.List.Infix
import Mathlib.Tactic.Common

/-!
# Where a path leads

A path is resolved without looking at any file: a name leads into a directory, and `..` out of it.
`Place` is what a path is resolved to, so that no name is followed by a `..` in it.

Components descend if they never lead above the place they start from.  They stay below every
place then (`below_walk`), and where they do not, they are not below a place whose last name does
not occur in them (`not_below_walk`).
-/

namespace Chaonet
namespace Foundation

variable {α : Type*}

/-- A component of a path; empty ones and `.` are not kept. -/
inductive Component (α : Type*)
  | name (a : α)
  | up
deriving DecidableEq, Repr

structure Place (α : Type*) where
  absolute : Bool
  /-- How often it goes up from the working directory. -/
  ups : Nat
  /-- The names after that, the innermost one first. -/
  names : List α
deriving DecidableEq, Repr

namespace Place

/-- Follow one component; above the root there is the root. -/
def enter (p : Place α) : Component α → Place α
  | .name a => { p with names := a :: p.names }
  | .up =>
      match p.names with
      | _ :: names => { p with names }
      | [] => if p.absolute then p else { p with ups := p.ups + 1 }

def walk (p : Place α) (cs : List (Component α)) : Place α := cs.foldl enter p

/-- The working directory. -/
def here : Place α := ⟨false, 0, []⟩

/-- `q` is `p`, or lies below it. -/
structure Below (p q : Place α) : Prop where
  absolute : q.absolute = p.absolute
  ups : q.ups = p.ups
  names : p.names <:+ q.names

/-- The components never lead above the place they start from. -/
def Descends (cs : List (Component α)) : Prop := (walk here cs).ups = 0

instance (cs : List (Component α)) : Decidable (Descends cs) :=
  inferInstanceAs (Decidable (_ = _))

variable {p : Place α} {c : Component α} {cs : List (Component α)} {a : α} {ns names : List α}

theorem walk_append (p : Place α) (cs ds : List (Component α)) :
    walk p (cs ++ ds) = walk (walk p cs) ds := List.foldl_append

theorem ups_le_enter (p : Place α) (c : Component α) : p.ups ≤ (p.enter c).ups := by
  obtain ⟨absolute, ups, names⟩ := p
  cases c with
  | name a => exact Nat.le_refl _
  | up =>
      cases names with
      | cons b names => exact Nat.le_refl _
      | nil =>
          cases absolute with
          | true => exact Nat.le_refl _
          | false => exact Nat.le_succ _

theorem ups_le_walk (p : Place α) (cs : List (Component α)) : p.ups ≤ (walk p cs).ups := by
  induction cs generalizing p with
  | nil => exact Nat.le_refl _
  | cons c cs ih => exact (ups_le_enter p c).trans (ih _)

/-- The first `..` without a name before it leads above the start. -/
theorem ups_walk_up_ne_zero (cs : List (Component α)) :
    (walk (here.enter .up) cs).ups ≠ 0 := by
  have hle := ups_le_walk (here.enter (.up : Component α)) cs
  have hone : (here.enter (.up : Component α)).ups = 1 := rfl
  omega

theorem walk_of_descends (ns : List α) (h : (walk ⟨false, 0, ns⟩ cs).ups = 0) (p : Place α) :
    walk { p with names := ns ++ p.names } cs =
      { p with names := (walk ⟨false, 0, ns⟩ cs).names ++ p.names } := by
  induction cs generalizing ns with
  | nil => rfl
  | cons c cs ih =>
      cases c with
      | name a => exact ih (a :: ns) h
      | up =>
          cases ns with
          | nil => exact absurd h (ups_walk_up_ne_zero cs)
          | cons b ns => exact ih ns h

/-- **Components that descend stay below every place.** -/
theorem below_walk (h : Descends cs) (p : Place α) : Below p (walk p cs) := by
  have hwalk := walk_of_descends [] h p
  rw [List.nil_append] at hwalk
  rw [hwalk]
  exact ⟨rfl, rfl, List.suffix_append _ _⟩

/-- A name that has been left is not come back to. -/
theorem not_suffix_walk (ha : .name a ∉ cs) (h : ¬a :: names <:+ p.names) :
    ¬a :: names <:+ (walk p cs).names := by
  induction cs generalizing p with
  | nil => exact h
  | cons c cs ih =>
      rw [List.mem_cons, not_or] at ha
      refine ih ha.2 ?_
      obtain ⟨absolute, ups, ns⟩ := p
      cases c with
      | name b =>
          have hne : a ≠ b := fun heq => ha.1 (heq ▸ rfl)
          intro hsuffix
          rcases List.suffix_cons_iff.mp hsuffix with heq | hsuffix
          · exact hne (List.cons.inj heq).1
          · exact h hsuffix
      | up =>
          cases ns with
          | cons b ns => exact fun hsuffix => h (hsuffix.trans (List.suffix_cons b ns))
          | nil =>
              cases absolute with
              | true => exact h
              | false => exact h

/-- **Components that do not descend leave a place whose last name they do not have.** -/
theorem not_below_walk (ha : .name a ∉ cs) (h : ¬Descends cs) {absolute : Bool} {ups : Nat} :
    ¬Below ⟨absolute, ups, a :: names⟩ (walk ⟨absolute, ups, a :: names⟩ cs) := by
  -- `ns` are the names below the start, and the induction runs until the first `..` without one.
  suffices hleft : ∀ ns, (walk ⟨false, 0, ns⟩ cs).ups ≠ 0 →
      ¬a :: names <:+ (walk ⟨absolute, ups, ns ++ a :: names⟩ cs).names from
    fun hbelow => hleft [] h hbelow.names
  intro ns hns
  clear h
  induction cs generalizing ns with
  | nil => exact absurd rfl hns
  | cons c cs ih =>
      rw [List.mem_cons, not_or] at ha
      cases c with
      | name b => exact ih ha.2 (b :: ns) hns
      | up =>
          cases ns with
          | cons b ns => exact ih ha.2 ns hns
          | nil =>
              -- The last name is left here, and the components that follow do not have it.
              refine not_suffix_walk (p := ⟨absolute, ups, names⟩) ha.2 fun hsuffix => ?_
              have hlength := hsuffix.length_le
              exact absurd hlength (Nat.not_succ_le_self names.length)

end Place
end Foundation
end Chaonet
