import Mathlib.Data.Fintype.EquivFin
import Mathlib.Logic.Function.Basic
import Mathlib.Tactic.Common

/-!
# Assignments that keep groups apart

An assignment gives values to some of the cells.  `group u` sorts the cells into groups, for each
`u` in a way of its own, and cells of one group must not have the same value.

The rules of a search by backtracking: a cell without a value can be given any of them
(`solvable_update_iff`), a value that is not free need not be tried (`not_solvable_update`), and
with all values given there is nothing left to do (`solves_of_total`).  Where a group has as many
cells as there are values, each value is there exactly once (`Apart.exists_unique`).
-/

namespace Chaonet
namespace Foundation

/-- The values of some of the cells. -/
abbrev Assignment (κ δ : Type*) := κ → Option δ

namespace Assignment

variable {ι κ γ δ : Type*}

/-- The cells of a group have different values. -/
def Apart (group : ι → κ → γ) (a : Assignment κ δ) : Prop :=
  ∀ u k k' v, group u k = group u k' → a k = some v → a k' = some v → k = k'

/-- `f` has the values that the assignment gives. -/
def Extends (a : Assignment κ δ) (f : κ → δ) : Prop := ∀ k v, a k = some v → f k = v

structure Solves (group : ι → κ → γ) (a : Assignment κ δ) (f : κ → δ) : Prop where
  extends_ : a.Extends f
  apart : Apart group fun k => some (f k)

def Solvable (group : ι → κ → γ) (a : Assignment κ δ) : Prop := ∃ f, Solves group a f

/-- No cell in a group with `k` has the value `v`. -/
def Free (group : ι → κ → γ) (a : Assignment κ δ) (k : κ) (v : δ) : Prop :=
  ∀ u k', group u k' = group u k → a k' ≠ some v

variable {group : ι → κ → γ} {a : Assignment κ δ} {f : κ → δ} {k : κ} {v : δ}

theorem Solves.apart_assignment (h : Solves group a f) : Apart group a := by
  intro u k k' v hgroup hk hk'
  exact h.apart u k k' v hgroup (congrArg some (h.extends_ k v hk))
    (congrArg some (h.extends_ k' v hk'))

/-- Fewer values are apart as well. -/
theorem Apart.mono {a' : Assignment κ δ} (h : Apart group a')
    (hless : ∀ k v, a k = some v → a' k = some v) : Apart group a := by
  intro u k k' v hgroup hk hk'
  exact h u k k' v hgroup (hless k v hk) (hless k' v hk')

/-- With all values given there is nothing left to do. -/
theorem solves_of_total (h : Apart group a) (htotal : ∀ k, a k = some (f k)) :
    Solves group a f where
  extends_ k _ hk := Option.some.inj ((htotal k).symm.trans hk)
  apart u k k' v hgroup hk hk' :=
    h u k k' v hgroup ((htotal k).trans hk) ((htotal k').trans hk')

theorem ne_of_none {k' : κ} (hk : a k = none) (hk' : a k' = some v) : k' ≠ k := by
  rintro rfl
  exact Option.some_ne_none v (hk'.symm.trans hk)

section Counting

variable [Fintype κ] [Fintype δ] [DecidableEq γ]

/-- Where a group has as many cells as there are values, each value is there exactly once. -/
theorem Apart.exists_unique (h : Apart group fun k => some (f k)) (u : ι) (g : γ)
    (hcard : Fintype.card {k // group u k = g} = Fintype.card δ) (v : δ) :
    ∃! k, group u k = g ∧ f k = v := by
  -- The values of a group are different, and there are as many of them as cells.
  have hinjective : Function.Injective fun k : {k // group u k = g} => f k := by
    rintro ⟨k, hk⟩ ⟨k', hk'⟩ heq
    exact Subtype.ext (h u k k' (f k) (hk.trans hk'.symm) rfl (congrArg some heq.symm))
  obtain ⟨-, hsurjective⟩ :=
    (Fintype.bijective_iff_injective_and_card _).mpr ⟨hinjective, hcard⟩
  obtain ⟨⟨k, hk⟩, hv⟩ := hsurjective v
  refine ⟨k, ⟨hk, hv⟩, fun k' hk' => ?_⟩
  exact h u k' k v (hk'.1.trans hk.symm) (congrArg some hk'.2) (congrArg some hv)

end Counting

variable [DecidableEq κ]

theorem extends_update_iff (hk : a k = none) :
    Extends (Function.update a k (some v)) f ↔ a.Extends f ∧ f k = v := by
  constructor
  · intro h
    refine ⟨fun k' v' hk' => h k' v' ?_, h k v (Function.update_self k _ a)⟩
    rw [Function.update_of_ne (ne_of_none hk hk'), hk']
  · rintro ⟨h, rfl⟩ k' v' hk'
    by_cases hne : k' = k
    · subst hne
      rw [Function.update_self] at hk'
      exact Option.some.inj hk'
    · rw [Function.update_of_ne hne] at hk'
      exact h k' v' hk'

theorem solves_update_iff (hk : a k = none) :
    Solves group (Function.update a k (some v)) f ↔ Solves group a f ∧ f k = v := by
  constructor
  · rintro ⟨hextends, hapart⟩
    obtain ⟨h, hv⟩ := (extends_update_iff hk).mp hextends
    exact ⟨⟨h, hapart⟩, hv⟩
  · rintro ⟨⟨h, hapart⟩, hv⟩
    exact ⟨(extends_update_iff hk).mpr ⟨h, hv⟩, hapart⟩

/-- A solution gives some value to a cell that has none. -/
theorem solvable_update_iff (hk : a k = none) :
    Solvable group a ↔ ∃ v, Solvable group (Function.update a k (some v)) := by
  constructor
  · rintro ⟨f, hf⟩
    exact ⟨f k, f, (solves_update_iff hk).mpr ⟨hf, rfl⟩⟩
  · rintro ⟨v, f, hf⟩
    exact ⟨f, ((solves_update_iff hk).mp hf).1⟩

/-- A value that a cell has been given was free. -/
theorem Apart.free (hk : a k = none) (h : Apart group (Function.update a k (some v))) :
    Free group a k v := by
  intro u k' hgroup hk'
  have hne := ne_of_none hk hk'
  refine hne (h u k' k v hgroup ?_ (Function.update_self k _ a))
  rw [Function.update_of_ne hne, hk']

/-- A value that is not free need not be tried. -/
theorem not_solvable_update (hk : a k = none) (hfree : ¬Free group a k v) :
    ¬Solvable group (Function.update a k (some v)) := by
  rintro ⟨f, hf⟩
  exact hfree (Apart.free hk hf.apart_assignment)

theorem Apart.update (h : Apart group a) (hfree : Free group a k v) :
    Apart group (Function.update a k (some v)) := by
  intro u k₁ k₂ w hgroup h₁ h₂
  by_cases hk₁ : k₁ = k
  · by_cases hk₂ : k₂ = k
    · rw [hk₁, hk₂]
    · subst hk₁
      rw [Function.update_self] at h₁
      rw [Function.update_of_ne hk₂, ← h₁] at h₂
      exact absurd h₂ (hfree u k₂ hgroup.symm)
  · by_cases hk₂ : k₂ = k
    · subst hk₂
      rw [Function.update_self] at h₂
      rw [Function.update_of_ne hk₁, ← h₂] at h₁
      exact absurd h₁ (hfree u k₁ hgroup)
    · rw [Function.update_of_ne hk₁] at h₁
      rw [Function.update_of_ne hk₂] at h₂
      exact h u k₁ k₂ w hgroup h₁ h₂

end Assignment
end Foundation
end Chaonet
