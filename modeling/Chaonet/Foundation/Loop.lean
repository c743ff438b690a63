import Chaonet.Foundation.Traced

/-!
# While loops

The body of a loop is a function from the state of the loop to either the next state
(`Sum.inl`) or the result with which the loop is left (`Sum.inr`).  `Loop body s es r` says that
the loop, entered in `s`, is left with `r` after finitely many iterations, which show the events
`es`.  A loop that hangs has no result.

* `Loop.not_exists`: a loop whose body never leaves a set of states is not left;
* `Loop.invariant`: what holds of the result;
* `Loop.unique`: the result is determined.

`runLoop` iterates a bounded number of times, and `Loop.of_runLoop` turns what it finds into a
`Loop`.  It finds the result if a measure bounds the number of iterations (`Loop.runLoop_eq`).
-/

namespace Chaonet
namespace Foundation

variable {σ ρ ε : Type*}

inductive Loop (body : σ → Traced ε (σ ⊕ ρ)) : σ → List ε → ρ → Prop
  | exit {s : σ} {r : ρ} {es : List ε} : body s = ⟨.inr r, es⟩ → Loop body s es r
  | again {s t : σ} {r : ρ} {es es' : List ε} :
      body s = ⟨.inl t, es⟩ → Loop body t es' r → Loop body s (es ++ es') r

/-- At most `fuel` iterations; `none` when the loop has not been left by then. -/
def runLoop (body : σ → Traced ε (σ ⊕ ρ)) : Nat → σ → Option (Traced ε ρ)
  | 0, _ => none
  | fuel + 1, s =>
      match body s with
      | ⟨.inr r, es⟩ => some ⟨r, es⟩
      | ⟨.inl t, es⟩ => (runLoop body fuel t).map fun x => ⟨x.val, es ++ x.trace⟩

namespace Loop

variable {body : σ → Traced ε (σ ⊕ ρ)} {s t : σ} {r r' : ρ} {es es' : List ε}

theorem unique (h : Loop body s es r) (h' : Loop body s es' r') : es = es' ∧ r = r' := by
  induction h generalizing es' with
  | exit hexit =>
      cases h' with
      | exit hexit' => simp_all
      | again hagain => simp_all
  | again hagain _ ih =>
      cases h' with
      | exit hexit => simp_all
      | again hagain' hrest =>
          simp only [hagain, Traced.mk.injEq, Sum.inl.injEq] at hagain'
          obtain ⟨rfl, rfl⟩ := hagain'
          obtain ⟨rfl, rfl⟩ := ih hrest
          exact ⟨rfl, rfl⟩

/-- What comes after an iteration that does not leave the loop. -/
theorem rest (hloop : Loop body s es' r) (h : body s = ⟨.inl t, es⟩) :
    ∃ es'', es' = es ++ es'' ∧ Loop body t es'' r := by
  cases hloop with
  | exit hexit => simp [h] at hexit
  | again hagain hrest =>
      simp only [h, Traced.mk.injEq, Sum.inl.injEq] at hagain
      obtain ⟨rfl, rfl⟩ := hagain
      exact ⟨_, rfl, hrest⟩

/-- One iteration that does not leave the loop. -/
theorem again_iff (h : body s = ⟨.inl t, es⟩) :
    (∃ es' r, Loop body s es' r) ↔ ∃ es' r, Loop body t es' r := by
  constructor
  · rintro ⟨es', r, hloop⟩
    obtain ⟨es'', -, hrest⟩ := hloop.rest h
    exact ⟨es'', r, hrest⟩
  · rintro ⟨es', r, hloop⟩
    exact ⟨_, _, .again h hloop⟩

/-- The divergence rule: from the states of `I` the body leads to states of `I` only. -/
theorem not_exists (I : σ → Prop) (hstep : ∀ s, I s → ∃ t es, I t ∧ body s = ⟨.inl t, es⟩)
    (hs : I s) : ¬∃ es r, Loop body s es r := by
  rintro ⟨es, r, hloop⟩
  induction hloop with
  | exit hexit =>
      obtain ⟨t, es, -, hbody⟩ := hstep _ hs
      simp [hbody] at hexit
  | again hagain _ ih =>
      obtain ⟨t, es, ht, hbody⟩ := hstep _ hs
      simp only [hbody, Traced.mk.injEq, Sum.inl.injEq] at hagain
      obtain ⟨rfl, rfl⟩ := hagain
      exact ih ht

/-- The invariant rule: from a state of `I` the body leads to one of `I`, or leaves the loop with
a result of `Q`. -/
theorem invariant (I : σ → Prop) (Q : ρ → Prop)
    (hstep : ∀ s, I s →
      (∃ t es, body s = ⟨.inl t, es⟩ ∧ I t) ∨ ∃ r es, body s = ⟨.inr r, es⟩ ∧ Q r)
    (h : Loop body s es r) (hs : I s) : Q r := by
  induction h with
  | exit hexit =>
      rcases hstep _ hs with ⟨t, es, hbody, -⟩ | ⟨r, es, hbody, hr⟩
      · simp [hexit] at hbody
      · simp only [hexit, Traced.mk.injEq, Sum.inr.injEq] at hbody
        exact hbody.1 ▸ hr
  | again hagain _ ih =>
      rcases hstep _ hs with ⟨t, es, hbody, ht⟩ | ⟨r, es, hbody, -⟩
      · simp only [hagain, Traced.mk.injEq, Sum.inl.injEq] at hbody
        exact ih (hbody.1 ▸ ht)
      · simp [hagain] at hbody

/-- What a bounded number of iterations leaves the loop with is its result. -/
theorem of_runLoop {fuel : Nat} (h : runLoop body fuel s = some ⟨r, es⟩) : Loop body s es r := by
  induction fuel generalizing s es with
  | zero => simp [runLoop] at h
  | succ fuel ih =>
      rw [runLoop] at h
      split at h
      · next hexit =>
          simp only [Option.some.injEq, Traced.mk.injEq] at h
          obtain ⟨rfl, rfl⟩ := h
          exact .exit hexit
      · next hagain =>
          obtain ⟨⟨r', es'⟩, hrest, heq⟩ := Option.map_eq_some_iff.mp h
          simp only [Traced.mk.injEq] at heq
          obtain ⟨rfl, rfl⟩ := heq
          exact .again hagain (ih hrest)

/-- If the iterations of a loop that is left make `μ` smaller, so many of them are enough. -/
theorem runLoop_eq (I : σ → Prop) (μ : σ → Nat)
    (hstep : ∀ s t es, I s → body s = ⟨.inl t, es⟩ → (∃ es r, Loop body t es r) →
      I t ∧ μ t < μ s) (h : Loop body s es r) (hs : I s) {fuel : Nat} (hfuel : μ s < fuel) :
    runLoop body fuel s = some ⟨r, es⟩ := by
  induction h generalizing fuel with
  | exit hexit =>
      obtain ⟨fuel, rfl⟩ := Nat.exists_eq_add_of_lt hfuel
      simp [runLoop, hexit]
  | again hagain hrest ih =>
      obtain ⟨fuel, rfl⟩ := Nat.exists_eq_succ_of_ne_zero (Nat.ne_zero_of_lt hfuel)
      obtain ⟨ht, hless⟩ := hstep _ _ _ hs hagain ⟨_, _, hrest⟩
      have hrun := ih ht (Nat.lt_of_lt_of_le hless (Nat.le_of_lt_succ hfuel))
      simp [runLoop, hagain, hrun]

end Loop
end Foundation
end Chaonet
