import Chaonet.Foundation.Traced

/-!
# Runs of labelled transition systems

A system is a relation `step s l es t`: label `l` takes state `s` to state `t` and
makes the events `es` observable.  `Run step s ls es t` chains such steps.  The
rules below package the inductions the rest of the development needs:

* `Run.invariant` and `Run.history` carry an invariant of the state, or of the
  state together with the events so far, along a run;
* `Run.event` finds the step that shows an event;
* `Run.unique` determines the run of a deterministic system;
* `restrict` keeps the steps that meet a guard, so that a run of the restricted
  system is a run whose steps all meet it;
* `Run.simulate` transports a run along a lockstep simulation;
* `remember` adds a history variable, which records what the labels say and the steps do not show.

`exec` runs an executable step function; `Run.of_exec` turns its result into a run, and
`Run.of_exec_guarded` into a run whose steps meet a guard.
-/

namespace Chaonet
namespace Foundation

variable {σ τ ι κ ε δ : Type*}

/-- `Run step s ls es t`: the labels `ls` lead from `s` to `t` and show `es`. -/
inductive Run (step : σ → ι → List ε → σ → Prop) : σ → List ι → List ε → σ → Prop
  | nil (s : σ) : Run step s [] [] s
  | cons {s t u : σ} {l : ι} {ls : List ι} {es es' : List ε} :
      step s l es t → Run step t ls es' u → Run step s (l :: ls) (es ++ es') u

/-- The steps of a system that meet the guard `G`. -/
def restrict (G : σ → ι → Prop) (step : σ → ι → List ε → σ → Prop) :
    σ → ι → List ε → σ → Prop :=
  fun s l es t => G s l ∧ step s l es t

/-- The system of an executable step function: `none` disables a label. -/
def stepOf (f : σ → ι → Option (Traced ε σ)) : σ → ι → List ε → σ → Prop :=
  fun s l es t => f s l = some ⟨t, es⟩

/-- A system with a history variable: `note` is what a label adds to it. -/
def remember {α : Type*} (note : σ → ι → α → α) (step : σ → ι → List ε → σ → Prop) :
    σ × α → ι → List ε → σ × α → Prop :=
  fun s l es t => step s.1 l es t.1 ∧ t.2 = note s.1 l s.2

/-- Run an executable step function over a list of labels. -/
def exec (f : σ → ι → Option (Traced ε σ)) : σ → List ι → Option (Traced ε σ)
  | s, [] => some ⟨s, []⟩
  | s, l :: ls =>
      match f s l with
      | none => none
      | some t =>
          match exec f t.val ls with
          | none => none
          | some u => some ⟨u.val, t.trace ++ u.trace⟩

/-- The step function that refuses what does not meet the guard. -/
def guarded (G : σ → ι → Prop) [∀ s l, Decidable (G s l)] (f : σ → ι → Option (Traced ε σ)) :
    σ → ι → Option (Traced ε σ) :=
  fun s l => if G s l then f s l else none

namespace Run

variable {step : σ → ι → List ε → σ → Prop} {s t u : σ} {l : ι} {ls ls' : List ι}
  {es es' : List ε}

theorem single (h : step s l es t) : Run step s [l] es t := by
  simpa using Run.cons h (Run.nil t)

theorem append (h : Run step s ls es t) (h' : Run step t ls' es' u) :
    Run step s (ls ++ ls') (es ++ es') u := by
  induction h with
  | nil s => simpa using h'
  | cons hstep _ ih =>
      rw [List.append_assoc]
      exact Run.cons hstep (ih h')

/-- A run in two parts. -/
theorem split (h : Run step s (ls ++ ls') es u) :
    ∃ t es₁ es₂, Run step s ls es₁ t ∧ Run step t ls' es₂ u ∧ es = es₁ ++ es₂ := by
  induction ls generalizing s es with
  | nil => exact ⟨s, [], es, .nil s, h, rfl⟩
  | cons l ls ih =>
      cases h with
      | cons hstep hrest =>
          obtain ⟨t, es₁, es₂, hfirst, hsecond, rfl⟩ := ih hrest
          exact ⟨t, _, es₂, .cons hstep hfirst, hsecond, (List.append_assoc ..).symm⟩

/-- Weaken the step relation along a run. -/
theorem mono {step' : σ → ι → List ε → σ → Prop}
    (hsub : ∀ {s l es t}, step s l es t → step' s l es t) (h : Run step s ls es t) :
    Run step' s ls es t := by
  induction h with
  | nil s => exact Run.nil s
  | cons hstep _ ih => exact Run.cons (hsub hstep) ih

/-- The runs of a deterministic system are determined by their labels. -/
theorem unique (hdet : ∀ s l es t es' t', step s l es t → step s l es' t' → es = es' ∧ t = t')
    (h : Run step s ls es t) (h' : Run step s ls es' u) : es = es' ∧ t = u := by
  induction h generalizing es' with
  | nil s =>
      cases h'
      exact ⟨rfl, rfl⟩
  | cons hstep _ ih =>
      cases h' with
      | cons hstep' hrest =>
          obtain ⟨rfl, rfl⟩ := hdet _ _ _ _ _ _ hstep hstep'
          obtain ⟨rfl, rfl⟩ := ih hrest
          exact ⟨rfl, rfl⟩

/-- The invariant rule: what every step preserves holds after every run. -/
theorem invariant {I : σ → Prop} (h : Run step s ls es t) (hinit : I s)
    (hstep : ∀ s l es t, I s → step s l es t → I t) : I t := by
  induction h with
  | nil s => exact hinit
  | cons h _ ih => exact ih (hstep _ _ _ _ hinit h)

/-- The invariant rule with the events so far: `I` may mention what has been
observed since the start of the run. -/
theorem history {I : List ε → σ → Prop} (h : Run step s ls es t) (past : List ε)
    (hinit : I past s)
    (hstep : ∀ past s l es t, I past s → step s l es t → I (past ++ es) t) :
    I (past ++ es) t := by
  induction h generalizing past with
  | nil s => simpa using hinit
  | cons h _ ih =>
      rw [← List.append_assoc]
      exact ih _ (hstep _ _ _ _ _ hinit h)

/-- An invariant holds at each event: the step that shows `e` starts in a state
that satisfies it. -/
theorem event {I : σ → Prop} (h : Run step s ls es t) (hinit : I s)
    (hstep : ∀ s l es t, I s → step s l es t → I t) {e : ε} (he : e ∈ es) :
    ∃ s' l es' t', I s' ∧ step s' l es' t' ∧ e ∈ es' := by
  induction h with
  | nil s => simp at he
  | cons h _ ih =>
      rcases List.mem_append.mp he with he | he
      · exact ⟨_, _, _, _, hinit, h, he⟩
      · exact ih (hstep _ _ _ _ hinit h) he

/-- A lockstep simulation carries runs over: every step of the one system is matched
by a step of the other, under the translated label and with the same events. -/
theorem simulate {step' : τ → κ → List ε → τ → Prop} {R : σ → τ → Prop} {f : ι → κ}
    (hstep : ∀ s l es t a, R s a → step s l es t → ∃ b, step' a (f l) es b ∧ R t b)
    (h : Run step s ls es t) {a : τ} (hR : R s a) :
    ∃ b, Run step' a (ls.map f) es b ∧ R t b := by
  induction h generalizing a with
  | nil s => exact ⟨a, Run.nil a, hR⟩
  | cons h _ ih =>
      obtain ⟨b, hb, hRb⟩ := hstep _ _ _ _ _ hR h
      obtain ⟨c, hc, hRc⟩ := ih hRb
      exact ⟨c, Run.cons hb hc, hRc⟩

/-- A history variable restricts nothing. -/
theorem remember {α : Type*} (note : σ → ι → α → α) (h : Run step s ls es t) (a : α) :
    ∃ b, Run (Foundation.remember note step) (s, a) ls es (t, b) := by
  induction h generalizing a with
  | nil s => exact ⟨a, Run.nil (s, a)⟩
  | @cons s t u l ls es es' hstep _ ih =>
      obtain ⟨b, hrest⟩ := ih (note s l a)
      exact ⟨b, Run.cons (t := (t, note s l a)) ⟨hstep, rfl⟩ hrest⟩

/-- The result of `exec` is a run. -/
theorem of_exec {f : σ → ι → Option (Traced ε σ)} (h : exec f s ls = some ⟨t, es⟩) :
    Run (stepOf f) s ls es t := by
  induction ls generalizing s es with
  | nil =>
      simp only [exec, Option.some.injEq, Traced.mk.injEq] at h
      obtain ⟨rfl, rfl⟩ := h
      exact Run.nil s
  | cons l ls ih =>
      simp only [exec] at h
      cases hstep : f s l with
      | none => simp [hstep] at h
      | some x =>
          cases hrest : exec f x.val ls with
          | none => simp [hstep, hrest] at h
          | some y =>
              simp only [hstep, hrest, Option.some.injEq, Traced.mk.injEq] at h
              obtain ⟨rfl, rfl⟩ := h
              exact Run.cons hstep (ih hrest)

/-- A run that meets a decidable guard is computed by `exec` as well. -/
theorem of_exec_guarded {f : σ → ι → Option (Traced ε σ)} {G : σ → ι → Prop}
    [∀ s l, Decidable (G s l)] (h : exec (guarded G f) s ls = some ⟨t, es⟩) :
    Run (restrict G (stepOf f)) s ls es t := by
  refine (of_exec h).mono fun {s l es t} hstep => ?_
  simp only [stepOf, guarded] at hstep
  split_ifs at hstep with hguard
  exact ⟨hguard, hstep⟩

/-- Run a concrete label list and test the result. -/
theorem exists_of_exec {f : σ → ι → Option (Traced ε σ)} (P : List ε → σ → Prop)
    [∀ es t, Decidable (P es t)]
    (h : (exec f s ls).any (fun x => P x.trace x.val) = true) :
    ∃ es t, Run (stepOf f) s ls es t ∧ P es t := by
  obtain ⟨x, hx, hP⟩ := (Option.any_eq_true _ _).mp h
  exact ⟨x.trace, x.val, of_exec hx, of_decide_eq_true hP⟩

theorem exists_of_exec_guarded {f : σ → ι → Option (Traced ε σ)} {G : σ → ι → Prop}
    [∀ s l, Decidable (G s l)] (P : List ε → σ → Prop) [∀ es t, Decidable (P es t)]
    (h : (exec (guarded G f) s ls).any (fun x => P x.trace x.val) = true) :
    ∃ es t, Run (restrict G (stepOf f)) s ls es t ∧ P es t := by
  obtain ⟨x, hx, hP⟩ := (Option.any_eq_true _ _).mp h
  exact ⟨x.trace, x.val, of_exec_guarded hx, of_decide_eq_true hP⟩

end Run
end Foundation
end Chaonet
