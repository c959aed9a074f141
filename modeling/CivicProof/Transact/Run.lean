import Mathlib.Data.List.Basic

/-!
# Runs of a transition system

The runs of a labelled step relation, from a state on, by the labels of their steps.

* `Run.preserves`: what every step preserves holds after every run.
* `Run.simulates`: a simulation of steps is one of runs.
-/

namespace CivicProof.Transact

variable {S T E : Type}

/-- The runs from `s`. -/
inductive Run (step : S → E → S → Prop) (s : S) : List E → S → Prop where
  | nil : Run step s [] s
  | snoc {p : List E} {e : E} {t u : S} : Run step s p t → step t e u → Run step s (p ++ [e]) u

variable {step : S → E → S → Prop} {s t u : S} {p q : List E} {e : E}

theorem Run.single (h : step s e t) : Run step s [e] t := .snoc .nil h

theorem Run.append (h : Run step s p t) (h' : Run step t q u) : Run step s (p ++ q) u := by
  induction h' with
  | nil => rwa [List.append_nil]
  | snoc _ hstep ih =>
    rw [← List.append_assoc]
    exact .snoc ih hstep

theorem Run.cons (h : step s e t) (h' : Run step t q u) : Run step s (e :: q) u :=
  (Run.single h).append h'

/-- A run and what holds of the labels and the states it passes. -/
theorem Run.preserves {I : List E → S → Prop} (hinit : I [] s)
    (hstep : ∀ p t e u, Run step s p t → I p t → step t e u → I (p ++ [e]) u)
    (h : Run step s p t) : I p t := by
  induction h with
  | nil => exact hinit
  | snoc hrun hlast ih => exact hstep _ _ _ _ hrun ih hlast

/-- **A simulation of steps is one of runs.** -/
theorem Run.simulates {step' : T → E → T → Prop} {R : S → T → Prop}
    (hstep : ∀ s e s' t, R s t → step s e s' → ∃ t', step' t e t' ∧ R s' t') {s' : S}
    (h : Run step s p s') {t : T} (hR : R s t) : ∃ t', Run step' t p t' ∧ R s' t' := by
  induction h with
  | nil => exact ⟨t, .nil, hR⟩
  | snoc _ hlast ih =>
    obtain ⟨t', hrun, hR'⟩ := ih
    obtain ⟨t'', hstep', hR''⟩ := hstep _ _ _ _ hR' hlast
    exact ⟨t'', .snoc hrun hstep', hR''⟩

end CivicProof.Transact
