import CivicProof.Autocommit.Pool

/-!
# Interleaved programs that fail

Pools on an autocommitting connection on which any statement may be refused, or carried out
with its answer lost. The program that issued it raises there (`none`); the others go on.

* `Pool.FaultyStep`: everything a step can do.
* `Pool.faultyRun_induction`: what a step preserves holds after every schedule.
-/

namespace CivicProof.Autocommit

namespace Prog

variable {S : Type} {R : S → Type} {α β : Type}

/-- A program as one that may raise. -/
def guarded (p : Prog S R α) : Prog S R (Option α) := p >>= fun a => .ret (some a)

@[simp] theorem guarded_ret (a : α) : (ret a : Prog S R α).guarded = .ret (some a) := rfl

@[simp] theorem guarded_call (s : S) (k : R s → Prog S R α) :
    (call s k).guarded = .call s fun r => (k r).guarded := rfl

end Prog

open Prog

namespace Pool

variable {ι S : Type} {R : S → Type} {α σ : Type}

/-- Programs that may raise, before any of them has begun. -/
def serving (progs : ι → Prog S R α) (d : σ) : Pool ι S R (Option α) σ where
  prog i := (progs i).guarded
  state := d

variable [DecidableEq ι] (exec : (s : S) → σ → R s × σ)

/-- The next statement of one program meets a fate. -/
def faultyStep (P : Pool ι S R (Option α) σ) (e : ι × Fate) : Pool ι S R (Option α) σ :=
  match P.prog e.1 with
  | .ret _ => P
  | .call s k =>
    match e.2 with
    | .done => P.advance e.1 (k (exec s P.state).1) (exec s P.state).2
    | .refused => P.advance e.1 (.ret none) P.state
    | .lost => P.advance e.1 (.ret none) (exec s P.state).2

/-- The pool after a schedule with fates. -/
def faultyRun (P : Pool ι S R (Option α) σ) (sched : List (ι × Fate)) :
    Pool ι S R (Option α) σ := sched.foldl (faultyStep exec) P

/-- What a step of `i` does: nothing, when it has ended; else its next statement is refused, or
carried out. It goes on only when the statement is carried out and answered. -/
inductive FaultyStep (P : Pool ι S R (Option α) σ) (i : ι) (fate : Fate) :
    Pool ι S R (Option α) σ → Prop
  | idle {a} (hp : P.prog i = .ret a) : FaultyStep P i fate P
  | refused {s k} (hp : P.prog i = .call s k) :
      FaultyStep P i fate (P.advance i (.ret none) P.state)
  | carried {s k p} (hp : P.prog i = .call s k)
      (hgo : fate = .done ∧ p = k (exec s P.state).1 ∨ p = .ret none) :
      FaultyStep P i fate (P.advance i p (exec s P.state).2)

variable {exec} {P : Pool ι S R (Option α) σ}

/-- **Everything a step can do.** -/
theorem faultyStep_cases (P : Pool ι S R (Option α) σ) (i : ι) (fate : Fate) :
    FaultyStep exec P i fate (P.faultyStep exec (i, fate)) := by
  unfold faultyStep
  cases hp : P.prog i with
  | ret a => exact .idle hp
  | call s k =>
    cases fate with
    | done => exact .carried hp (Or.inl ⟨rfl, rfl⟩)
    | refused => exact .refused hp
    | lost => exact .carried hp (Or.inr rfl)

theorem faultyRun_concat (P : Pool ι S R (Option α) σ) (s : List (ι × Fate)) (e : ι × Fate) :
    P.faultyRun exec (s ++ [e]) = (P.faultyRun exec s).faultyStep exec e := List.foldl_append

variable (exec) in
/-- In the course of a schedule `i` had a statement carried out, and answered, in a state. -/
def Ran (P : Pool ι S R (Option α) σ) (sched : List (ι × Fate)) (i : ι) (s : S) (d : σ) : Prop :=
  ∃ before, before ++ [(i, .done)] <+: sched ∧ (P.faultyRun exec before).state = d ∧
    ((P.faultyRun exec before).prog i).next? = some s

theorem Ran.concat {sched : List (ι × Fate)} {i : ι} {s : S} {d : σ}
    (h : Ran exec P sched i s d) (e : ι × Fate) : Ran exec P (sched ++ [e]) i s d := by
  obtain ⟨before, hbefore, hrest⟩ := h
  exact ⟨before, hbefore.trans (List.prefix_append _ _), hrest⟩

theorem ran_last {sched : List (ι × Fate)} {i : ι} {s : S}
    {k : R s → Prog S R (Option α)} (h : (P.faultyRun exec sched).prog i = .call s k) :
    Ran exec P (sched ++ [(i, .done)]) i s (P.faultyRun exec sched).state := by
  refine ⟨sched, List.prefix_refl _, rfl, ?_⟩
  rw [h]
  rfl

/-- What every step preserves, whatever becomes of its statement, holds after every
schedule. -/
theorem faultyRun_induction {I : List (ι × Fate) → Pool ι S R (Option α) σ → Prop}
    (hinit : I [] P)
    (hstep : ∀ s e, I s (P.faultyRun exec s) →
      I (s ++ [e]) ((P.faultyRun exec s).faultyStep exec e))
    (sched : List (ι × Fate)) : I sched (P.faultyRun exec sched) := by
  induction sched using List.reverseRecOn with
  | nil => exact hinit
  | append_singleton s e ih =>
    rw [faultyRun_concat]
    exact hstep s e ih

end Pool

end CivicProof.Autocommit
