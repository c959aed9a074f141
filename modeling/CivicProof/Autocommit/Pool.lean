import CivicProof.Autocommit.Prog
import Mathlib.Data.List.Basic
import Mathlib.Data.List.Induction
import Mathlib.Logic.Function.Basic

/-!
# Interleaved programs

A pool of programs on one autocommitting connection: a step runs the next statement of one
of them. Runs are schedules, lists of who steps.

* `Pool.run_induction`: what a step preserves holds after every schedule.
* `Pool.points_realtime`: ordering the programs by a step they take once they have begun and
  before they have ended agrees with real time.
-/

namespace CivicProof.Autocommit

open Prog

/-- Programs, by name, and the state they share. -/
structure Pool (ι S : Type) (R : S → Type) (α σ : Type) where
  prog : ι → Prog S R α
  state : σ

namespace Pool

variable {ι S : Type} {R : S → Type} {α σ : Type} [DecidableEq ι]
  (exec : (s : S) → σ → R s × σ)

/-- `i` goes on as `p`, in state `d`. -/
def advance (P : Pool ι S R α σ) (i : ι) (p : Prog S R α) (d : σ) : Pool ι S R α σ where
  prog := Function.update P.prog i p
  state := d

/-- `i` runs its next statement, if it has one. -/
def step (P : Pool ι S R α σ) (i : ι) : Pool ι S R α σ :=
  match P.prog i with
  | .ret _ => P
  | .call s k => P.advance i (k (exec s P.state).1) (exec s P.state).2

/-- The pool after a schedule. -/
def run (P : Pool ι S R α σ) (sched : List ι) : Pool ι S R α σ := sched.foldl (step exec) P

/-- `i` has ended. -/
def Finished (P : Pool ι S R α σ) (i : ι) : Prop := (P.prog i).ended = true

def Quiescent (P : Pool ι S R α σ) : Prop := ∀ i, P.Finished i

variable {exec} {P : Pool ι S R α σ} {i j : ι}

@[simp] theorem advance_state (p : Prog S R α) (d : σ) : (P.advance i p d).state = d := rfl

@[simp] theorem advance_prog (p : Prog S R α) (d : σ) : (P.advance i p d).prog i = p := by
  simp [advance]

theorem advance_prog_of_ne (h : j ≠ i) (p : Prog S R α) (d : σ) :
    (P.advance i p d).prog j = P.prog j := by
  simp [advance, h]

theorem step_ret {a : α} (h : P.prog i = .ret a) : P.step exec i = P := by
  rw [step, h]

theorem step_call {s : S} {k : R s → Prog S R α} (h : P.prog i = .call s k) :
    P.step exec i = P.advance i (k (exec s P.state).1) (exec s P.state).2 := by
  rw [step, h]

theorem step_prog_of_ne (h : j ≠ i) : (P.step exec i).prog j = P.prog j := by
  cases hp : P.prog i with
  | ret a => rw [step_ret hp]
  | call s k =>
    rw [step_call hp]
    exact advance_prog_of_ne h _ _

theorem run_append (P : Pool ι S R α σ) (s t : List ι) :
    P.run exec (s ++ t) = (P.run exec s).run exec t := List.foldl_append

theorem run_concat (P : Pool ι S R α σ) (s : List ι) (i : ι) :
    P.run exec (s ++ [i]) = (P.run exec s).step exec i := run_append P s [i]

variable (exec) in
/-- Every step of a schedule is a good one for the pool it is taken in. -/
def EachStep (good : Pool ι S R α σ → ι → Prop) (P : Pool ι S R α σ) (sched : List ι) : Prop :=
  ∀ s i, s ++ [i] <+: sched → good (P.run exec s) i

theorem EachStep.of_prefix {good : Pool ι S R α σ → ι → Prop} {s t : List ι}
    (h : EachStep exec good P t) (hst : s <+: t) : EachStep exec good P s :=
  fun p i hp => h p i (hp.trans hst)

@[simp] theorem eachStep_nil {good : Pool ι S R α σ → ι → Prop} : EachStep exec good P [] := by
  intro s i h
  simp at h

/-- The steps of a schedule one by one. -/
theorem eachStep_cons {good : Pool ι S R α σ → ι → Prop} {sched : List ι} :
    EachStep exec good P (i :: sched) ↔ good P i ∧ EachStep exec good (P.step exec i) sched := by
  constructor
  · intro h
    exact ⟨h [] i (by simp), fun s j hs => h (i :: s) j ((List.prefix_cons_inj i).2 hs)⟩
  · rintro ⟨hi, h⟩ s j hs
    cases s with
    | nil =>
      obtain rfl : j = i := by simpa using hs
      exact hi
    | cons k s =>
      rw [List.cons_append, List.cons_prefix_cons] at hs
      obtain ⟨rfl, hs⟩ := hs
      exact h s j hs

/-- **What every good step preserves holds after every schedule of good steps.** -/
theorem run_induction_of {good : Pool ι S R α σ → ι → Prop}
    {I : List ι → Pool ι S R α σ → Prop} (hinit : I [] P)
    (hstep : ∀ s i, I s (P.run exec s) → good (P.run exec s) i →
      I (s ++ [i]) ((P.run exec s).step exec i)) :
    ∀ sched, EachStep exec good P sched → I sched (P.run exec sched) := by
  intro sched
  induction sched using List.reverseRecOn with
  | nil => exact fun _ => hinit
  | append_singleton s i ih =>
    intro hgood
    rw [run_concat]
    exact hstep s i (ih (hgood.of_prefix (List.prefix_append s [i])))
      (hgood s i (List.prefix_refl _))

/-- What every step preserves holds after every schedule. -/
theorem run_induction {I : List ι → Pool ι S R α σ → Prop} (hinit : I [] P)
    (hstep : ∀ s i, I s (P.run exec s) → I (s ++ [i]) ((P.run exec s).step exec i))
    (sched : List ι) : I sched (P.run exec sched) := by
  have hall : EachStep exec (fun _ _ => True) P sched := fun _ _ _ => trivial
  exact run_induction_of hinit (fun s i h _ => hstep s i h) sched hall

/-! ## Real time -/

theorem Finished.step (h : P.Finished i) (j : ι) : (P.step exec j).Finished i := by
  unfold Finished at h ⊢
  by_cases hij : i = j
  · subst hij
    cases hp : P.prog i with
    | ret a =>
      rw [step_ret hp, hp]
      rfl
    | call s k =>
      rw [hp] at h
      cases h
  · rwa [step_prog_of_ne hij]

variable (exec) in
theorem Finished.run (h : P.Finished i) (sched : List ι) : (P.run exec sched).Finished i := by
  induction sched using List.reverseRecOn with
  | nil => exact h
  | append_singleton s j ih =>
    rw [run_concat]
    exact ih.step j

variable (exec) in
/-- `i` ends before `j` takes its first step. -/
def Precedes (P : Pool ι S R α σ) (sched : List ι) (i j : ι) : Prop :=
  ∃ p q, sched = p ++ q ∧ (P.run exec p).Finished i ∧ j ∉ p

variable (exec) in
/-- The steps of a schedule at which a test on the pool and the stepping program holds, by the
program's name. -/
def points (test : Pool ι S R α σ → ι → Bool) (P : Pool ι S R α σ) : List ι → List ι
  | [] => []
  | i :: rest => (if test P i then [i] else []) ++ points test (P.step exec i) rest

variable {test : Pool ι S R α σ → ι → Bool}

theorem points_append (P : Pool ι S R α σ) (s t : List ι) :
    points exec test P (s ++ t) = points exec test P s ++ points exec test (P.run exec s) t := by
  induction s generalizing P with
  | nil => rfl
  | cons i s ih =>
    rw [List.cons_append, points, points, ih, List.append_assoc]
    rfl

theorem points_concat (P : Pool ι S R α σ) (s : List ι) (i : ι) :
    points exec test P (s ++ [i]) =
      points exec test P s ++ if test (P.run exec s) i then [i] else [] := by
  rw [points_append, points, points, List.append_nil]

theorem mem_of_mem_points {P : Pool ι S R α σ} {s : List ι} {i : ι}
    (h : i ∈ points exec test P s) : i ∈ s := by
  induction s generalizing P with
  | nil => exact h
  | cons j s ih =>
    rw [points, List.mem_append] at h
    rcases h with h | h
    · split at h
      · exact List.mem_cons.2 (Or.inl (List.mem_singleton.1 h))
      · exact absurd h List.not_mem_nil
    · exact List.mem_cons_of_mem _ (ih h)

/-- Precedence over a schedule that goes on, for a program that has begun. -/
theorem Precedes.of_concat {s : List ι} {k : ι} (h : Precedes exec P (s ++ [k]) i j)
    (hj : j ∈ s) : Precedes exec P s i j := by
  obtain ⟨p, q, heq, hfin, hnot⟩ := h
  rcases List.eq_nil_or_concat' q with rfl | ⟨q', x, rfl⟩
  · rw [List.append_nil] at heq
    exact absurd (heq ▸ List.mem_append_left _ hj) hnot
  · rw [← List.append_assoc] at heq
    exact ⟨p, q', (List.append_inj' heq rfl).1, hfin, hnot⟩

/-- **Points agree with real time**, when only programs that have not ended have them: nobody
precedes a program ordered before them. -/
theorem points_realtime (htest : ∀ P i, test P i = true → ¬P.Finished i) (sched : List ι) :
    (points exec test P sched).Pairwise fun a b => ¬Precedes exec P sched b a := by
  induction sched using List.reverseRecOn with
  | nil => exact List.Pairwise.nil
  | append_singleton s k ih =>
    rw [points_concat, List.pairwise_append]
    refine ⟨ih.imp_of_mem fun ha _ hab hprec => hab (hprec.of_concat (mem_of_mem_points ha)),
      ?_, fun a ha b hb hprec => ?_⟩
    · split
      · exact List.pairwise_singleton _ _
      · exact List.Pairwise.nil
    · split at hb
      · rename_i hk
        rw [List.mem_singleton.1 hb] at hprec
        obtain ⟨p, q, rfl, hfin, -⟩ := hprec.of_concat (mem_of_mem_points ha)
        have hend := hfin.run exec q
        rw [← run_append] at hend
        exact htest _ _ hk hend
      · exact absurd hb List.not_mem_nil

end Pool

end CivicProof.Autocommit
