import Mathlib.Data.Nat.Notation
import Mathlib.Logic.Basic

/-!
# Statement programs on an autocommitting connection

A client is a program that issues statements and looks at their answers; on an
autocommitting connection each statement is a transaction of its own. `Prog` keeps the
statements as data, so that runs with failures and interleaved runs can tell them apart.

* `runWith_rel`: what the statements of a program respect, each of its runs respects.
-/

namespace CivicProof.Autocommit

/-- A program over statements `S` with answers `R s`, ending with an `α`. -/
inductive Prog (S : Type) (R : S → Type) (α : Type) where
  | ret (a : α)
  | call (s : S) (k : R s → Prog S R α)

namespace Prog

variable {S : Type} {R : S → Type} {α β : Type} {σ : Type}

/-- `p`, then `f` on its result. -/
def andThen (p : Prog S R α) (f : α → Prog S R β) : Prog S R β :=
  match p with
  | .ret a => f a
  | .call s k => .call s fun r => andThen (k r) f

instance : Monad (Prog S R) where
  pure := .ret
  bind := andThen

def issue (s : S) : Prog S R (R s) := .call s .ret

/-- Whether the program has ended. -/
def ended : Prog S R α → Bool
  | .ret _ => true
  | .call _ _ => false

/-- The statement a program issues next. -/
def next? : Prog S R α → Option S
  | .ret _ => none
  | .call s _ => some s

@[simp] theorem bind_ret (a : α) (f : α → Prog S R β) : (Prog.ret a >>= f) = f a := rfl

@[simp] theorem bind_call (s : S) (k : R s → Prog S R α) (f : α → Prog S R β) :
    (Prog.call s k >>= f) = .call s fun r => k r >>= f := rfl

/-! ## Runs -/

/-- What becomes of a statement: it is carried out, it is refused, or it is carried out and its
answer is lost. A program does not go on without an answer. -/
inductive Fate where
  | done
  | refused
  | lost
  deriving DecidableEq, Repr

/-- The statement takes effect. -/
def Fate.effective (fate : Fate) : Prop := fate ≠ .refused

instance (fate : Fate) : Decidable fate.effective := inferInstanceAs (Decidable (_ ≠ _))

/-- The fates of the statements still to come, in order. -/
abbrev Plan := ℕ → Fate

def Plan.tail (plan : Plan) : Plan := fun n => plan (n + 1)

def healthy : Plan := fun _ => .done

variable (exec : (s : S) → σ → R s × σ)

/-- A run with failures: its result, `none` when it raised, and the state it leaves. -/
def runWith (plan : Plan) : Prog S R α → σ → Option α × σ
  | .ret a, d => (some a, d)
  | .call s k, d =>
    match plan 0 with
    | .done => runWith plan.tail (k (exec s d).1) (exec s d).2
    | .refused => (none, d)
    | .lost => (none, (exec s d).2)

variable {exec} {plan : Plan} {d : σ}

theorem runWith_done {s : S} {k : R s → Prog S R α} (h : plan 0 = .done) :
    runWith exec plan (.call s k) d =
      runWith exec plan.tail (k (exec s d).1) (exec s d).2 := by
  rw [runWith, h]

theorem runWith_refused {s : S} {k : R s → Prog S R α} (h : plan 0 = .refused) :
    runWith exec plan (.call s k) d = (none, d) := by
  rw [runWith, h]

theorem runWith_lost {s : S} {k : R s → Prog S R α} (h : plan 0 = .lost) :
    runWith exec plan (.call s k) d = (none, (exec s d).2) := by
  rw [runWith, h]

/-- A statement that leaves the state alone. -/
def Reads (exec : (s : S) → σ → R s × σ) (s : S) : Prop := ∀ d, (exec s d).2 = d

/-- A read that fails leaves the state alone as well. -/
theorem runWith_read {s : S} {k : R s → Prog S R α} (hs : Reads exec s) :
    (plan 0 ≠ .done ∧ runWith exec plan (.call s k) d = (none, d)) ∨
      (plan 0 = .done ∧
        runWith exec plan (.call s k) d = runWith exec plan.tail (k (exec s d).1) d) := by
  cases h : plan 0 with
  | done => exact Or.inr ⟨rfl, by rw [runWith_done h, hs d]⟩
  | refused => exact Or.inl ⟨by decide, runWith_refused h⟩
  | lost => exact Or.inl ⟨by decide, by rw [runWith_lost h, hs d]⟩

/-- A continuation without statements leaves the state of a run alone. -/
theorem runWith_bind_ret {f : α → Prog S R β} (g : α → β) (hf : ∀ a, f a = .ret (g a))
    (p : Prog S R α) : ∀ (plan : Plan) (d : σ),
      (runWith exec plan (p >>= f) d).2 = (runWith exec plan p d).2 := by
  induction p with
  | ret a =>
    intro plan d
    rw [bind_ret, hf]
    rfl
  | call s k ih =>
    intro plan d
    rw [bind_call]
    cases h : plan 0 with
    | done =>
      rw [runWith_done h, runWith_done h]
      exact ih _ _ _
    | refused => rw [runWith_refused h, runWith_refused h]
    | lost => rw [runWith_lost h, runWith_lost h]

/-- Every statement that a program can issue is an allowed one. -/
def Issues (allowed : S → Prop) : Prog S R α → Prop
  | .ret _ => True
  | .call s k => allowed s ∧ ∀ r, Issues allowed (k r)

theorem Issues.bind {allowed : S → Prop} {p : Prog S R α} {f : α → Prog S R β}
    (hp : p.Issues allowed) (hf : ∀ a, (f a).Issues allowed) : (p >>= f).Issues allowed := by
  induction p with
  | ret a => exact hf a
  | call s k ih => exact ⟨hp.1, fun r => ih r (hp.2 r)⟩

/-- **A relation between states** that every allowed statement respects is respected by each run
of a program that issues no others, however the run ends. -/
theorem runWith_rel {allowed : S → Prop} (rel : σ → σ → Prop) (hrefl : ∀ d, rel d d)
    (htrans : ∀ a b c, rel a b → rel b c → rel a c)
    (hexec : ∀ s d, allowed s → rel d (exec s d).2) {p : Prog S R α} (hp : p.Issues allowed) :
    ∀ (plan : Plan) (d : σ), rel d (runWith exec plan p d).2 := by
  induction p with
  | ret a => exact fun _ d => hrefl d
  | call s k ih =>
    intro plan d
    cases h : plan 0 with
    | done =>
      rw [runWith_done h]
      exact htrans _ _ _ (hexec s d hp.1) (ih _ (hp.2 _) _ _)
    | refused =>
      rw [runWith_refused h]
      exact hrefl d
    | lost =>
      rw [runWith_lost h]
      exact hexec s d hp.1

end Prog

end CivicProof.Autocommit
