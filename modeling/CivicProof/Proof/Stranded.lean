import CivicProof.Proof.Queue
import Mathlib.Data.Prod.Lex
import Mathlib.Data.Set.Card
import Mathlib.Data.Set.Finite.Lemmas

/-!
# Stranded jobs

Nothing moves a running row back, so a job whose worker dies between the commit of its claim and
the commit that closes it stays running for good.

* `none_stranded`: a run strands no job exactly when no worker dies or loses its connection while
  it holds one.
-/

namespace CivicProof

open Transact

variable {W : Type} {j : JobId} {p : List (QueueEvent W)} {l l' : JobLife W} {s s' : JobQueue W}
  {w : W}

/-! ## Stranding -/

/-- The job that an event strands. -/
def QueueEvent.strands : QueueEvent W → Option JobId
  | .disconnect _ j => some j
  | .crash _ (some (j, φ)) => if φ = .claimed then none else some j
  | _ => none

/-- The worker that an event is a step of. -/
def QueueEvent.worker : QueueEvent W → Option W
  | .tick | .enqueue _ => none
  | .start w | .claim w _ | .commitClaim w _ | .dispatch w _ | .returns w _ | .raises w _
  | .markDone w _ | .commitDone w _ | .markFailed w _ | .commitFailed w _ | .disconnect w _
  | .crash w _ => some w

/-- A job that is running and that nobody will close. -/
def JobLife.Lost : JobLife W → Prop
  | .free row => row.status = .running
  | .taken _ (.held false) _ _ | .taken _ (.dispatching false) _ _ => True
  | _ => False

theorem strands_job {e : QueueEvent W} (h : e.strands = some j) : e.job = some j := by
  cases e with
  | disconnect => exact h
  | crash w position =>
    cases position with
    | none => cases h
    | some at_ =>
      obtain ⟨j', φ⟩ := at_
      unfold QueueEvent.strands at h
      dsimp only at h
      split at h
      · cases h
      · exact h
  | _ => cases h

theorem not_lost_of_status {row : JobRow} {status : JobStatus} (h : row.status = status)
    (hne : status ≠ .running) : ¬(JobLife.free row : JobLife W).Lost := by
  intro hlost
  exact hne (h.symm.trans hlost)

theorem markFailed_status (row : JobRow) (error : String) (now : ℤ) :
    (row.markFailed error now).status = .deadLetter ∨
      (row.markFailed error now).status = .queued := by
  by_cases h : maxAttempts ≤ row.attempts
  · exact Or.inl (if_pos h)
  · exact Or.inr (if_neg h)

/-- **A job is lost when an event strands it**, and stays lost. -/
theorem LifeStep.lost {e : QueueEvent W} (h : LifeStep j l e l') (hok : l.OK) :
    l'.Lost ↔ l.Lost ∨ e.strands = some j := by
  -- neither before nor after
  have hneither : ¬l'.Lost → ¬l.Lost → e.strands ≠ some j →
      (l'.Lost ↔ l.Lost ∨ e.strands = some j) := fun h' h he => iff_of_false h' (not_or.2 ⟨h, he⟩)
  have hnone : (none : Option JobId) ≠ some j := (Option.some_ne_none j).symm
  cases h with
  | other he => exact (or_iff_left fun hs => he (strands_job hs)).symm
  | enqueue hstatus => exact hneither (not_lost_of_status hstatus (by decide)) id hnone
  | claim w hqueued => exact hneither id (not_lost_of_status hqueued (by decide)) hnone
  | commitClaim => exact hneither id id hnone
  | @dispatch w row online =>
    cases online with
    | true => exact hneither id id hnone
    | false => exact iff_of_true trivial (Or.inl trivial)
  | returns => exact hneither id id hnone
  | raises hφ =>
    simp only [List.mem_cons, List.not_mem_nil, or_false] at hφ
    obtain rfl | rfl | rfl := hφ <;> exact hneither id id hnone
  | markDone => exact hneither id id hnone
  | commitDone =>
    obtain ⟨-, hwritten⟩ := hok
    cases hwritten
    exact hneither (not_lost_of_status (rfl : _ = JobStatus.done) (by decide)) id hnone
  | markFailed => exact hneither id id hnone
  | commitFailed =>
    obtain ⟨-, error, now, hwritten⟩ := hok
    cases hwritten
    refine hneither ?_ id hnone
    rcases markFailed_status _ error now with h | h
    · exact not_lost_of_status h (by decide)
    · exact not_lost_of_status h (by decide)
  | disconnectHeld => exact iff_of_true trivial (Or.inr rfl)
  | disconnectDispatching => exact iff_of_true trivial (Or.inr rfl)
  | @crash w φ row written =>
    by_cases hφ : φ = .claimed
    · -- the claim is rolled back
      subst hφ
      exact hneither (not_lost_of_status hok.1 (by decide)) id hnone
    · exact iff_of_true (hok.running hφ) (Or.inr (if_neg hφ))

theorem JobLife.Lost.running (h : l.Lost) (hok : l.OK) :
    l.row.map (·.status) = some .running := by
  cases l with
  | absent => exact h.elim
  | free row => exact congrArg some h
  | taken w φ row written =>
    have hφ : φ ≠ .claimed := by
      rintro rfl
      exact h
    exact congrArg some (JobPhase.Fits.running hok hφ)

theorem lost_of_run (h : Run (LifeStep j) l p l') (hok : l.OK) :
    (l'.Lost ↔ l.Lost ∨ ∃ e ∈ p, e.strands = some j) ∧ l'.OK := by
  induction h with
  | nil => exact ⟨by simp, hok⟩
  | snoc _ hstep ih =>
    refine ⟨?_, hstep.ok ih.2⟩
    rw [hstep.lost ih.2, ih.1, or_assoc]
    simp [or_and_right, exists_or]

/-- Nothing writes the status `failed`. -/
theorem LifeStep.status {e : QueueEvent W} (h : LifeStep j l e l') (hok : l.OK)
    (hl : ∀ row ∈ l.row, row.status ≠ .failed) : ∀ row ∈ l'.row, row.status ≠ .failed := by
  have hof : ∀ {row : JobRow} {status : JobStatus}, row.status = status → status ≠ .failed →
      ∀ row' ∈ some row, row'.status ≠ .failed := by
    rintro row status rfl hne row' ⟨⟩
    exact hne
  cases h with
  | enqueue hstatus => exact hof hstatus nofun
  | commitClaim =>
    obtain ⟨-, hwritten⟩ := hok
    cases hwritten
    exact hof rfl nofun
  | commitDone =>
    obtain ⟨-, hwritten⟩ := hok
    cases hwritten
    exact hof rfl nofun
  | commitFailed =>
    obtain ⟨-, error, now, hwritten⟩ := hok
    cases hwritten
    rcases markFailed_status _ error now with h | h
    · exact hof h nofun
    · exact hof h nofun
  | _ => exact hl

/-! ## All jobs at once -/

/-- The lives of the jobs of a queue. -/
structure Led (s : JobQueue W) (L : JobId → JobLife W) : Prop where
  leads : ∀ j, LeadsOK j s (L j)
  finite : {j | L j ≠ .absent}.Finite
  status : ∀ j, ∀ row ∈ (L j).row, row.status ≠ .failed

variable {L : JobId → JobLife W} {φ : JobPhase} {row : JobRow} {written : Option JobRow}

theorem Led.taken (h : Led s L) (hl : L j = .taken w φ row written) :
    s.jobs j = ⟨some row, written.map (w, ·)⟩ ∧ s.worker w = .at j φ ∧ φ.Fits row written := by
  obtain ⟨hleads, hok⟩ := h.leads j
  rw [hl] at hleads hok
  cases hleads with
  | taken hcell hworker => exact ⟨hcell, hworker, hok⟩

theorem Led.at_worker (h : Led s L) (hw : s.worker w = .at j φ) :
    ∃ row written, L j = .taken w φ row written := by
  obtain ⟨row, written, hl, -⟩ := (h.leads j).1.eq_taken hw
  exact ⟨row, written, hl⟩

section Steps

variable [DecidableEq W]

/-- A step on a job. -/
theorem Led.step {e : QueueEvent W} (h : Led s L) (hstep : QueueStep s e s')
    (he : e.job = some j) : ∃ l', LifeStep j (L j) e l' ∧ Led s' (Function.update L j l') := by
  obtain ⟨hleads, hok⟩ := h.leads j
  obtain ⟨l', hlife, hl'⟩ := hleads.step hok hstep
  refine ⟨l', hlife, ?_, ?_, ?_⟩
  · intro j'
    by_cases hj : j' = j
    · subst hj
      rw [Function.update_self]
      exact ⟨hl', hlife.ok hok⟩
    · rw [Function.update_of_ne hj]
      have hne : e.job ≠ some j' := by
        rw [he]
        exact fun heq => hj (Option.some.inj heq).symm
      exact ⟨(h.leads j').1.frame hstep hne, (h.leads j').2⟩
  · refine (h.finite.insert j).subset fun j' hj' => ?_
    by_cases hj : j' = j
    · exact Or.inl hj
    · have hne : Function.update L j l' j' ≠ .absent := hj'
      rw [Function.update_of_ne hj] at hne
      exact Or.inr hne
  · intro j'
    by_cases hj : j' = j
    · subst hj
      rw [Function.update_self]
      exact hlife.status hok (h.status j')
    · rw [Function.update_of_ne hj]
      exact h.status j'

/-- A step on no job. -/
theorem Led.step_none {e : QueueEvent W} (h : Led s L) (hstep : QueueStep s e s')
    (he : e.job = none) : Led s' L := by
  refine ⟨fun j => ⟨(h.leads j).1.frame hstep ?_, (h.leads j).2⟩, h.finite, h.status⟩
  rw [he]
  exact nofun

end Steps

theorem led_empty (now : ℤ) : Led (JobQueue.empty W now) fun _ => .absent := by
  refine ⟨leadsOK_empty now, ?_, nofun⟩
  simp

theorem QueueRun.led [DecidableEq W] {now : ℤ} (h : QueueRun now p s) :
    ∃ L, Led s L ∧ ∀ j, Run (LifeStep j) .absent p (L j) := by
  induction h with
  | nil => exact ⟨_, led_empty now, fun _ => .nil⟩
  | @snoc p e s s' _ hstep ih =>
    obtain ⟨L, hL, hlives⟩ := ih
    cases he : e.job with
    | none =>
      refine ⟨L, hL.step_none hstep he, fun j => .snoc (hlives j) (.other ?_)⟩
      rw [he]
      exact nofun
    | some j =>
      obtain ⟨l', hlife, hL'⟩ := hL.step hstep he
      refine ⟨_, hL', fun j' => ?_⟩
      by_cases hj : j' = j
      · subst hj
        rw [Function.update_self]
        exact .snoc (hlives j') hlife
      · rw [Function.update_of_ne hj]
        refine .snoc (hlives j') (.other ?_)
        rw [he]
        exact fun heq => hj (Option.some.inj heq).symm

/-! ## Closing a job -/

section Closing

variable [DecidableEq W] {P : JobRow → Prop}

/-- Worker `w` alone can go on until it has closed job `j`, with a row as `P` says. -/
def Closable (P : JobRow → Prop) (s : JobQueue W) (L : JobId → JobLife W) (w : W) (j : JobId) :
    Prop :=
  ∃ q s' row', Run QueueStep s q s' ∧ (∀ e ∈ q, e.worker = some w) ∧
    Led s' (Function.update L j (.free row')) ∧ s'.worker w = .idle ∧ s'.now = s.now ∧ P row'

/-- One step more. -/
theorem Closable.of_step {e : QueueEvent W} (hstep : QueueStep s e s') (he : e.worker = some w)
    (hnow : s'.now = s.now) (h : Closable P s' (Function.update L j l) w j) :
    Closable P s L w j := by
  obtain ⟨q, s'', row', hrun, hown, hled, hidle, hnow', hP⟩ := h
  rw [Function.update_idem] at hled
  exact ⟨e :: q, s'', row', hrun.cons hstep, List.forall_mem_cons.2 ⟨he, hown⟩, hled, hidle,
    hnow'.trans hnow, hP⟩

theorem Led.close_doneMarked (h : Led s L) (hl : L j = .taken w .doneMarked row written) :
    Closable (fun row => row.status = .done) s L w j := by
  obtain ⟨-, hworker, -, rfl⟩ := h.taken hl
  have hstep := QueueStep.commitDone hworker
  obtain ⟨l', hlife, hled⟩ := h.step hstep rfl
  rw [hl] at hlife
  cases hlife with
  | other he => exact absurd rfl he
  | commitDone =>
    exact ⟨_, _, _, .single hstep, List.forall_mem_singleton.2 rfl, hled,
      put_worker.2 (Or.inl ⟨rfl, rfl⟩), rfl, rfl⟩

theorem Led.close_dispatched (h : Led s L) (hl : L j = .taken w .dispatched row written) :
    Closable (fun row => row.status = .done) s L w j := by
  obtain ⟨hcell, hworker, -, rfl⟩ := h.taken hl
  have hfree : (s.jobs j).FreeFor w := by
    rw [hcell]
    exact Cell.freeFor_unlocked
  have hstep := QueueStep.markDone hworker hfree
  obtain ⟨l', hlife, hled⟩ := h.step hstep rfl
  rw [hl] at hlife
  cases hlife with
  | other he => exact absurd rfl he
  | markDone => exact .of_step hstep rfl rfl (hled.close_doneMarked (Function.update_self ..))

theorem Led.close_dispatching (h : Led s L) (hl : L j = .taken w (.dispatching true) row written) :
    Closable (fun row => row.status = .done) s L w j := by
  obtain ⟨-, hworker, -⟩ := h.taken hl
  have hstep := QueueStep.returns hworker
  obtain ⟨l', hlife, hled⟩ := h.step hstep rfl
  rw [hl] at hlife
  cases hlife with
  | other he => exact absurd rfl he
  | returns => exact .of_step hstep rfl rfl (hled.close_dispatched (Function.update_self ..))

theorem Led.close_held (h : Led s L) (hl : L j = .taken w (.held true) row written) :
    Closable (fun row => row.status = .done) s L w j := by
  obtain ⟨-, hworker, -⟩ := h.taken hl
  have hstep := QueueStep.dispatch hworker
  obtain ⟨l', hlife, hled⟩ := h.step hstep rfl
  rw [hl] at hlife
  cases hlife with
  | other he => exact absurd rfl he
  | dispatch => exact .of_step hstep rfl rfl (hled.close_dispatching (Function.update_self ..))

theorem Led.close_claimed (h : Led s L) (hl : L j = .taken w .claimed row written) :
    Closable (fun row => row.status = .done) s L w j := by
  obtain ⟨-, hworker, -⟩ := h.taken hl
  have hstep := QueueStep.commitClaim hworker
  obtain ⟨l', hlife, hled⟩ := h.step hstep rfl
  rw [hl] at hlife
  cases hlife with
  | other he => exact absurd rfl he
  | commitClaim => exact .of_step hstep rfl rfl (hled.close_held (Function.update_self ..))

theorem Led.close_failedMarked (h : Led s L) (hl : L j = .taken w .failedMarked row written) :
    Closable (fun row => row.status = .deadLetter ∨ row.status = .queued) s L w j := by
  obtain ⟨-, hworker, -, error, now, rfl⟩ := h.taken hl
  have hstep := QueueStep.commitFailed hworker
  obtain ⟨l', hlife, hled⟩ := h.step hstep rfl
  rw [hl] at hlife
  cases hlife with
  | other he => exact absurd rfl he
  | commitFailed =>
    exact ⟨_, _, _, .single hstep, List.forall_mem_singleton.2 rfl, hled,
      put_worker.2 (Or.inl ⟨rfl, rfl⟩), rfl, markFailed_status row error now⟩

theorem Led.close_failing (h : Led s L) (hl : L j = .taken w .failing row written) :
    Closable (fun row => row.status = .deadLetter ∨ row.status = .queued) s L w j := by
  obtain ⟨hcell, hworker, -, rfl⟩ := h.taken hl
  have hfree : (s.jobs j).FreeFor w := by
    rw [hcell]
    exact Cell.freeFor_unlocked
  have hstep := QueueStep.markFailed hworker hfree "LookupError()"
  obtain ⟨l', hlife, hled⟩ := h.step hstep rfl
  rw [hl] at hlife
  cases hlife with
  | other he => exact absurd rfl he
  | markFailed => exact .of_step hstep rfl rfl (hled.close_failedMarked (Function.update_self ..))

theorem Closable.mono {Q : JobRow → Prop} (h : Closable P s L w j) (hPQ : ∀ row, P row → Q row) :
    Closable Q s L w j := by
  obtain ⟨q, s', row', hrun, hown, hled, hidle, hnow, hP⟩ := h
  exact ⟨q, s', row', hrun, hown, hled, hidle, hnow, hPQ row' hP⟩

/-- The job goes back to the queue, or has reached a terminal status. -/
def JobStatus.Closed (status : JobStatus) : Prop := status = .queued ∨ status.Terminal

theorem not_closed_running : ¬JobStatus.running.Closed := by
  rintro (h | h | h) <;> cases h

omit [DecidableEq W] in
/-- A free job that is not lost. -/
theorem Led.free_status (h : Led s L) (hl : L j = .free row) (hlost : ¬(L j).Lost) :
    row.status.Closed := by
  have hfailed : row.status ≠ .failed := h.status j row (hl ▸ rfl)
  rw [hl] at hlost
  cases hstatus : row.status with
  | queued => exact Or.inl rfl
  | running => exact absurd hstatus hlost
  | done => exact Or.inr (Or.inl rfl)
  | failed => exact absurd hstatus hfailed
  | deadLetter => exact Or.inr (Or.inr rfl)

/-- **A worker that still has its connection can close the job that it is at.** -/
theorem Led.close (h : Led s L) (hl : L j = .taken w φ row written) (hlost : ¬(L j).Lost) :
    Closable (fun row => row.status.Closed) s L w j := by
  rw [hl] at hlost
  have hdone : Closable (fun row => row.status = .done) s L w j →
      Closable (fun row => row.status.Closed) s L w j :=
    fun hc => hc.mono fun row hrow => Or.inr (Or.inl hrow)
  have hfailed : Closable (fun row => row.status = .deadLetter ∨ row.status = .queued) s L w j →
      Closable (fun row => row.status.Closed) s L w j := by
    refine fun hc => hc.mono fun row hrow => ?_
    rcases hrow with hdead | hqueued
    · exact Or.inr (Or.inr hdead)
    · exact Or.inl hqueued
  cases φ with
  | claimed => exact hdone (h.close_claimed hl)
  | held online =>
    cases online with
    | true => exact hdone (h.close_held hl)
    | false => exact absurd trivial hlost
  | dispatching online =>
    cases online with
    | true => exact hdone (h.close_dispatching hl)
    | false => exact absurd trivial hlost
  | dispatched => exact hdone (h.close_dispatched hl)
  | doneMarked => exact hdone (h.close_doneMarked hl)
  | failing => exact hfailed (h.close_failing hl)
  | failedMarked => exact hfailed (h.close_failedMarked hl)

/-! ## Claiming a job -/

/-- The jobs that wait in the queue. -/
def waiting (L : JobId → JobLife W) : Set JobId := {j | ∃ row, L j = .free row ∧ row.status = .queued}

omit [DecidableEq W] in
theorem Led.waiting_finite (h : Led s L) : (waiting L).Finite := by
  refine h.finite.subset fun j hj => ?_
  obtain ⟨row, hl, -⟩ := hj
  have hne : L j ≠ .absent := by
    rw [hl]
    exact nofun
  exact hne

omit [DecidableEq W] in
theorem sooner_iff {a b : JobRow} :
    a.Sooner b ↔ toLex (a.priority, a.runAfter) < toLex (b.priority, b.runAfter) := by
  rw [Prod.Lex.toLex_lt_toLex]
  rfl

omit [DecidableEq W] in
/-- If a job is due, some job is next. -/
theorem Led.exists_next (h : Led s L) (hl : L j = .free row) (hqueued : row.status = .queued)
    (hdue : row.runAfter ≤ s.now) : ∃ j' row', L j' = .free row' ∧ IsNext s.jobs s.now j' row' := by
  have hfin : {j | ∃ row, L j = .free row ∧ row.status = .queued ∧ row.runAfter ≤ s.now}.Finite :=
    h.waiting_finite.subset fun j hj => hj.imp fun row hrow => ⟨hrow.1, hrow.2.1⟩
  obtain ⟨j', ⟨row', hl', hqueued', hdue'⟩, hmin⟩ := Set.exists_min_image _
    (fun j => (L j).row.elim (toLex (0, 0)) fun row => toLex (row.priority, row.runAfter)) hfin
    ⟨j, row, hl, hqueued, hdue⟩
  have hleads := (h.leads j').1
  rw [hl'] at hleads
  have hcell : s.jobs j' = ⟨some row', none⟩ := by
    cases hleads with
    | free hcell => exact hcell
  refine ⟨j', row', hl', ?_, ?_, ⟨hqueued', hdue', ?_⟩, ?_⟩
  · rw [hcell]
  · rw [hcell]
  · cases row'.kind <;> decide
  · intro j'' row'' hcommitted hunlocked hrunnable hsooner
    obtain ⟨hl'', -⟩ :=
      (h.leads j'').1.eq_free (h.leads j'').2 hcommitted hunlocked hrunnable.1
    have hle := hmin j'' ⟨row'', hl'', hrunnable.1, hrunnable.2.1⟩
    rw [hl', hl''] at hle
    exact absurd (sooner_iff.1 hsooner) (not_lt.2 hle)

/-- An idle worker comes to a job that is due: it does what comes sooner, then claims it. -/
theorem Led.claim_due (n : ℕ) : ∀ {s : JobQueue W} {L : JobId → JobLife W}, Led s L →
    s.worker w = .idle → L j = .free row → row.status = .queued → row.runAfter ≤ s.now →
      (waiting L).ncard ≤ n → ∃ q s', Run QueueStep s q s' ∧ .commitClaim w j ∈ q := by
  induction n with
  | zero =>
    intro s L h _ hl hqueued _ hcard
    have hempty := (Set.ncard_eq_zero h.waiting_finite).1 (Nat.le_zero.1 hcard)
    exact absurd (show j ∈ waiting L from ⟨row, hl, hqueued⟩) (hempty ▸ Set.notMem_empty j)
  | succ n ih =>
    intro s L h hidle hl hqueued hdue hcard
    obtain ⟨j', row', hl', hnext⟩ := h.exists_next hl hqueued hdue
    have hstep := QueueStep.claim hidle hnext
    obtain ⟨l', hlife, hled⟩ := h.step hstep rfl
    rw [hl'] at hlife
    cases hlife with
    | other he => exact absurd rfl he
    | claim =>
      by_cases hj : j' = j
      · subst hj
        obtain ⟨-, hworker, -⟩ := hled.taken (Function.update_self ..)
        exact ⟨_, _, .cons hstep (.single (.commitClaim hworker)), .tail _ (.head _)⟩
      · obtain ⟨q, s'', row'', hrun, -, hled'', hidle'', hnow, hdone⟩ :=
          hled.close_claimed (Function.update_self ..)
        rw [Function.update_idem] at hled''
        have hl'' : Function.update L j' (.free row'') j = .free row :=
          (Function.update_of_ne (Ne.symm hj) ..).trans hl
        -- one job fewer waits
        have hfewer : waiting (Function.update L j' (.free row'')) ⊆ waiting L \ {j'} := by
          rintro i ⟨rowᵢ, hi, hqueuedᵢ⟩
          by_cases hij : i = j'
          · rw [hij, Function.update_self] at hi
            cases hi
            rw [hdone] at hqueuedᵢ
            cases hqueuedᵢ
          · rw [Function.update_of_ne hij] at hi
            exact ⟨⟨rowᵢ, hi, hqueuedᵢ⟩, hij⟩
        have hlt : (waiting L \ {j'}).ncard < (waiting L).ncard :=
          Set.ncard_sdiff_singleton_lt_of_mem ⟨row', hl', hnext.runnable.1⟩ h.waiting_finite
        have hle := Set.ncard_le_ncard hfewer (h.waiting_finite.sdiff)
        obtain ⟨q', s', hrun', hmem⟩ := ih hled'' hidle'' hl'' hqueued (hnow ▸ hdue) (by omega)
        exact ⟨_, s', .cons hstep (hrun.append hrun'), .tail _ (List.mem_append_right _ hmem)⟩

/-- An idle worker claims a job that waits, when its time has come. -/
theorem Led.claim_waiting (h : Led s L) (hidle : s.worker w = .idle) (hl : L j = .free row)
    (hqueued : row.status = .queued) : ∃ q s', Run QueueStep s q s' ∧ .commitClaim w j ∈ q := by
  have htick : QueueStep s .tick { s with now := max s.now row.runAfter } :=
    .tick (le_max_left ..)
  obtain ⟨q, s', hrun, hmem⟩ :=
    Led.claim_due _ (h.step_none htick rfl) hidle hl hqueued (le_max_right ..) le_rfl
  exact ⟨_, s', .cons htick hrun, .tail _ hmem⟩

/-- A worker without a lost job becomes idle. -/
theorem Led.exists_idle (h : Led s L) (hlost : ∀ j, ¬(L j).Lost) (w : W) (hl : L j = .free row) :
    ∃ q s' L', Run QueueStep s q s' ∧ Led s' L' ∧ s'.worker w = .idle ∧ L' j = .free row := by
  cases hw : s.worker w with
  | dead =>
    have hstep := QueueStep.start hw
    exact ⟨_, _, L, .single hstep, h.step_none hstep rfl, put_worker.2 (Or.inl ⟨rfl, rfl⟩), hl⟩
  | idle => exact ⟨_, _, L, .nil, h, hw, hl⟩
  | «at» j' φ =>
    obtain ⟨row', written, hl'⟩ := h.at_worker hw
    have hne : j ≠ j' := by
      rintro rfl
      rw [hl] at hl'
      cases hl'
    obtain ⟨q, s', row'', hrun, -, hled, hidle, -⟩ := h.close hl' (hlost j')
    exact ⟨q, s', _, hrun, hled, hidle, (Function.update_of_ne hne ..).trans hl⟩

/-- **A job that is not lost** is claimed again or reaches a terminal status. -/
theorem Led.goes_on (h : Led s L) (hlost : ∀ j, ¬(L j).Lost) (w : W) {row : JobRow}
    (hrow : (L j).row = some row) :
    ∃ q s', Run QueueStep s q s' ∧
      ((∃ w, .commitClaim w j ∈ q) ∨ ∃ status, s'.status j = some status ∧ status.Terminal) := by
  cases hl : L j with
  | absent =>
    rw [hl] at hrow
    cases hrow
  | free row' =>
    rcases h.free_status hl (hlost j) with hqueued | hterminal
    · obtain ⟨q, s', L', hrun, hled, hidle, hl'⟩ := h.exists_idle hlost w hl
      obtain ⟨q', s'', hrun', hmem⟩ := hled.claim_waiting hidle hl' hqueued
      exact ⟨_, s'', hrun.append hrun', Or.inl ⟨w, List.mem_append_right _ hmem⟩⟩
    · refine ⟨[], s, .nil, Or.inr ⟨row'.status, ?_, hterminal⟩⟩
      rw [(h.leads j).1.status, hl]
      rfl
  | taken w' φ row' written =>
    obtain ⟨q, s', row'', hrun, -, hled, hidle, -, hclosed⟩ := h.close hl (hlost j)
    rcases hclosed with hqueued | hterminal
    · obtain ⟨q', s'', hrun', hmem⟩ :=
        hled.claim_waiting hidle (Function.update_self ..) hqueued
      exact ⟨_, s'', hrun.append hrun', Or.inl ⟨w', List.mem_append_right _ hmem⟩⟩
    · refine ⟨q, s', hrun, Or.inr ⟨row''.status, ?_, hterminal⟩⟩
      rw [(hled.leads j).1.status, Function.update_self]
      rfl

end Closing

/-! ## No job is stranded -/

section Stranded

variable [DecidableEq W]

/-- Worker `w` can close job `j`, all by itself. -/
def WillClose (s : JobQueue W) (w : W) (j : JobId) : Prop :=
  ∃ q s' status, Run QueueStep s q s' ∧ (∀ e ∈ q, e.worker = some w) ∧
    s'.status j = some status ∧ status.Closed

/-- Job `j` can still be claimed, or reach a terminal status. -/
def GoesOn (s : JobQueue W) (j : JobId) : Prop :=
  ∃ q s', Run QueueStep s q s' ∧
    ((∃ w, .commitClaim w j ∈ q) ∨ ∃ status, s'.status j = some status ∧ status.Terminal)

/-- Each job is queued, done or a dead letter, or is running and held by a worker that will close
it; and each goes on. -/
structure NoneStranded (s : JobQueue W) : Prop where
  held : ∀ j status, s.status j = some status →
    status.Closed ∨ (status = .running ∧ ∃ w, Holds s w j ∧ WillClose s w j)
  goes_on : ∀ j status, s.status j = some status → GoesOn s j

theorem Led.closed_or_held (h : Led s L) (hlost : ¬(L j).Lost) (hrow : (L j).row = some row) :
    row.status.Closed ∨ (row.status = .running ∧ ∃ w, Holds s w j ∧ WillClose s w j) := by
  cases hl : L j with
  | absent =>
    rw [hl] at hrow
    cases hrow
  | free row' =>
    rw [hl] at hrow
    cases hrow
    exact Or.inl (h.free_status hl hlost)
  | taken w φ row' written =>
    rw [hl] at hrow
    cases hrow
    obtain ⟨-, hworker, hfits⟩ := h.taken hl
    by_cases hφ : φ = .claimed
    · -- the claim is not committed
      subst hφ
      exact Or.inl (Or.inl hfits.1)
    · obtain ⟨q, s', row'', hrun, hown, hled, -, -, hclosed⟩ := h.close hl hlost
      refine Or.inr ⟨hfits.running hφ, w, ⟨φ, hworker, hφ⟩, q, s', row''.status, hrun, hown, ?_,
        hclosed⟩
      rw [(hled.leads j).1.status, Function.update_self]
      rfl

/-- A lost job stays so. -/
theorem not_noneStranded_of_lost (hl : LeadsOK j s l) (hlost : l.Lost) : ¬NoneStranded s := by
  intro h
  have hstatus : s.status j = some .running := by
    rw [hl.1.status]
    exact hlost.running hl.2
  rcases h.held j _ hstatus with hclosed | ⟨-, w, -, q, s', status, hrun, -, hstatus', hclosed⟩
  · exact not_closed_running hclosed
  · obtain ⟨l', hlife, hl'⟩ := life_of_run hrun hl
    have hlost' : l'.Lost := (lost_of_run hlife hl.2).1.2 (Or.inl hlost)
    have hrunning : some status = some .running := by
      rw [← hstatus', hl'.1.status]
      exact hlost'.running hl'.2
    rw [Option.some.inj hrunning] at hclosed
    exact not_closed_running hclosed

/-- **No job is stranded** in a run of the queue exactly when no worker dies or loses its
connection while it holds a job. -/
theorem none_stranded [Nonempty W] {now : ℤ} {p : List (QueueEvent W)} {s : JobQueue W}
    (h : QueueRun now p s) : NoneStranded s ↔ ∀ e ∈ p, e.strands = none := by
  constructor
  · intro hnone e he
    by_contra hne
    obtain ⟨j, hj⟩ := Option.ne_none_iff_exists'.1 hne
    obtain ⟨l, hlife, hl⟩ := h.life j
    have hlost : l.Lost := (lost_of_run hlife trivial).1.2 (Or.inr ⟨e, he, hj⟩)
    exact not_noneStranded_of_lost hl hlost hnone
  · intro hgood
    obtain ⟨L, hled, hlives⟩ := h.led
    have hlost : ∀ j, ¬(L j).Lost := by
      intro j hj
      rcases (lost_of_run (hlives j) trivial).1.1 hj with habsent | ⟨e, he, hstrands⟩
      · exact habsent
      · rw [hgood e he] at hstrands
        cases hstrands
    constructor
    · intro j status hstatus
      rw [(hled.leads j).1.status] at hstatus
      obtain ⟨row, hrow, rfl⟩ := Option.map_eq_some_iff.1 hstatus
      exact hled.closed_or_held (hlost j) hrow
    · intro j status hstatus
      rw [(hled.leads j).1.status] at hstatus
      obtain ⟨row, hrow, -⟩ := Option.map_eq_some_iff.1 hstatus
      exact hled.goes_on hlost (Classical.arbitrary W) hrow

end Stranded

theorem none_stranded_dying :
    ∃ s, QueueRun 0 dyingRun s ∧ (NoneStranded s ↔ ∀ e ∈ dyingRun, e.strands = none) := by
  obtain ⟨s, hs⟩ := exists_dyingRun
  exact ⟨s, hs, none_stranded hs⟩

/-- The worker dies in the handler of its job. -/
theorem job_stranded : ∃ s, QueueRun 0 dyingRun s ∧ ¬NoneStranded s := by
  obtain ⟨s, hs⟩ := exists_dyingRun
  obtain ⟨l, hlife, hl⟩ := hs.life "a"
  have hlost : l.Lost := (lost_of_run hlife trivial).1.2
    (Or.inr ⟨_, List.mem_of_getLast? rfl, rfl⟩)
  exact ⟨s, hs, not_noneStranded_of_lost hl hlost⟩

end CivicProof
