import CivicProof.Spec.Queue

/-!
# The life of a job

What happens to one job, apart from all others: its row, and the one worker that is at it. The
queue simulates the life of each of its jobs.

* `QueueRun.life`: every run of the queue is a life of each job.
-/

namespace CivicProof

open Transact

variable {W : Type}

/-! ## The life cycle -/

/-- A job with its committed row. -/
inductive JobLife (W : Type) where
  | absent
  /-- No worker is at it. -/
  | free (row : JobRow)
  /-- Worker `w` is, and has written a version of the row. -/
  | taken (w : W) (φ : JobPhase) (row : JobRow) (written : Option JobRow)

/-- The job that an event is about. -/
def QueueEvent.job : QueueEvent W → Option JobId
  | .tick | .start _ => none
  | .enqueue j | .claim _ j | .commitClaim _ j | .dispatch _ j | .returns _ j | .raises _ j
  | .markDone _ j | .commitDone _ j | .markFailed _ j | .commitFailed _ j | .disconnect _ j => some j
  | .crash _ position => position.map Prod.fst

/-- A step in the life of job `j`. -/
inductive LifeStep (j : JobId) : JobLife W → QueueEvent W → JobLife W → Prop where
  | other {l : JobLife W} {e : QueueEvent W} (h : e.job ≠ some j) : LifeStep j l e l
  | enqueue {row : JobRow} (hstatus : row.status = .queued) (hattempts : row.attempts = 0) :
      LifeStep j .absent (.enqueue j) (.free row)
  | claim {row : JobRow} (w : W) (h : row.status = .queued) :
      LifeStep j (.free row) (.claim w j) (.taken w .claimed row (some row.claim))
  | commitClaim {w : W} {row row' : JobRow} :
      LifeStep j (.taken w .claimed row (some row')) (.commitClaim w j)
        (.taken w (.held true) row' none)
  | dispatch {w : W} {row : JobRow} {online : Bool} :
      LifeStep j (.taken w (.held online) row none) (.dispatch w j)
        (.taken w (.dispatching online) row none)
  | returns {w : W} {row : JobRow} :
      LifeStep j (.taken w (.dispatching true) row none) (.returns w j)
        (.taken w .dispatched row none)
  | raises {w : W} {φ : JobPhase} {row : JobRow} {written : Option JobRow}
      (hφ : φ ∈ [.dispatching true, .dispatched, .doneMarked]) :
      LifeStep j (.taken w φ row written) (.raises w j) (.taken w .failing row none)
  | markDone {w : W} {row : JobRow} :
      LifeStep j (.taken w .dispatched row none) (.markDone w j)
        (.taken w .doneMarked row (some row.markDone))
  | commitDone {w : W} {row row' : JobRow} :
      LifeStep j (.taken w .doneMarked row (some row')) (.commitDone w j) (.free row')
  | markFailed {w : W} {row : JobRow} (error : String) (now : ℤ) :
      LifeStep j (.taken w .failing row none) (.markFailed w j)
        (.taken w .failedMarked row (some (row.markFailed error now)))
  | commitFailed {w : W} {row row' : JobRow} :
      LifeStep j (.taken w .failedMarked row (some row')) (.commitFailed w j) (.free row')
  | disconnectHeld {w : W} {row : JobRow} :
      LifeStep j (.taken w (.held true) row none) (.disconnect w j)
        (.taken w (.held false) row none)
  | disconnectDispatching {w : W} {row : JobRow} :
      LifeStep j (.taken w (.dispatching true) row none) (.disconnect w j)
        (.taken w (.dispatching false) row none)
  | crash {w : W} {φ : JobPhase} {row : JobRow} {written : Option JobRow} :
      LifeStep j (.taken w φ row written) (.crash w (some (j, φ))) (.free row)

/-- What a worker has written, and the status that it has found, in each phase. -/
def JobPhase.Fits (row : JobRow) (written : Option JobRow) : JobPhase → Prop
  | .claimed => row.status = .queued ∧ written = some row.claim
  | .doneMarked => row.status = .running ∧ written = some row.markDone
  | .failedMarked => row.status = .running ∧ ∃ error now, written = some (row.markFailed error now)
  | _ => row.status = .running ∧ written = none

/-- The lives that a job leads. -/
def JobLife.OK : JobLife W → Prop
  | .taken _ φ row written => φ.Fits row written
  | _ => True

theorem LifeStep.ok {j : JobId} {l l' : JobLife W} {e : QueueEvent W} (h : LifeStep j l e l')
    (hl : l.OK) : l'.OK := by
  cases h with
  | other => exact hl
  | enqueue => trivial
  | claim w h => exact ⟨h, rfl⟩
  | commitClaim =>
    obtain ⟨-, hwritten⟩ := hl
    cases hwritten
    exact ⟨rfl, rfl⟩
  | dispatch => exact hl
  | returns => exact hl
  | raises hφ =>
    simp only [List.mem_cons, List.not_mem_nil, or_false] at hφ
    obtain rfl | rfl | rfl := hφ <;> exact ⟨hl.1, rfl⟩
  | markDone => exact ⟨hl.1, rfl⟩
  | commitDone => trivial
  | markFailed error now => exact ⟨hl.1, error, now, rfl⟩
  | commitFailed => trivial
  | disconnectHeld => exact hl
  | disconnectDispatching => exact hl
  | crash => trivial

/-! ## The queue leads it -/

/-- Job `j` of a queue is where `l` says. -/
inductive Leads (s : JobQueue W) (j : JobId) : JobLife W → Prop where
  | absent (hcell : s.jobs j = ⟨none, none⟩) (hworker : ∀ w φ, s.worker w ≠ .at j φ) :
      Leads s j .absent
  | free {row : JobRow} (hcell : s.jobs j = ⟨some row, none⟩)
      (hworker : ∀ w φ, s.worker w ≠ .at j φ) : Leads s j (.free row)
  | taken {w : W} {φ : JobPhase} {row : JobRow} {written : Option JobRow}
      (hcell : s.jobs j = ⟨some row, written.map (w, ·)⟩) (hworker : s.worker w = .at j φ)
      (honly : ∀ w' φ', s.worker w' = .at j φ' → w' = w) (hdue : row.runAfter ≤ s.now) :
      Leads s j (.taken w φ row written)

variable {s s' : JobQueue W} {j : JobId} {l : JobLife W} {w : W} {x : Worker} {t : Jobs W}

/-- A job that a worker is at. -/
theorem Leads.eq_taken {φ : JobPhase} (hl : Leads s j l) (h : s.worker w = .at j φ) :
    ∃ row written, l = .taken w φ row written ∧ s.jobs j = ⟨some row, written.map (w, ·)⟩ ∧
      (∀ w' φ', s.worker w' = .at j φ' → w' = w) ∧ row.runAfter ≤ s.now := by
  cases hl with
  | absent _ hworker => exact absurd h (hworker w φ)
  | free _ hworker => exact absurd h (hworker w φ)
  | @taken w' φ' row written hcell hworker honly hdue =>
    obtain rfl := honly w φ h
    obtain rfl : φ' = φ := by
      rw [h] at hworker
      cases hworker
      rfl
    exact ⟨row, written, rfl, hcell, honly, hdue⟩

/-- Only a worker that is at a job holds its row. -/
theorem Leads.owner (hl : Leads s j l) {v : W × JobRow} (hv : v ∈ (s.jobs j).pending) :
    ∃ φ, s.worker v.1 = .at j φ := by
  cases hl with
  | absent hcell =>
    rw [hcell] at hv
    cases hv
  | free hcell =>
    rw [hcell] at hv
    cases hv
  | taken hcell hworker =>
    rw [hcell] at hv
    obtain ⟨row', -, rfl⟩ := Option.map_eq_some_iff.1 hv
    exact ⟨_, hworker⟩

theorem at_ne {j' : JobId} {φ' : JobPhase} (h : s.worker w = .at j' φ') (hne : j' ≠ j) :
    ∀ φ, s.worker w ≠ .at j φ := by
  intro φ hφ
  rw [h] at hφ
  cases hφ
  exact hne rfl

/-- A queued job whose row nobody holds is free. -/
theorem Leads.eq_free {row : JobRow} (hl : Leads s j l) (hok : l.OK)
    (hrow : (s.jobs j).committed = some row) (hunlocked : (s.jobs j).pending = none)
    (hqueued : row.status = .queued) :
    l = .free row ∧ s.jobs j = ⟨some row, none⟩ ∧ ∀ w φ, s.worker w ≠ .at j φ := by
  have hcell : s.jobs j = ⟨some row, none⟩ := by
    rw [← hrow, ← hunlocked]
  cases hl with
  | absent hcell' =>
    rw [hcell'] at hcell
    cases hcell
  | free hcell' hworker =>
    rw [hcell'] at hcell
    cases hcell
    exact ⟨rfl, hcell', hworker⟩
  | @taken w φ row' written hcell' hworker =>
    -- a worker that has written nothing is at a running job
    rw [hcell'] at hcell
    obtain ⟨hrow', hwritten⟩ := Cell.mk.inj hcell
    cases hrow'
    rw [Option.map_eq_none_iff] at hwritten
    subst hwritten
    have hrunning : row.status = .running := by
      cases φ with
      | claimed => cases hok.2
      | _ => exact hok.1
    rw [hqueued] at hrunning
    cases hrunning

/-- Job `j` leads a life that it can lead. -/
def LeadsOK (j : JobId) (s : JobQueue W) (l : JobLife W) : Prop := Leads s j l ∧ l.OK

theorem leadsOK_empty (now : ℤ) (j : JobId) : LeadsOK j (JobQueue.empty W now) .absent :=
  ⟨.absent rfl nofun, trivial⟩

variable [DecidableEq W]

theorem put_worker {w' : W} {y : Worker} :
    (s.put w x t).worker w' = y ↔ (w' = w ∧ x = y) ∨ (w' ≠ w ∧ s.worker w' = y) := by
  by_cases h : w' = w
  · subst h
    simp [JobQueue.put]
  · simp [JobQueue.put, h]

/-- Nothing happens to the job. -/
theorem Leads.put_other (hl : Leads s j l) (hw : ∀ φ, s.worker w ≠ .at j φ)
    (hx : ∀ φ, x ≠ .at j φ) (ht : t j = s.jobs j) : Leads (s.put w x t) j l := by
  have hat : ∀ w' φ, (s.put w x t).worker w' = .at j φ ↔ s.worker w' = .at j φ := by
    intro w' φ
    rw [put_worker]
    constructor
    · rintro (⟨-, h⟩ | ⟨-, h⟩)
      · exact absurd h (hx φ)
      · exact h
    · intro h
      refine Or.inr ⟨fun heq => hw φ (heq ▸ h), h⟩
  cases hl with
  | absent hcell hworker => exact .absent (ht.trans hcell) fun w' φ h => hworker w' φ ((hat w' φ).1 h)
  | free hcell hworker => exact .free (ht.trans hcell) fun w' φ h => hworker w' φ ((hat w' φ).1 h)
  | taken hcell hworker honly hdue =>
    exact .taken (ht.trans hcell) ((hat _ _).2 hworker) (fun w' φ h => honly w' φ ((hat w' φ).1 h))
      hdue

theorem Leads.commit_other (hl : Leads s j l) (hw : ∀ φ, s.worker w ≠ .at j φ) :
    s.jobs.commit w j = s.jobs j := by
  refine Cell.commit_of_ne fun v hv hvw => ?_
  obtain ⟨φ, hφ⟩ := hl.owner hv
  exact hw φ (hvw ▸ hφ)

theorem Leads.rollback_other (hl : Leads s j l) (hw : ∀ φ, s.worker w ≠ .at j φ) :
    s.jobs.rollback w j = s.jobs j := by
  refine Cell.rollback_of_ne fun v hv hvw => ?_
  obtain ⟨φ, hφ⟩ := hl.owner hv
  exact hw φ (hvw ▸ hφ)

/-- The worker goes on with the job. -/
theorem leads_put_taken {φ : JobPhase} {row : JobRow} {written : Option JobRow}
    (hcell : t j = ⟨some row, written.map (w, ·)⟩)
    (honly : ∀ w' φ', s.worker w' = .at j φ' → w' = w) (hdue : row.runAfter ≤ s.now) :
    Leads (s.put w (.at j φ) t) j (.taken w φ row written) := by
  refine .taken hcell (put_worker.2 (Or.inl ⟨rfl, rfl⟩)) (fun w' φ' h => ?_) hdue
  rcases put_worker.1 h with ⟨h, -⟩ | ⟨-, h⟩
  · exact h
  · exact honly w' φ' h

/-- The worker leaves the job. -/
theorem leads_put_free {row : JobRow} (hcell : t j = ⟨some row, none⟩) (hx : ∀ φ, x ≠ .at j φ)
    (honly : ∀ w' φ', s.worker w' = .at j φ' → w' = w) :
    Leads (s.put w x t) j (.free row) := by
  refine .free hcell fun w' φ h => ?_
  rcases put_worker.1 h with ⟨-, h⟩ | ⟨hne, h⟩
  · exact hx φ h
  · exact hne (honly w' φ h)

/-- **A step leaves every other job alone.** -/
theorem Leads.frame {e : QueueEvent W} (hl : Leads s j l) (h : QueueStep s e s')
    (he : e.job ≠ some j) : Leads s' j l := by
  -- the same for every step of a worker on another job
  have hother : ∀ {j' : JobId}, some j' ≠ some j → ∀ ψ φ, Worker.at j' ψ ≠ .at j φ := by
    intro j' hne ψ φ heq
    cases heq
    exact hne rfl
  cases h with
  | tick hnow =>
    cases hl with
    | absent hcell hworker => exact .absent hcell hworker
    | free hcell hworker => exact .free hcell hworker
    | taken hcell hworker honly hdue => exact .taken hcell hworker honly (hdue.trans hnow)
  | @enqueue j' hcell =>
    have hne : j ≠ j' := fun heq => he (congrArg some heq.symm)
    have hjobs : ∀ row, (s.insert j' row).jobs j = s.jobs j := fun row => Function.update_of_ne hne ..
    cases hl with
    | absent hcell hworker => exact .absent ((hjobs _).trans hcell) hworker
    | free hcell hworker => exact .free ((hjobs _).trans hcell) hworker
    | taken hcell hworker honly hdue => exact .taken ((hjobs _).trans hcell) hworker honly hdue
  | start h => exact hl.put_other (by simp [h]) nofun rfl
  | @claim w j' row h =>
    have hne : j ≠ j' := fun heq => he (congrArg some heq.symm)
    exact hl.put_other (by simp [h]) (hother he _) (Table.modify_of_ne hne _)
  | commitClaim h =>
    have hat := at_ne h fun heq => he (congrArg some heq)
    exact hl.put_other hat (hother he _) (hl.commit_other hat)
  | dispatch h => exact hl.put_other (at_ne h fun heq => he (congrArg some heq)) (hother he _) rfl
  | returns h => exact hl.put_other (at_ne h fun heq => he (congrArg some heq)) (hother he _) rfl
  | raises h =>
    have hat := at_ne h fun heq => he (congrArg some heq)
    exact hl.put_other hat (hother he _) (hl.rollback_other hat)
  | @markDone w j' h =>
    have hne : j ≠ j' := fun heq => he (congrArg some heq.symm)
    exact hl.put_other (at_ne h hne.symm) (hother he _) (Table.modify_of_ne hne _)
  | commitDone h =>
    have hat := at_ne h fun heq => he (congrArg some heq)
    exact hl.put_other hat nofun (hl.commit_other hat)
  | @markFailed w j' h =>
    have hne : j ≠ j' := fun heq => he (congrArg some heq.symm)
    exact hl.put_other (at_ne h hne.symm) (hother he _) (Table.modify_of_ne hne _)
  | commitFailed h =>
    have hat := at_ne h fun heq => he (congrArg some heq)
    exact hl.put_other hat nofun (hl.commit_other hat)
  | disconnectHeld h =>
    exact hl.put_other (at_ne h fun heq => he (congrArg some heq)) (hother he _) rfl
  | disconnectDispatching h =>
    exact hl.put_other (at_ne h fun heq => he (congrArg some heq)) (hother he _) rfl
  | crash w =>
    have hat : ∀ φ, s.worker w ≠ .at j φ := by
      intro φ hφ
      rw [hφ] at he
      exact he rfl
    exact hl.put_other hat nofun (hl.rollback_other hat)

/-- **A step of the queue is a step in the life of each job.** -/
theorem Leads.step {e : QueueEvent W} (hl : Leads s j l) (hok : l.OK) (h : QueueStep s e s') :
    ∃ l', LifeStep j l e l' ∧ Leads s' j l' := by
  by_cases he : e.job = some j
  swap
  · exact ⟨l, .other he, hl.frame h he⟩
  cases h with
  | tick => cases he
  | start => cases he
  | enqueue hcell =>
    cases he
    cases hl with
    | absent _ hworker => exact ⟨_, .enqueue rfl rfl, .free (Function.update_self ..) hworker⟩
    | free hcell' =>
      rw [hcell] at hcell'
      cases hcell'
    | taken hcell' =>
      rw [hcell] at hcell'
      cases hcell'
  | claim h hnext =>
    cases he
    obtain ⟨rfl, hcell, hnone⟩ :=
      hl.eq_free hok hnext.committed hnext.unlocked hnext.runnable.1
    refine ⟨_, .claim _ hnext.runnable.1, leads_put_taken ?_ (fun w' φ' h' => absurd h' (hnone w' φ'))
      hnext.runnable.2.1⟩
    rw [Table.modify_self, hcell]
    rfl
  | commitClaim h =>
    cases he
    obtain ⟨row, written, rfl, hcell, honly, hdue⟩ := hl.eq_taken h
    obtain ⟨-, rfl⟩ := hok
    refine ⟨_, .commitClaim, leads_put_taken ?_ honly hdue⟩
    rw [Table.commit_apply, hcell]
    exact Cell.commit_own
  | dispatch h =>
    cases he
    obtain ⟨row, written, rfl, hcell, honly, hdue⟩ := hl.eq_taken h
    obtain ⟨-, rfl⟩ := hok
    exact ⟨_, .dispatch, leads_put_taken hcell honly hdue⟩
  | returns h =>
    cases he
    obtain ⟨row, written, rfl, hcell, honly, hdue⟩ := hl.eq_taken h
    obtain ⟨-, rfl⟩ := hok
    exact ⟨_, .returns, leads_put_taken hcell honly hdue⟩
  | raises h hφ =>
    cases he
    obtain ⟨row, written, rfl, hcell, honly, hdue⟩ := hl.eq_taken h
    refine ⟨_, .raises hφ, leads_put_taken ?_ honly hdue⟩
    rw [Table.rollback_apply, hcell]
    exact Cell.rollback_own written
  | markDone h =>
    cases he
    obtain ⟨row, written, rfl, hcell, honly, hdue⟩ := hl.eq_taken h
    obtain ⟨-, rfl⟩ := hok
    refine ⟨_, .markDone, leads_put_taken ?_ honly hdue⟩
    rw [Table.modify_self, hcell]
    rfl
  | commitDone h =>
    cases he
    obtain ⟨row, written, rfl, hcell, honly, hdue⟩ := hl.eq_taken h
    obtain ⟨-, rfl⟩ := hok
    refine ⟨_, .commitDone, leads_put_free ?_ nofun honly⟩
    rw [Table.commit_apply, hcell]
    exact Cell.commit_own
  | markFailed h _ error =>
    cases he
    obtain ⟨row, written, rfl, hcell, honly, hdue⟩ := hl.eq_taken h
    obtain ⟨-, rfl⟩ := hok
    refine ⟨_, .markFailed error s.now, leads_put_taken ?_ honly hdue⟩
    rw [Table.modify_self, hcell]
    rfl
  | commitFailed h =>
    cases he
    obtain ⟨row, written, rfl, hcell, honly, hdue⟩ := hl.eq_taken h
    obtain ⟨-, error, now, rfl⟩ := hok
    refine ⟨_, .commitFailed, leads_put_free ?_ nofun honly⟩
    rw [Table.commit_apply, hcell]
    exact Cell.commit_own
  | disconnectHeld h =>
    cases he
    obtain ⟨row, written, rfl, hcell, honly, hdue⟩ := hl.eq_taken h
    obtain ⟨-, rfl⟩ := hok
    exact ⟨_, .disconnectHeld, leads_put_taken hcell honly hdue⟩
  | disconnectDispatching h =>
    cases he
    obtain ⟨row, written, rfl, hcell, honly, hdue⟩ := hl.eq_taken h
    obtain ⟨-, rfl⟩ := hok
    exact ⟨_, .disconnectDispatching, leads_put_taken hcell honly hdue⟩
  | crash w =>
    obtain ⟨φ, hφ⟩ : ∃ φ, s.worker w = .at j φ := by
      cases hw : s.worker w with
      | dead =>
        rw [hw] at he
        cases he
      | idle =>
        rw [hw] at he
        cases he
      | «at» j' φ =>
        rw [hw] at he
        cases he
        exact ⟨φ, rfl⟩
    rw [hφ]
    obtain ⟨row, written, rfl, hcell, honly, -⟩ := hl.eq_taken hφ
    refine ⟨_, .crash, leads_put_free ?_ nofun honly⟩
    rw [Table.rollback_apply, hcell]
    exact Cell.rollback_own written

/-- What a queue goes through from `s` on is a life of each job. -/
theorem life_of_run {p : List (QueueEvent W)} (h : Run QueueStep s p s') (hl : LeadsOK j s l) :
    ∃ l', Run (LifeStep j) l p l' ∧ LeadsOK j s' l' := by
  refine h.simulates (fun s e s' l hl hstep => ?_) hl
  obtain ⟨l', hlife, hl'⟩ := hl.1.step hl.2 hstep
  exact ⟨l', hlife, hl', hlife.ok hl.2⟩

/-- **Every run of the queue is a life of each job.** -/
theorem QueueRun.life {now : ℤ} {p : List (QueueEvent W)} (h : QueueRun now p s) (j : JobId) :
    ∃ l, Run (LifeStep j) .absent p l ∧ LeadsOK j s l :=
  life_of_run h (leadsOK_empty now j)

end CivicProof
