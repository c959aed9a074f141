import CivicProof.Proof.JobLife

/-!
# Safety of the job queue

* `queue_safe`: in every run of any number of workers, whatever crashes, a job has one holder,
  counts its claims, is dispatched a bounded number of times and stays closed.
-/

namespace CivicProof

open Transact

variable {W : Type} {j : JobId} {p : List (QueueEvent W)}

/-! ## What is counted -/

/-- The job whose claim takes effect. -/
def QueueEvent.claimed : QueueEvent W → Option JobId
  | .commitClaim _ j => some j
  | _ => none

/-- The job that is handed to its handler. -/
def QueueEvent.dispatched : QueueEvent W → Option JobId
  | .dispatch _ j => some j
  | _ => none

/-- How often a job was claimed. -/
def claims (j : JobId) (p : List (QueueEvent W)) : ℕ := p.countP fun e => e.claimed = some j

/-- How often a job was dispatched. -/
def dispatches (j : JobId) (p : List (QueueEvent W)) : ℕ := p.countP fun e => e.dispatched = some j

theorem claims_concat (e : QueueEvent W) :
    claims j (p ++ [e]) = claims j p + if e.claimed = some j then 1 else 0 := by
  simp [claims, List.countP_append, List.countP_singleton]

theorem dispatches_concat (e : QueueEvent W) :
    dispatches j (p ++ [e]) = dispatches j p + if e.dispatched = some j then 1 else 0 := by
  simp [dispatches, List.countP_append, List.countP_singleton]

theorem claimed_job {e : QueueEvent W} (h : e.claimed = some j) : e.job = some j := by
  cases e with
  | commitClaim => exact h
  | _ => cases h

theorem dispatched_job {e : QueueEvent W} (h : e.dispatched = some j) : e.job = some j := by
  cases e with
  | dispatch => exact h
  | _ => cases h

/-! ## Counts in a life -/

/-- The committed row. -/
def JobLife.row : JobLife W → Option JobRow
  | .absent => none
  | .free row => some row
  | .taken _ _ row _ => some row

/-- The job is claimed, and not dispatched yet. -/
def JobLife.Held : JobLife W → Prop
  | .taken _ (.held _) _ _ => True
  | _ => False

/-- The counters agree with the row. -/
structure Counted (j : JobId) (p : List (QueueEvent W)) (l : JobLife W) : Prop where
  absent : l.row = none → claims j p = 0
  attempts : ∀ row ∈ l.row, row.attempts = claims j p
  claims_le : claims j p ≤ maxAttempts
  queued : ∀ row ∈ l.row, row.status = .queued → claims j p < maxAttempts
  dispatches_le : dispatches j p ≤ claims j p
  held : l.Held → dispatches j p < claims j p

/-- An event that counts nothing leaves a row that is not queued anew. -/
theorem Counted.keep {l l' : JobLife W} {e : QueueEvent W} (h : Counted j p l)
    (hclaimed : e.claimed ≠ some j) (hdispatched : e.dispatched ≠ some j)
    (hrow : ∀ row' ∈ l'.row, ∃ row ∈ l.row, row'.attempts = row.attempts ∧
      (row'.status = .queued → row.status = .queued ∨ row.attempts < maxAttempts))
    (hnone : l'.row = none → l.row = none) (hheld : l'.Held → l.Held) :
    Counted j (p ++ [e]) l' := by
  have hc : claims j (p ++ [e]) = claims j p := by rw [claims_concat, if_neg hclaimed, add_zero]
  have hd : dispatches j (p ++ [e]) = dispatches j p := by
    rw [dispatches_concat, if_neg hdispatched, add_zero]
  constructor
  · rw [hc]
    exact fun hl' => h.absent (hnone hl')
  · intro row' hrow'
    obtain ⟨row, hmem, hattempts, -⟩ := hrow row' hrow'
    rw [hc, hattempts]
    exact h.attempts row hmem
  · rw [hc]
    exact h.claims_le
  · intro row' hrow' hqueued
    obtain ⟨row, hmem, -, hstatus⟩ := hrow row' hrow'
    rw [hc]
    rcases hstatus hqueued with hq | hlt
    · exact h.queued row hmem hq
    · exact h.attempts row hmem ▸ hlt
  · rw [hc, hd]
    exact h.dispatches_le
  · rw [hc, hd]
    exact fun hl' => h.held (hheld hl')

theorem Counted.same {l l' : JobLife W} {e : QueueEvent W} (h : Counted j p l)
    (hclaimed : e.claimed ≠ some j) (hdispatched : e.dispatched ≠ some j) (hrow : l'.row = l.row)
    (hheld : l'.Held → l.Held) : Counted j (p ++ [e]) l' := by
  refine h.keep hclaimed hdispatched (fun row hmem => ⟨row, hrow ▸ hmem, rfl, Or.inl⟩)
    (fun hnone => hrow ▸ hnone) hheld

theorem Counted.step {l l' : JobLife W} {e : QueueEvent W} (h : Counted j p l) (hok : l.OK)
    (hstep : LifeStep j l e l') : Counted j (p ++ [e]) l' := by
  cases hstep with
  | other he =>
    exact h.same (fun hc => he (claimed_job hc)) (fun hd => he (dispatched_job hd)) rfl id
  | enqueue hstatus hattempts =>
    have hc : claims j (p ++ [.enqueue j]) = 0 := by
      rw [claims_concat, h.absent rfl]
      rfl
    have hd : dispatches j (p ++ [.enqueue j]) = 0 := by
      have hle := h.dispatches_le
      rw [h.absent rfl] at hle
      rw [dispatches_concat, Nat.le_zero.1 hle]
      rfl
    constructor
    · exact nofun
    · rintro row ⟨⟩
      rw [hc, hattempts]
    · rw [hc]
      exact Nat.zero_le _
    · intro row _ _
      rw [hc]
      decide
    · rw [hd]
      exact Nat.zero_le _
    · exact False.elim
  | claim => exact h.same nofun nofun rfl False.elim
  | @commitClaim w row row' =>
    obtain ⟨hqueued, hwritten⟩ := hok
    cases hwritten
    have hlt := h.queued row rfl hqueued
    have hc : claims j (p ++ [.commitClaim w j]) = claims j p + 1 := by
      rw [claims_concat]
      exact congrArg _ (if_pos rfl)
    have hd : dispatches j (p ++ [.commitClaim w j]) = dispatches j p := dispatches_concat _
    have hle := h.dispatches_le
    constructor
    · exact nofun
    · rintro row' ⟨⟩
      rw [hc, ← h.attempts row rfl]
      rfl
    · rw [hc]
      exact hlt
    · rintro row' ⟨⟩ hq
      cases hq
    · rw [hc, hd]
      omega
    · rw [hc, hd]
      omega
  | @dispatch w row online =>
    have hlt := h.held trivial
    have hc : claims j (p ++ [.dispatch w j]) = claims j p := claims_concat _
    have hd : dispatches j (p ++ [.dispatch w j]) = dispatches j p + 1 := by
      rw [dispatches_concat]
      exact congrArg _ (if_pos rfl)
    constructor
    · exact nofun
    · rw [hc]
      exact h.attempts
    · rw [hc]
      exact h.claims_le
    · rw [hc]
      exact h.queued
    · rw [hc, hd]
      exact hlt
    · exact False.elim
  | returns => exact h.same nofun nofun rfl False.elim
  | raises => exact h.same nofun nofun rfl False.elim
  | markDone => exact h.same nofun nofun rfl False.elim
  | commitDone =>
    obtain ⟨-, hwritten⟩ := hok
    cases hwritten
    refine h.keep nofun nofun ?_ nofun False.elim
    rintro row' ⟨⟩
    exact ⟨_, rfl, rfl, nofun⟩
  | markFailed => exact h.same nofun nofun rfl False.elim
  | @commitFailed w row row' =>
    obtain ⟨-, error, now, hwritten⟩ := hok
    cases hwritten
    refine h.keep nofun nofun ?_ nofun False.elim
    rintro row' ⟨⟩
    refine ⟨row, rfl, rfl, fun hqueued => Or.inr ?_⟩
    -- a job that has used its attempts is not queued
    by_contra hge
    have hdead : (row.markFailed error now).status = .deadLetter := if_pos (not_lt.1 hge)
    rw [hdead] at hqueued
    cases hqueued
  | disconnectHeld => exact h.same nofun nofun rfl id
  | disconnectDispatching => exact h.same nofun nofun rfl False.elim
  | crash => exact h.same nofun nofun rfl False.elim

theorem counted_of_run {l : JobLife W} (h : Run (LifeStep j) .absent p l) :
    Counted j p l ∧ l.OK := by
  induction h with
  | nil =>
    have hcounted : Counted j [] (.absent : JobLife W) :=
      ⟨fun _ => rfl, nofun, Nat.zero_le _, nofun, le_rfl, False.elim⟩
    exact ⟨hcounted, trivial⟩
  | snoc _ hstep ih => exact ⟨ih.1.step ih.2 hstep, hstep.ok ih.2⟩

/-! ## What is closed -/

/-- A job that is done or a dead letter is left alone. -/
theorem LifeStep.closed {row : JobRow} {e : QueueEvent W} {l : JobLife W}
    (h : LifeStep j (.free row) e l) (hrow : row.status ≠ .queued) : l = .free row := by
  cases h with
  | other => rfl
  | claim _ hqueued => exact absurd hqueued hrow

theorem life_closed {row : JobRow} {l : JobLife W} (h : Run (LifeStep j) (.free row) p l)
    (hrow : row.status ≠ .queued) : l = .free row := by
  induction h with
  | nil => rfl
  | snoc _ hstep ih =>
    subst ih
    exact hstep.closed hrow

/-! ## Safety -/

/-- Worker `w` holds job `j`: its claim is committed, and the job is not closed. -/
def Holds (s : JobQueue W) (w : W) (j : JobId) : Prop := ∃ φ, s.worker w = .at j φ ∧ φ ≠ .claimed

/-- The committed status of a job. -/
def JobQueue.status (s : JobQueue W) (j : JobId) : Option JobStatus :=
  (s.jobs j).committed.map (·.status)

/-- `done` and `dead_letter`. -/
def JobStatus.Terminal (status : JobStatus) : Prop := status = .done ∨ status = .deadLetter

variable {s : JobQueue W} {l : JobLife W}

theorem Leads.committed (hl : Leads s j l) : (s.jobs j).committed = l.row := by
  cases hl with
  | absent hcell =>
    rw [hcell]
    rfl
  | free hcell =>
    rw [hcell]
    rfl
  | taken hcell =>
    rw [hcell]
    rfl

theorem Leads.status (hl : Leads s j l) : s.status j = l.row.map (·.status) :=
  congrArg _ hl.committed

theorem JobPhase.Fits.running {φ : JobPhase} {row : JobRow} {written : Option JobRow}
    (h : φ.Fits row written) (hφ : φ ≠ .claimed) : row.status = .running := by
  cases φ with
  | claimed => exact absurd rfl hφ
  | _ => exact h.1

theorem JobPhase.Fits.not_terminal {φ : JobPhase} {row : JobRow} {written : Option JobRow}
    (h : φ.Fits row written) : ¬row.status.Terminal := by
  have hstatus : row.status = .queued ∨ row.status = .running := by
    by_cases hφ : φ = .claimed
    · subst hφ
      exact Or.inl h.1
    · exact Or.inr (h.running hφ)
  rintro (hdone | hdead)
  · rw [hdone] at hstatus
    rcases hstatus with h | h <;> cases h
  · rw [hdead] at hstatus
    rcases hstatus with h | h <;> cases h

variable [DecidableEq W]

/-- What is safe about a queue that has been through `p`. -/
structure QueueSafe (p : List (QueueEvent W)) (s : JobQueue W) : Prop where
  one_holder : ∀ j w w', Holds s w j → Holds s w' j → w = w'
  held_running : ∀ j w, Holds s w j → s.status j = some .running
  attempts : ∀ j, ∀ row ∈ (s.jobs j).committed, row.attempts = claims j p
  dispatches : ∀ j, dispatches j p ≤ maxAttempts
  claim_due : ∀ j w s', QueueStep s (.claim w j) s' →
    ∀ row ∈ (s.jobs j).committed, row.runAfter ≤ s.now
  held_due : ∀ j w, Holds s w j → ∀ row ∈ (s.jobs j).committed, row.runAfter ≤ s.now
  closed : ∀ j status, s.status j = some status → status.Terminal →
    ∀ q s', Run QueueStep s q s' → s'.status j = some status

/-- **The queue is safe** in every state that any number of workers reach, whatever is enqueued
and whatever crashes. -/
theorem queue_safe {now : ℤ} {p : List (QueueEvent W)} {s : JobQueue W} (h : QueueRun now p s) :
    QueueSafe p s := by
  constructor
  · rintro j w w' ⟨φ, hw, -⟩ ⟨φ', hw', -⟩
    obtain ⟨l, -, hl, -⟩ := h.life j
    obtain ⟨row, written, -, -, honly, -⟩ := hl.eq_taken hw'
    exact honly w φ hw
  · rintro j w ⟨φ, hw, hφ⟩
    obtain ⟨l, -, hl, hok⟩ := h.life j
    obtain ⟨row, written, rfl, hcell, -, -⟩ := hl.eq_taken hw
    have hrunning : row.status = .running := JobPhase.Fits.running hok hφ
    unfold JobQueue.status
    rw [hcell, ← hrunning]
    rfl
  · intro j row hrow
    obtain ⟨l, hlife, hl, -⟩ := h.life j
    exact (counted_of_run hlife).1.attempts row (hl.committed ▸ hrow)
  · intro j
    obtain ⟨l, hlife, -⟩ := h.life j
    have hcounted := (counted_of_run hlife).1
    exact hcounted.dispatches_le.trans hcounted.claims_le
  · intro j w s' hstep row hrow
    cases hstep with
    | claim _ hnext =>
      rw [hnext.committed] at hrow
      cases hrow
      exact hnext.runnable.2.1
  · rintro j w ⟨φ, hw, -⟩ row hrow
    obtain ⟨l, -, hl, -⟩ := h.life j
    obtain ⟨row', written, -, hcell, -, hdue⟩ := hl.eq_taken hw
    rw [hcell] at hrow
    cases hrow
    exact hdue
  · intro j status hstatus hterminal q s' hrun
    obtain ⟨l, -, hl⟩ := h.life j
    obtain ⟨l', hlife, hl', -⟩ := life_of_run hrun hl
    rw [hl.1.status] at hstatus
    cases l with
    | absent => cases hstatus
    | free row =>
      have hrow : row.status = status := Option.some.inj hstatus
      have hqueued : row.status ≠ .queued := by
        intro hq
        rw [← hrow, hq] at hterminal
        rcases hterminal with h | h <;> cases h
      rw [hl'.status, life_closed hlife hqueued, ← hrow]
      rfl
    | taken w φ row written =>
      have hrow : row.status = status := Option.some.inj hstatus
      exact absurd (hrow ▸ hterminal) (JobPhase.Fits.not_terminal hl.2)

/-! ## A worker that dies in a handler -/

theorem JobRow.not_sooner_self (row : JobRow) : ¬row.Sooner row := by
  rintro (h | ⟨-, h⟩) <;> exact lt_irrefl _ h

omit [DecidableEq W] in
/-- The only job is next. -/
theorem isNext_only {row : JobRow} (hjobs : ∀ j, s.jobs j = ⟨none, none⟩)
    (hrow : row.Runnable dispatchableKinds s.now) : IsNext (s.insert j row).jobs s.now j row := by
  have hself : (s.insert j row).jobs j = ⟨some row, none⟩ := Function.update_self ..
  refine ⟨congrArg Cell.committed hself, congrArg Cell.pending hself, hrow, ?_⟩
  intro j' row' hcommitted _ _
  by_cases hj : j' = j
  · rw [hj, hself] at hcommitted
    cases hcommitted
    exact row.not_sooner_self
  · have hother : (s.insert j row).jobs j' = s.jobs j' := Function.update_of_ne hj ..
    rw [hother, hjobs] at hcommitted
    cases hcommitted

/-- The row of a job of the people adapter. -/
def fetchJob : JobRow := enqueue .fetch (.obj [("adapter", .str "people")]) 5 none none 0

def dyingRun : List (QueueEvent Unit) :=
  [.start (), .enqueue "a", .claim () "a", .commitClaim () "a", .dispatch () "a",
    .crash () (some ("a", .dispatching true))]

theorem exists_dyingRun : ∃ s, QueueRun 0 dyingRun s := by
  have hnext : IsNext (((JobQueue.empty Unit 0).put () .idle (JobQueue.empty Unit 0).jobs).insert
      "a" fetchJob).jobs 0 "a" fetchJob := isNext_only (fun _ => rfl) ⟨rfl, le_rfl, .head _⟩
  exact ⟨_, .cons (.start rfl)
    (.cons (.enqueue rfl .fetch (.obj [("adapter", .str "people")]) 5 none none)
      (.cons (.claim rfl hnext) (.cons (.commitClaim rfl)
        (.cons (.dispatch rfl) (.single (.crash ()))))))⟩

theorem queue_safe_dying : ∃ s, QueueRun 0 dyingRun s ∧ QueueSafe dyingRun s := by
  obtain ⟨s, hs⟩ := exists_dyingRun
  exact ⟨s, hs, queue_safe hs⟩

end CivicProof
