import CivicProof.Proof.Stranded
import CivicProof.Spec.Handlers

/-!
# The queue comes to rest

A job has five attempts of at most eight steps, and each step of a worker on it uses one of them
up; only a claim that is rolled back gives one back. And as long as a job is open, some worker can
go on.

* `queue_work`: in any run the steps on a job are bounded.
* `queue_settles`: where no worker can go on, a job is done or a dead letter, and done only if it
  has a handler.
-/

namespace CivicProof

open Transact

variable {W : Type} {j : JobId} {p : List (QueueEvent W)} {l l' : JobLife W} {s s' : JobQueue W}
  {w : W}

/-! ## What is left to do -/

/-- A step of a worker on a job. -/
def QueueEvent.works : QueueEvent W → Bool
  | .claim .. | .commitClaim .. | .dispatch .. | .returns .. | .raises .. | .markDone ..
  | .commitDone .. | .markFailed .. | .commitFailed .. => true
  | .tick | .enqueue _ | .start _ | .disconnect .. | .crash .. => false

/-- A step of a worker on job `j`. -/
def QueueEvent.worksOn (j : JobId) (e : QueueEvent W) : Bool := e.works && e.job = some j

/-- Job `j` is inserted. -/
def QueueEvent.inserts (j : JobId) : QueueEvent W → Bool
  | .enqueue j' => j' = j
  | _ => false

/-- The claim of job `j` is rolled back by a crash. -/
def QueueEvent.unclaims (j : JobId) : QueueEvent W → Bool
  | .crash _ (some (j', .claimed)) => j' = j
  | _ => false

/-- The steps that an attempt may still take from a phase on: at most those of a success path that
fails at its last statement. -/
def JobPhase.toGo : JobPhase → ℕ
  | .claimed => 7
  | .held _ => 6
  | .dispatching _ => 5
  | .dispatched => 4
  | .doneMarked => 3
  | .failing => 2
  | .failedMarked => 1

/-- The steps of the attempts that are left after `n`. -/
def attemptsToGo (n : ℕ) : ℕ := 8 * (maxAttempts - n)

/-- The steps that a job may still take. -/
def JobLife.toGo : JobLife W → ℕ
  | .absent => 0
  | .free row => if row.status = .queued then attemptsToGo row.attempts else 0
  -- the claim that is not committed will count
  | .taken _ .claimed row _ => 7 + attemptsToGo (row.attempts + 1)
  | .taken _ φ row _ => φ.toGo + attemptsToGo row.attempts

theorem attemptsToGo_succ {n : ℕ} (h : n < maxAttempts) :
    attemptsToGo n = 8 + attemptsToGo (n + 1) := by
  unfold attemptsToGo
  omega

/-- A job that waits has an attempt left. -/
def JobLife.Fresh (l : JobLife W) : Prop :=
  ∀ row ∈ l.row, row.status = .queued → row.attempts < maxAttempts

theorem free_toGo (row : JobRow) : (JobLife.free row : JobLife W).toGo =
    if row.status = .queued then attemptsToGo row.attempts else 0 := rfl

theorem free_toGo_zero {row : JobRow} (h : row.status ≠ .queued) :
    (JobLife.free row : JobLife W).toGo = 0 := by
  rw [free_toGo, if_neg h]

theorem free_toGo_le (row : JobRow) :
    (JobLife.free row : JobLife W).toGo ≤ attemptsToGo row.attempts := by
  rw [free_toGo]
  split
  · exact le_rfl
  · exact Nat.zero_le _

/-- The steps that an event counts for, and those that it gives. -/
def QueueEvent.used (j : JobId) (e : QueueEvent W) : ℕ := if e.worksOn j then 1 else 0

def QueueEvent.given (j : JobId) (e : QueueEvent W) : ℕ :=
  (if e.inserts j then attemptsToGo 0 else 0) + if e.unclaims j then 1 else 0

theorem used_self {e : QueueEvent W} (h : e.works = true) (he : e.job = some j) : e.used j = 1 := by
  simp [QueueEvent.used, QueueEvent.worksOn, h, he]

theorem used_of_not_works {e : QueueEvent W} (h : e.works = false) : e.used j = 0 := by
  simp [QueueEvent.used, QueueEvent.worksOn, h]

/-- **Each step on a job uses up one of those that are left.** -/
theorem LifeStep.toGo {e : QueueEvent W} (h : LifeStep j l e l') (hok : l.OK) (hfresh : l.Fresh) :
    l'.toGo + e.used j ≤ l.toGo + e.given j := by
  cases h with
  | other he =>
    have hused : e.used j = 0 := by simp [QueueEvent.used, QueueEvent.worksOn, he]
    rw [hused]
    exact Nat.le_add_right _ _
  | @enqueue row hstatus hattempts =>
    have hgiven : (QueueEvent.enqueue j : QueueEvent W).given j = attemptsToGo 0 := by
      simp [QueueEvent.given, QueueEvent.inserts, QueueEvent.unclaims]
    have hle := free_toGo_le (W := W) row
    rw [hattempts] at hle
    rw [hgiven, used_of_not_works rfl]
    exact hle.trans (Nat.le_add_left _ _)
  | @claim row w hqueued =>
    have hlt := hfresh row rfl hqueued
    have hleft := attemptsToGo_succ hlt
    rw [used_self rfl rfl, free_toGo, if_pos hqueued, hleft]
    change 7 + attemptsToGo (row.attempts + 1) + 1 ≤ _
    omega
  | @commitClaim w row row' =>
    obtain ⟨-, hwritten⟩ := hok
    cases hwritten
    rw [used_self rfl rfl]
    change 6 + attemptsToGo (row.attempts + 1) + 1 ≤ 7 + attemptsToGo (row.attempts + 1) + _
    omega
  | @dispatch w row online =>
    rw [used_self rfl rfl]
    change 5 + attemptsToGo row.attempts + 1 ≤ 6 + attemptsToGo row.attempts + _
    omega
  | @returns w row =>
    rw [used_self rfl rfl]
    change 4 + attemptsToGo row.attempts + 1 ≤ 5 + attemptsToGo row.attempts + _
    omega
  | @raises w φ row written hφ =>
    have hphase : 3 + attemptsToGo row.attempts ≤ (JobLife.taken w φ row written).toGo := by
      simp only [List.mem_cons, List.not_mem_nil, or_false] at hφ
      obtain rfl | rfl | rfl := hφ <;> exact Nat.add_le_add_right (by decide) _
    rw [used_self rfl rfl]
    change 2 + attemptsToGo row.attempts + 1 ≤ _
    omega
  | @markDone w row =>
    rw [used_self rfl rfl]
    change 3 + attemptsToGo row.attempts + 1 ≤ 4 + attemptsToGo row.attempts + _
    omega
  | @commitDone w row row' =>
    obtain ⟨-, hwritten⟩ := hok
    cases hwritten
    have hclosed : row.markDone.status ≠ .queued := JobStatus.noConfusion
    have hdone := free_toGo_zero (W := W) hclosed
    rw [used_self rfl rfl, hdone]
    change 0 + 1 ≤ 3 + attemptsToGo row.attempts + _
    omega
  | @markFailed w row error now =>
    rw [used_self rfl rfl]
    change 1 + attemptsToGo row.attempts + 1 ≤ 2 + attemptsToGo row.attempts + _
    omega
  | @commitFailed w row row' =>
    obtain ⟨-, error, now, hwritten⟩ := hok
    cases hwritten
    have hle := free_toGo_le (W := W) (row.markFailed error now)
    rw [used_self rfl rfl]
    change _ + 1 ≤ 1 + attemptsToGo row.attempts + _
    change _ ≤ attemptsToGo row.attempts at hle
    omega
  | disconnectHeld =>
    rw [used_of_not_works rfl]
    exact Nat.le_add_right _ _
  | disconnectDispatching =>
    rw [used_of_not_works rfl]
    exact Nat.le_add_right _ _
  | @crash w φ row written =>
    rw [used_of_not_works rfl, add_zero]
    by_cases hφ : φ = .claimed
    · -- the attempt is taken back
      subst hφ
      have hgiven : (QueueEvent.crash w (some (j, .claimed)) : QueueEvent W).given j = 1 := by
        simp [QueueEvent.given, QueueEvent.inserts, QueueEvent.unclaims]
      have hleft := attemptsToGo_succ (hfresh row rfl hok.1)
      have hle := free_toGo_le (W := W) row
      rw [hgiven]
      change _ ≤ 7 + attemptsToGo (row.attempts + 1) + 1
      omega
    · have hzero : (JobLife.free row : JobLife W).toGo = 0 := by
        refine free_toGo_zero fun hqueued => ?_
        have hrunning : row.status = .running := JobPhase.Fits.running hok hφ
        rw [hrunning] at hqueued
        cases hqueued
      rw [hzero]
      exact Nat.zero_le _

/-! ## Bounded work -/

/-- The steps on a job. -/
def workOn (j : JobId) (p : List (QueueEvent W)) : ℕ := p.countP (QueueEvent.worksOn j)

/-- How often a job was inserted. -/
def insertions (j : JobId) (p : List (QueueEvent W)) : ℕ := p.countP (QueueEvent.inserts j)

/-- How often a claim of a job was rolled back. -/
def unclaimed (j : JobId) (p : List (QueueEvent W)) : ℕ := p.countP (QueueEvent.unclaims j)

theorem counted_fresh (hl : Counted j p l) : l.Fresh := by
  intro row hrow hqueued
  have hlt := hl.queued row hrow hqueued
  rwa [← hl.attempts row hrow] at hlt

theorem toGo_of_life (h : Run (LifeStep j) .absent p l) :
    l.toGo + workOn j p ≤ attemptsToGo 0 * insertions j p + unclaimed j p := by
  induction h with
  | nil => exact le_rfl
  | @snoc p e l l' hrun hstep ih =>
    obtain ⟨hcounted, hok⟩ := counted_of_run hrun
    have hone := hstep.toGo hok (counted_fresh hcounted)
    have hwork : workOn j (p ++ [e]) = workOn j p + e.used j := by
      unfold workOn QueueEvent.used
      rw [List.countP_append, List.countP_singleton]
    have hinsert : insertions j (p ++ [e]) = insertions j p + if e.inserts j then 1 else 0 := by
      unfold insertions
      rw [List.countP_append, List.countP_singleton]
    have hback : unclaimed j (p ++ [e]) = unclaimed j p + if e.unclaims j then 1 else 0 := by
      unfold unclaimed
      rw [List.countP_append, List.countP_singleton]
    have hgiven : e.given j =
        attemptsToGo 0 * (if e.inserts j then 1 else 0) + if e.unclaims j then 1 else 0 := by
      unfold QueueEvent.given
      split <;> simp
    rw [hwork, hinsert, hback, Nat.mul_add]
    omega

theorem LifeStep.insertions {e : QueueEvent W} (h : LifeStep j l e l') (hl : l ≠ .absent) :
    e.inserts j = false ∧ l' ≠ .absent := by
  cases h with
  | other he =>
    refine ⟨?_, hl⟩
    cases e with
    | enqueue j' => exact decide_eq_false fun heq => he (congrArg some heq)
    | _ => rfl
  | enqueue => exact absurd rfl hl
  | _ => exact ⟨rfl, nofun⟩

/-- A job is inserted once. -/
theorem insertions_of_life (h : Run (LifeStep j) .absent p l) :
    insertions j p ≤ 1 ∧ (l = .absent → insertions j p = 0) := by
  induction h with
  | nil => exact ⟨Nat.zero_le _, fun _ => rfl⟩
  | @snoc p e l l' _ hstep ih =>
    have hcount : insertions j (p ++ [e]) = insertions j p + if e.inserts j then 1 else 0 := by
      unfold insertions
      rw [List.countP_append, List.countP_singleton]
    by_cases hl : l = .absent
    · subst hl
      rw [hcount, ih.2 rfl]
      cases hstep with
      | other he =>
        have hno : e.inserts j = false := by
          cases e with
          | enqueue j' => exact decide_eq_false fun heq => he (congrArg some heq)
          | _ => rfl
        rw [hno]
        exact ⟨Nat.zero_le _, fun _ => rfl⟩
      | enqueue =>
        refine ⟨?_, nofun⟩
        split <;> omega
    · obtain ⟨hno, hl'⟩ := hstep.insertions hl
      rw [hcount, hno]
      exact ⟨ih.1, fun heq => absurd heq hl'⟩

/-- **The steps on a job are bounded**, in every run: five attempts of eight steps, and one more for
each claim that a crash has rolled back. -/
theorem queue_work [DecidableEq W] {now : ℤ} (h : QueueRun now p s) (j : JobId) :
    workOn j p ≤ 8 * maxAttempts + unclaimed j p := by
  obtain ⟨l, hlife, -⟩ := h.life j
  have hbound := toGo_of_life hlife
  have honce := (insertions_of_life hlife).1
  have hall : attemptsToGo 0 * insertions j p ≤ 8 * maxAttempts :=
    (Nat.mul_le_mul_left _ honce).trans (by decide)
  omega

theorem queue_work_dying : ∃ s, QueueRun 0 dyingRun s ∧
    workOn "a" dyingRun ≤ 8 * maxAttempts + unclaimed "a" dyingRun := by
  obtain ⟨s, hs⟩ := exists_dyingRun
  exact ⟨s, hs, queue_work hs "a"⟩

/-! ## Handlers -/

variable {H : Type} {registry : HandlerRegistry H}

/-- What is known of a job whose handler is looked up: only with one is it done, or on the way; and
only after all attempts is it a dead letter. -/
def JobLife.Honest (registry : HandlerRegistry H) : JobLife W → Prop
  | .absent => True
  | .free row => (row.status = .done → row.HasHandler registry) ∧
    (row.status = .deadLetter → maxAttempts ≤ row.attempts)
  | .taken _ φ row _ => φ = .dispatched ∨ φ = .doneMarked → row.HasHandler registry

theorem LifeStep.honest {e : QueueEvent W} (h : LifeStep j l e l') (hok : l.OK)
    (hl : l.Honest registry)
    (hfound : ∀ w, e = .returns w j → ∀ row ∈ l.row, row.HasHandler registry) :
    l'.Honest registry := by
  cases h with
  | other => exact hl
  | enqueue hstatus =>
    refine ⟨fun hdone => ?_, fun hdead => ?_⟩
    · rw [hstatus] at hdone
      cases hdone
    · rw [hstatus] at hdead
      cases hdead
  | returns => exact fun _ => hfound _ rfl _ rfl
  | markDone => exact fun _ => hl (Or.inl rfl)
  | commitDone =>
    obtain ⟨-, hwritten⟩ := hok
    cases hwritten
    exact ⟨fun _ => hl (Or.inr rfl), JobStatus.noConfusion⟩
  | @commitFailed w row row' =>
    obtain ⟨-, error, now, hwritten⟩ := hok
    cases hwritten
    refine ⟨fun hdone => ?_, fun hdead => ?_⟩
    · rcases markFailed_status row error now with h | h <;> rw [h] at hdone <;> cases hdone
    · by_contra hlt
      have hqueued : (row.markFailed error now).status = .queued := if_neg hlt
      rw [hqueued] at hdead
      cases hdead
  | @crash w φ row written =>
    -- the row is still queued or running
    refine ⟨fun hdone => ?_, fun hdead => ?_⟩
    · exact absurd (Or.inl hdone) (JobPhase.Fits.not_terminal hok)
    · exact absurd (Or.inr hdead) (JobPhase.Fits.not_terminal hok)
  | claim | commitClaim | dispatch | raises | markFailed | disconnectHeld | disconnectDispatching =>
    rintro (h | h) <;> cases h

variable [DecidableEq W] {L : JobId → JobLife W}

/-- A run whose workers dispatch by a registry. -/
abbrev HandledRun (registry : HandlerRegistry H) (now : ℤ) : List (QueueEvent W) → JobQueue W → Prop :=
  Run (HandledStep registry) (JobQueue.empty W now)

theorem handled_queueRun {now : ℤ} (h : HandledRun registry now p s) : QueueRun now p s := by
  induction h with
  | nil => exact .nil
  | snoc _ hstep ih => exact .snoc ih hstep.step

theorem HandledRun.led {now : ℤ} (h : HandledRun registry now p s) :
    ∃ L, Led s L ∧ ∀ j, Run (LifeStep j) .absent p (L j) ∧ (L j).Honest registry := by
  induction h with
  | nil => exact ⟨_, led_empty now, fun _ => ⟨.nil, trivial⟩⟩
  | @snoc p e s s' _ hstep ih =>
    obtain ⟨L, hL, hlives⟩ := ih
    cases he : e.job with
    | none =>
      refine ⟨L, hL.step_none hstep.step he, fun j => ⟨.snoc (hlives j).1 (.other ?_), (hlives j).2⟩⟩
      rw [he]
      exact nofun
    | some j =>
      obtain ⟨l', hlife, hL'⟩ := hL.step hstep.step he
      refine ⟨_, hL', fun j' => ?_⟩
      by_cases hj : j' = j
      · subst hj
        rw [Function.update_self]
        refine ⟨.snoc (hlives j').1 hlife, hlife.honest (hL.leads j').2 (hlives j').2 ?_⟩
        intro w hreturns row hrow
        rw [← (hL.leads j').1.committed] at hrow
        exact hstep.found w j' hreturns row hrow
      · rw [Function.update_of_ne hj]
        refine ⟨.snoc (hlives j').1 (.other ?_), (hlives j').2⟩
        rw [he]
        exact fun heq => hj (Option.some.inj heq).symm

/-! ## Where the queue is at rest -/

/-- Time passes, a worker is started, or one goes on with a job. -/
def QueueEvent.GoesOn (e : QueueEvent W) : Prop := e = .tick ∨ (∃ w, e = .start w) ∨ e.works = true

/-- No worker can take a step on a job, however long it waits and whoever is started. -/
def AtRest (registry : HandlerRegistry H) (s : JobQueue W) : Prop :=
  ∀ q s', Run (HandledStep registry) s q s' → (∀ e ∈ q, e.GoesOn) → ∀ e ∈ q, e.works = false

theorem HandledStep.of_step {e : QueueEvent W} (h : QueueStep s e s')
    (he : ∀ w j, e ≠ .returns w j) : HandledStep registry s e s' :=
  ⟨h, fun w j heq => absurd heq (he w j)⟩

variable (registry) in
/-- **A worker that still has its connection** can go on with the job that it is at. -/
theorem Led.taken_goes_on (h : Led s L) {φ : JobPhase} {row : JobRow} {written : Option JobRow}
    (hl : L j = .taken w φ row written) (hlost : ¬(L j).Lost) :
    ∃ e s', HandledStep registry s e s' ∧ e.works = true := by
  obtain ⟨hcell, hworker, hfits⟩ := h.taken hl
  rw [hl] at hlost
  have hfree : written = none → (s.jobs j).FreeFor w := by
    rintro rfl
    rw [hcell]
    exact Cell.freeFor_unlocked
  cases φ with
  | claimed => exact ⟨_, _, .of_step (.commitClaim hworker) nofun, rfl⟩
  | held online => exact ⟨_, _, .of_step (.dispatch hworker) nofun, rfl⟩
  | dispatching online =>
    cases online with
    | true => exact ⟨_, _, .of_step (.raises hworker (by decide)) nofun, rfl⟩
    | false => exact absurd trivial hlost
  | dispatched => exact ⟨_, _, .of_step (.markDone hworker (hfree hfits.2)) nofun, rfl⟩
  | doneMarked => exact ⟨_, _, .of_step (.commitDone hworker) nofun, rfl⟩
  | failing =>
    exact ⟨_, _, .of_step (.markFailed hworker (hfree hfits.2) "LookupError()") nofun, rfl⟩
  | failedMarked => exact ⟨_, _, .of_step (.commitFailed hworker) nofun, rfl⟩

variable (registry) in
/-- An idle worker finds a job to claim, when the time of one that waits has come. -/
theorem Led.idle_goes_on (h : Led s L) (hidle : s.worker w = .idle) {row : JobRow}
    (hl : L j = .free row) (hqueued : row.status = .queued) :
    ∃ s₁ e s', HandledStep registry s .tick s₁ ∧ HandledStep registry s₁ e s' ∧ e.works = true := by
  have htick : QueueStep s .tick { s with now := max s.now row.runAfter } := .tick (le_max_left ..)
  obtain ⟨j', row', -, hnext⟩ :=
    (h.step_none htick rfl).exists_next hl hqueued (le_max_right ..)
  have hclaim := QueueStep.claim (s := { s with now := max s.now row.runAfter }) hidle hnext
  exact ⟨_, _, _, .of_step htick nofun, .of_step hclaim nofun, rfl⟩

/-- **As long as a job is open, some worker can go on.** -/
theorem Led.not_atRest [Nonempty W] (h : Led s L) (hlost : ∀ j, ¬(L j).Lost) {row : JobRow}
    (hrow : (L j).row = some row) (hopen : ¬row.status.Terminal) : ¬AtRest registry s := by
  intro hrest
  have hno : ∀ e s', HandledStep registry s e s' → e.works = true → False := by
    intro e s' hstep he
    have hfalse := hrest [e] s' (.single hstep)
      (List.forall_mem_singleton.2 (Or.inr (Or.inr he))) e (List.mem_singleton_self _)
    rw [he] at hfalse
    cases hfalse
  have htaken : ∀ j' w φ row written, L j' = .taken w φ row written → False := by
    intro j' w φ row written hl
    obtain ⟨e, s', hstep, he⟩ := h.taken_goes_on registry hl (hlost j')
    exact hno e s' hstep he
  -- nobody is at a job, so somebody is idle, or can be started
  have hwait : ∀ {s₀ : JobQueue W} {q : List (QueueEvent W)} {w : W},
      Run (HandledStep registry) s q s₀ → (∀ e ∈ q, e.GoesOn) → Led s₀ L → s₀.worker w = .idle →
        L j = .free row → row.status = .queued → False := by
    intro s₀ q w hrun hgoes hled hidle hl hqueued
    obtain ⟨s₁, e, s', htick, hstep, he⟩ := hled.idle_goes_on registry hidle hl hqueued
    have hfalse := hrest (q ++ [.tick] ++ [e]) s' ((hrun.append (.single htick)).append (.single hstep))
      ?_ e (List.mem_append_right _ (List.mem_singleton_self _))
    · rw [he] at hfalse
      cases hfalse
    · intro e' he'
      rcases List.mem_append.1 he' with he' | he'
      · rcases List.mem_append.1 he' with he' | he'
        · exact hgoes e' he'
        · exact Or.inl (List.mem_singleton.1 he')
      · exact Or.inr (Or.inr (List.mem_singleton.1 he' ▸ he))
  cases hl : L j with
  | absent =>
    rw [hl] at hrow
    cases hrow
  | taken w φ row' written => exact htaken j w φ row' written hl
  | free row' =>
    rw [hl] at hrow
    cases hrow
    have hqueued : row.status = .queued := (h.free_status hl (hlost j)).resolve_right hopen
    obtain ⟨w⟩ := ‹Nonempty W›
    cases hw : s.worker w with
    | dead =>
      have hstart := QueueStep.start hw
      refine hwait (.single (.of_step hstart nofun)) ?_ (h.step_none hstart rfl)
        (put_worker.2 (Or.inl ⟨rfl, rfl⟩)) hl hqueued
      exact List.forall_mem_singleton.2 (Or.inr (Or.inl ⟨w, rfl⟩))
    | idle => exact hwait .nil nofun h hw hl hqueued
    | «at» j' φ =>
      obtain ⟨row'', written, hl'⟩ := h.at_worker hw
      exact htaken j' w φ row'' written hl'

/-- Where every job is closed, nobody can go on. -/
theorem Led.atRest (h : Led s L)
    (hclosed : ∀ j, L j = .absent ∨ ∃ row, L j = .free row ∧ row.status ≠ .queued) :
    AtRest registry s := by
  intro q s' hrun hgoes
  have hstay : Led s' L ∧ ∀ e ∈ q, e.works = false := by
    induction hrun with
    | nil => exact ⟨h, nofun⟩
    | @snoc q e t u _ hstep ih =>
      obtain ⟨hled, hnone⟩ := ih fun e he => hgoes e (List.mem_append_left _ he)
      have hidle : e.works = false → Led u L ∧ ∀ e' ∈ q ++ [e], e'.works = false := by
        intro he
        refine ⟨hled.step_none hstep.step ?_, ?_⟩
        · rcases hgoes e (List.mem_append_right _ (List.mem_singleton_self _)) with
            rfl | ⟨w, rfl⟩ | hworks
          · rfl
          · rfl
          · rw [he] at hworks
            cases hworks
        · intro e' he'
          rcases List.mem_append.1 he' with he' | he'
          · exact hnone e' he'
          · rwa [List.mem_singleton.1 he']
      cases he : e.works with
      | false => exact hidle he
      | true =>
        -- no job is there for the step
        obtain ⟨j, hj⟩ : ∃ j, e.job = some j := by
          cases e <;> first | exact ⟨_, rfl⟩ | cases he
        obtain ⟨l', hlife, -⟩ := hled.step hstep.step hj
        rcases hclosed j with hl | ⟨row, hl, hstatus⟩ <;> rw [hl] at hlife
        · cases hlife with
          | other hne => exact absurd hj hne
          | enqueue => cases he
        · cases hlife with
          | other hne => exact absurd hj hne
          | claim _ hqueued => exact absurd hqueued hstatus
  exact hstay.2

/-- Each job has a handler and is done, or has failed five times. -/
def Settled (registry : HandlerRegistry H) (p : List (QueueEvent W)) (s : JobQueue W) : Prop :=
  ∀ j, ∀ row ∈ (s.jobs j).committed,
    (row.status = .done ∧ row.HasHandler registry) ∨
      (row.status = .deadLetter ∧ claims j p = maxAttempts)

/-- **The queue is at rest exactly when every job is settled**, after any run that stranded none. -/
theorem queue_settles [Nonempty W] {now : ℤ} (h : HandledRun registry now p s)
    (hgood : ∀ e ∈ p, e.strands = none) : AtRest registry s ↔ Settled registry p s := by
  obtain ⟨L, hled, hlives⟩ := h.led
  have hlost : ∀ j, ¬(L j).Lost := by
    intro j hj
    rcases (lost_of_run (hlives j).1 trivial).1.1 hj with habsent | ⟨e, he, hstrands⟩
    · exact habsent
    · rw [hgood e he] at hstrands
      cases hstrands
  constructor
  · intro hrest j row hrow
    rw [(hled.leads j).1.committed] at hrow
    have hterminal : row.status.Terminal := by
      by_contra hopen
      exact hled.not_atRest hlost hrow hopen hrest
    obtain ⟨hlife, hhonest⟩ := hlives j
    obtain ⟨hcounted, hok⟩ := counted_of_run hlife
    have hattempts := hcounted.attempts row hrow
    cases hl : L j with
    | absent =>
      rw [hl] at hrow
      cases hrow
    | taken w φ row' written =>
      rw [hl] at hrow hok
      cases hrow
      exact absurd hterminal (JobPhase.Fits.not_terminal hok)
    | free row' =>
      rw [hl] at hrow hhonest
      cases hrow
      rcases hterminal with hdone | hdead
      · exact Or.inl ⟨hdone, hhonest.1 hdone⟩
      · refine Or.inr ⟨hdead, le_antisymm hcounted.claims_le ?_⟩
        rw [← hattempts]
        exact hhonest.2 hdead
  · intro hsettled
    refine hled.atRest fun j => ?_
    have hterminal : ∀ row ∈ (L j).row, row.status.Terminal := by
      intro row hrow
      rw [← (hled.leads j).1.committed] at hrow
      rcases hsettled j row hrow with ⟨hdone, -⟩ | ⟨hdead, -⟩
      · exact Or.inl hdone
      · exact Or.inr hdead
    cases hl : L j with
    | absent => exact Or.inl rfl
    | taken w φ row written =>
      have hok := (hled.leads j).2
      rw [hl] at hok hterminal
      exact absurd (hterminal row rfl) (JobPhase.Fits.not_terminal hok)
    | free row =>
      rw [hl] at hterminal
      refine Or.inr ⟨row, rfl, fun hqueued => ?_⟩
      have hclosed := hterminal row rfl
      rw [hqueued] at hclosed
      rcases hclosed with h | h <;> cases h

/-- A registry with a handler of the people adapter. -/
def peopleRegistry : HandlerRegistry Unit :=
  (HandlerRegistry.empty Unit).register .fetch (some "people") ()

def handledRun : List (QueueEvent Unit) :=
  [.start (), .enqueue "a", .claim () "a", .commitClaim () "a", .dispatch () "a", .returns () "a",
    .markDone () "a", .commitDone () "a"]

theorem exists_handledRun : ∃ s, HandledRun peopleRegistry 0 handledRun s := by
  have hnext : IsNext (((JobQueue.empty Unit 0).put () .idle (JobQueue.empty Unit 0).jobs).insert
      "a" fetchJob).jobs 0 "a" fetchJob := isNext_only (fun _ => rfl) ⟨rfl, le_rfl, .head _⟩
  have hhandler : (fetchJob.claim).HasHandler peopleRegistry := by
    change findHandler peopleRegistry .fetch (.obj [("adapter", .str "people")]) ≠ none
    decide
  refine ⟨_, .cons (.of_step (.start rfl) nofun)
    (.cons (.of_step (.enqueue rfl .fetch (.obj [("adapter", .str "people")]) 5 none none) nofun)
      (.cons (.of_step (.claim rfl hnext) nofun) (.cons (.of_step (.commitClaim rfl) nofun)
        (.cons (.of_step (.dispatch rfl) nofun) (.cons ⟨.returns rfl, ?_⟩
          (.cons (.of_step (.markDone rfl ?_) nofun)
            (.single (.of_step (.commitDone rfl) nofun))))))))⟩
  · rintro w j ⟨⟩ row hrow
    cases hrow
    exact hhandler
  · exact Cell.freeFor_unlocked

theorem queue_settles_handled : ∃ s, HandledRun peopleRegistry 0 handledRun s ∧
    (AtRest peopleRegistry s ↔ Settled peopleRegistry handledRun s) := by
  obtain ⟨s, hs⟩ := exists_handledRun
  exact ⟨s, hs, queue_settles hs (by decide)⟩

end CivicProof
