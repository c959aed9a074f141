import CivicProof.Proof.Review

/-!
# Review decisions under failures

A run of `resolveTask` in which any statement may be refused, or carried out with its answer
lost. Every outcome is all or nothing except one: the UPDATE of an open task committed, and
the INSERT did not (`Torn`).

* `atomic_of_committed`, `closedAudited_of_atomic`: what all or nothing gives.
* `resolve_atomic`: a call is all or nothing exactly when it is not torn.
-/

namespace CivicProof

open Autocommit Autocommit.Prog

variable {c : ResolveCall} {plan : Plan} {d d' : Db} {action : ReviewAction} {task : ReviewTask}

/-- Both writes are present: the update, none on a closed task, and the row. -/
def Committed (c : ResolveCall) (d d' : Db) : Prop :=
  ∃ action task, ReviewAction.ofValue? c.decision = some action ∧
    d.findTask c.taskId = some task ∧ RowAdded c task.id d d' ∧
    d'.tasks = if task.status.terminal then d.tasks
      else (d.updateTask action.toStatus (some c.reviewerId) task.id).tasks

/-- Neither write is present. -/
def Untouched (d d' : Db) : Prop := d'.tasks = d.tasks ∧ d'.actions = d.actions

/-- All or nothing. -/
def AllOrNothing (c : ResolveCall) (d d' : Db) : Prop := Committed c d d' ∨ Untouched d d'

/-- Each task that was closed got its audit row. -/
def ClosedAudited (c : ResolveCall) (d d' : Db) : Prop :=
  ∀ t' ∈ d'.tasks, t'.status.terminal = true →
    (∀ t ∈ d.tasks, t.id = t'.id → t.status.terminal = false) → RowAdded c t'.id d d'

/-- The UPDATE of an open task takes effect and changes it, and the INSERT does not follow. -/
def Torn (c : ResolveCall) (plan : Plan) (d : Db) : Prop :=
  ∃ action task, ReviewAction.ofValue? c.decision = some action ∧
    d.findTask c.taskId = some task ∧ task.status.terminal = false ∧
    (task.status ≠ action.toStatus ∨ task.assignedTo ≠ some c.reviewerId) ∧
    plan 0 = .done ∧ (plan 1).effective ∧ ¬(plan 1 = .done ∧ (plan 2).effective)

theorem Torn.inv (h : Torn c plan d) (ha : ReviewAction.ofValue? c.decision = some action)
    (ht : d.findTask c.taskId = some task) :
    task.status.terminal = false ∧
      (task.status ≠ action.toStatus ∨ task.assignedTo ≠ some c.reviewerId) ∧
      plan 0 = .done ∧ (plan 1).effective ∧ ¬(plan 1 = .done ∧ (plan 2).effective) := by
  obtain ⟨action', task', ha', ht', hrest⟩ := h
  obtain rfl : action = action' := Option.some.inj (ha.symm.trans ha')
  obtain rfl : task = task' := Option.some.inj (ht.symm.trans ht')
  exact hrest

/-- Whatever is all or nothing leaves no task closed without a row. -/
theorem closedAudited_of_atomic (h : AllOrNothing c d d') : ClosedAudited c d d' := by
  intro t' ht' hc hopen
  -- a closed task of the new table that the old one did not have closed was updated
  have hold : t' ∉ d.tasks := by
    intro hmem
    rw [hopen t' hmem rfl] at hc
    cases hc
  rcases h with ⟨action, task, ha, ht, hrow, htasks⟩ | ⟨htasks, -⟩
  · rw [htasks] at ht'
    by_cases hterm : task.status.terminal = true
    · rw [if_pos hterm] at ht'
      exact absurd ht' hold
    · rw [if_neg hterm] at ht'
      obtain ⟨t, hmem, rfl⟩ := List.mem_map.1 ht'
      by_cases hid : t.id = task.id
      · rw [if_pos hid, Db.setTask_id, hid]
        exact hrow
      · rw [if_neg hid] at hold
        exact absurd hmem hold
  · rw [htasks] at ht'
    exact absurd ht' hold

/-- The UPDATE alone is all or nothing only when it changes nothing. -/
theorem allOrNothing_update (ht : d.findTask c.taskId = some task) :
    AllOrNothing c d (d.updateTask action.toStatus (some c.reviewerId) task.id) ↔
      task.status = action.toStatus ∧ task.assignedTo = some c.reviewerId := by
  rw [← Db.tasks_updateTask ht]
  constructor
  · rintro (⟨_, _, -, -, hrow, -⟩ | h)
    · exact absurd hrow (not_rowAdded rfl)
    · exact h.1
  · intro h
    exact Or.inr ⟨h, rfl⟩

theorem allOrNothing_closed (ha : ReviewAction.ofValue? c.decision = some action)
    (ht : d.findTask c.taskId = some task) (hc : task.status.terminal = true)
    (hdone : plan 0 = .done) : AllOrNothing c d (resolveState c plan d) := by
  rw [resolveState_some ha hdone ht, selected_closed hc, run_recording]
  by_cases heff : (plan.tail 0).effective
  · rw [if_pos heff]
    refine Or.inl ⟨action, task, ha, ht, ⟨_, ⟨rfl, ha⟩, rfl, rfl⟩, ?_⟩
    rw [if_pos hc]
    rfl
  · rw [if_neg heff]
    exact Or.inr ⟨rfl, rfl⟩

/-- A call on an open task, by how far it gets. -/
theorem allOrNothing_open (ha : ReviewAction.ofValue? c.decision = some action)
    (ht : d.findTask c.taskId = some task) (ho : task.status.terminal = false)
    (hdone : plan 0 = .done) : AllOrNothing c d (resolveState c plan d) ↔
      ((plan 1).effective → ¬(plan 1 = .done ∧ (plan 2).effective) →
        task.status = action.toStatus ∧ task.assignedTo = some c.reviewerId) := by
  rw [resolveState_some ha hdone ht, selected_open ho]
  by_cases heff : (plan 1).effective
  · by_cases hwhole : plan 1 = .done ∧ (plan 2).effective
    · rw [run_deciding_whole hwhole.1 hwhole.2]
      refine iff_of_true (Or.inl ⟨action, task, ha, ht, ⟨_, ⟨rfl, ha⟩, rfl, rfl⟩, ?_⟩)
        fun _ hnot => absurd hwhole hnot
      rw [if_neg (by rw [ho]; decide)]
      rfl
    · rw [run_deciding_torn heff hwhole, allOrNothing_update ht]
      exact ⟨fun h _ _ => h, fun h => h heff hwhole⟩
  · have hrefused : plan 1 = .refused := not_not.1 heff
    rw [run_deciding_refused hrefused]
    exact iff_of_true (Or.inr ⟨rfl, rfl⟩) fun h => absurd h heff

/-- **All or nothing** exactly when not torn. -/
theorem allOrNothing_iff (c : ResolveCall) (plan : Plan) (d : Db) :
    AllOrNothing c d (resolveState c plan d) ↔ ¬Torn c plan d := by
  -- calls that end at their SELECT change nothing
  by_cases hstart : ReviewAction.ofValue? c.decision = none ∨ plan 0 ≠ .done ∨
      d.findTask c.taskId = none
  · rw [resolveState_none hstart]
    refine iff_of_true (Or.inr ⟨rfl, rfl⟩) ?_
    rintro ⟨action, task, ha, ht, -, -, hdone, -⟩
    rcases hstart with h | h | h
    · rw [ha] at h
      cases h
    · exact h hdone
    · rw [ht] at h
      cases h
  · rw [not_or, not_or, not_not] at hstart
    obtain ⟨ha, hdone, ht⟩ := hstart
    obtain ⟨action, ha⟩ := Option.ne_none_iff_exists'.1 ha
    obtain ⟨task, ht⟩ := Option.ne_none_iff_exists'.1 ht
    cases hc : task.status.terminal with
    | true =>
      refine iff_of_true (allOrNothing_closed ha ht hc hdone) fun h => ?_
      rw [(h.inv ha ht).1] at hc
      cases hc
    | false =>
      rw [allOrNothing_open ha ht hc hdone]
      constructor
      · intro h htorn
        obtain ⟨-, hchange, -, heff, hnot⟩ := htorn.inv ha ht
        obtain ⟨hs, hr⟩ := h heff hnot
        exact hchange.elim (fun hne => hne hs) fun hne => hne hr
      · intro h heff hnot
        by_contra hchange
        rw [not_and_or] at hchange
        exact h ⟨action, task, ha, ht, hc, hchange, hdone, heff, hnot⟩

/-- **Atomic review decisions.** Whatever fails, a call of `resolve_task` leaves both writes or
neither, and no task closed without a row, exactly when it is not cut between them. -/
theorem resolve_atomic (c : ResolveCall) (plan : Plan) (d : Db) :
    (AllOrNothing c d (resolveState c plan d) ∧ ClosedAudited c d (resolveState c plan d)) ↔
      ¬Torn c plan d := by
  rw [← allOrNothing_iff]
  exact ⟨fun h => h.1, fun h => ⟨h, closedAudited_of_atomic h⟩⟩

def approveSample : ResolveCall where
  taskId := sampleTask.taskId
  decision := "approve"
  reviewerId := "rev_1"
  actionId := sampleUuid 1
  now := "2026-04-22T10:00:00+00:00"

def failThird : Plan := fun n => if n < 2 then .done else .refused

/-- **The task is closed without a row** when the INSERT of its approval fails. -/
theorem resolve_torn :
    let d := sampleDb sampleTask
    ¬AllOrNothing approveSample d (resolveState approveSample failThird d) ∧
      ¬ClosedAudited approveSample d (resolveState approveSample failThird d) := by
  intro d
  have hrow : ¬RowAdded approveSample sampleTask.id d (resolveState approveSample failThird d) :=
    not_rowAdded rfl
  constructor
  · rintro (⟨_, task, -, ht, hadd, -⟩ | ⟨htasks, -⟩)
    · cases ht
      exact hrow hadd
    · have hstatus := congrArg (List.map (·.status)) htasks
      exact absurd hstatus (by decide)
  · intro h
    exact hrow (h (Db.setTask .resolved (some "rev_1") sampleTask) (List.mem_singleton.2 rfl) rfl
      fun t ht _ => by rw [List.mem_singleton.1 ht]; rfl)

end CivicProof
