import CivicProof.Spec.Review

/-!
# The review tables

What the statements do to the task with a given public id, and the shape of `resolveTask`:
SELECT, then for an open task UPDATE and INSERT, for a closed one INSERT only.

* `Db.findTask_updateTask`, `Db.updateTask_eq`: the UPDATE changes one task, and when it
  changes nothing.
* `resolveTask_some`: `resolveTask` as its statements.
-/

namespace CivicProof

open Autocommit Autocommit.Prog

/-! ## Tables -/

namespace Db

variable {d : Db} {taskId : Uuid} {t : ReviewTask} {status : TaskStatus}
  {reviewerId : Option String}

theorem mem_of_findTask (h : d.findTask taskId = some t) : t ∈ d.tasks ∧ t.taskId = taskId := by
  refine ⟨List.mem_of_find?_eq_some h, ?_⟩
  have hp := List.find?_some h
  exact of_decide_eq_true hp

theorem task_unique {t' : ReviewTask} (h : t ∈ d.tasks) (h' : t' ∈ d.tasks) (hid : t.id = t'.id) :
    t = t' :=
  List.inj_on_of_nodup_map d.ids_nodup h h' hid

@[simp] theorem setTask_id : (setTask status reviewerId t).id = t.id := rfl

@[simp] theorem setTask_taskId : (setTask status reviewerId t).taskId = t.taskId := rfl

@[simp] theorem setTask_status : (setTask status reviewerId t).status = status := rfl

/-- **The UPDATE by internal id** as seen by public id. -/
theorem findTask_updateTask (id : ℕ) :
    (d.updateTask status reviewerId id).findTask taskId =
      (d.findTask taskId).map fun t => if t.id = id then setTask status reviewerId t else t := by
  unfold findTask updateTask
  rw [List.find?_map]
  congr 2
  funext t
  by_cases ht : t.id = id
  · simp [ht]
  · simp [ht]

theorem actionsOf_insertAction (row : ActionRow) (id : ℕ) :
    (d.insertAction row).actionsOf id =
      d.actionsOf id ++ if row.taskId = id then [row] else [] := by
  unfold actionsOf insertAction
  rw [List.filter_append]
  by_cases h : row.taskId = id
  · simp [h]
  · simp [h]

/-- **When the UPDATE changes nothing**: the task had this status and this assignee. -/
theorem tasks_updateTask {reviewer : String} (h : d.findTask taskId = some t) :
    (d.updateTask status (some reviewer) t.id).tasks = d.tasks ↔
      t.status = status ∧ t.assignedTo = some reviewer := by
  obtain ⟨ht, -⟩ := mem_of_findTask h
  constructor
  · intro heq
    have hfix : ∀ x ∈ d.tasks,
        (if x.id = t.id then setTask status (some reviewer) x else x) = x := by
      refine List.map_inj_left.1 ?_
      rw [List.map_id']
      exact heq
    have hself := hfix t ht
    rw [if_pos rfl] at hself
    exact ⟨(congrArg ReviewTask.status hself).symm, (congrArg ReviewTask.assignedTo hself).symm⟩
  · rintro ⟨hs, ha⟩
    refine (List.map_congr_left fun x hx => ?_).trans (List.map_id' d.tasks)
    by_cases hid : x.id = t.id
    · rw [if_pos hid, task_unique hx ht hid, setTask, ← hs]
      cases t
      cases ha
      rfl
    · rw [if_neg hid]

def statusOf (d : Db) (taskId : Uuid) : Option TaskStatus :=
  (d.findTask taskId).map (·.status)

theorem statusOf_of_find (h : d.findTask taskId = some t) : d.statusOf taskId = some t.status := by
  rw [statusOf, h]
  rfl

theorem statusOf_updateTask (h : d.findTask taskId = some t) :
    (d.updateTask status reviewerId t.id).statusOf taskId = some status := by
  rw [statusOf, findTask_updateTask, h]
  simp

end Db

/-! ## The program -/

variable {c : ResolveCall} {action : ReviewAction}

/-- A row that a call writes for its action. -/
def RowOf (c : ResolveCall) (row : ActionRow) : Prop :=
  row.actionId = c.actionId ∧ ReviewAction.ofValue? c.decision = some row.action

/-- One row was added, the call's own on the task `id`. -/
def RowAdded (c : ResolveCall) (id : ℕ) (d d' : Db) : Prop :=
  ∃ row, RowOf c row ∧ row.taskId = id ∧ d'.actions = d.actions ++ [row]

theorem not_rowAdded {d d' : Db} {id : ℕ} (h : d'.actions = d.actions) :
    ¬RowAdded c id d d' := by
  rintro ⟨row, -, -, hadd⟩
  have hlen := congrArg List.length (h.symm.trans hadd)
  rw [List.length_append, List.length_singleton] at hlen
  omega

/-- What is left of `resolveTask` before its INSERT. -/
def recording (c : ResolveCall) (task : ReviewTask) (action : ReviewAction) (diff : Dict Json)
    (result : Except PyError (Option ReviewTask)) :
    ReviewProg (Except PyError (Option ReviewTask)) :=
  .call (.insertAction (c.row task action diff)) fun _ => .ret result

/-- What is left of `resolveTask` before its UPDATE. -/
def deciding (c : ResolveCall) (task : ReviewTask) (action : ReviewAction) :
    ReviewProg (Except PyError (Option ReviewTask)) :=
  .call (.updateTask action.toStatus (some c.reviewerId) task.id) fun updated =>
    recording c task action (enrichRejectDiff task action (notesDiff c.notes))
      (match updated with
        | none => .error .typeError
        | some task => .ok (some task))

/-- What is left of `resolveTask` after its SELECT. -/
def selected (c : ResolveCall) (action : ReviewAction) :
    Option ReviewTask → ReviewProg (Except PyError (Option ReviewTask))
  | none => .ret (.ok none)
  | some task =>
    if task.status.terminal then recording c task action (notesDiff c.notes) (.ok (some task))
    else deciding c task action

theorem resolveTask_none (h : ReviewAction.ofValue? c.decision = none) :
    resolveTask c = .ret (.ok none) := by
  unfold resolveTask
  rw [h]
  rfl

/-- **`resolve_task` as its statements.** -/
theorem resolveTask_some (h : ReviewAction.ofValue? c.decision = some action) :
    resolveTask c = .call (.selectForUpdate c.taskId) (selected c action) := by
  unfold resolveTask
  rw [h]
  show Prog.call _ _ = Prog.call _ _
  congr 1
  -- the continuation, by what the SELECT finds
  funext row
  cases row with
  | none => rfl
  | some task =>
    refine if_congr Iff.rfl rfl ?_
    show Prog.call _ _ = Prog.call _ _
    congr 1
    funext updated
    cases updated with
    | none => rfl
    | some t => rfl

theorem selected_closed {task : ReviewTask} (h : task.status.terminal = true) :
    selected c action (some task) =
      recording c task action (notesDiff c.notes) (.ok (some task)) := by
  rw [selected, if_pos h]

theorem selected_open {task : ReviewTask} (h : task.status.terminal = false) :
    selected c action (some task) = deciding c task action := by
  rw [selected, if_neg (by rw [h]; decide)]

/-! ## Runs with failures -/

variable {task : ReviewTask} {diff : Dict Json} {plan : Plan} {d : Db}
  {result : Except PyError (Option ReviewTask)}

/-- The state a run of `resolveTask` leaves. -/
def resolveState (c : ResolveCall) (plan : Plan) (d : Db) : Db :=
  (runWith exec plan (resolveTask c) d).2

theorem run_recording :
    (runWith exec plan (recording c task action diff result) d).2 =
      if (plan 0).effective then d.insertAction (c.row task action diff) else d := by
  unfold recording
  cases h : plan 0 with
  | done =>
    rw [runWith_done h]
    rfl
  | refused =>
    rw [runWith_refused h]
    rfl
  | lost =>
    rw [runWith_lost h]
    rfl

theorem run_deciding_refused (h : plan 0 = .refused) :
    (runWith exec plan (deciding c task action) d).2 = d := by
  rw [deciding, runWith_refused h]

theorem run_deciding_whole (h : plan 0 = .done) (h' : (plan 1).effective) :
    (runWith exec plan (deciding c task action) d).2 =
      (d.updateTask action.toStatus (some c.reviewerId) task.id).insertAction
        (c.row task action (enrichRejectDiff task action (notesDiff c.notes))) := by
  rw [deciding, runWith_done h, run_recording, if_pos]
  · rfl
  · exact h'

/-- The UPDATE without the INSERT. -/
theorem run_deciding_torn (h : (plan 0).effective)
    (h' : ¬(plan 0 = .done ∧ (plan 1).effective)) :
    (runWith exec plan (deciding c task action) d).2 =
      d.updateTask action.toStatus (some c.reviewerId) task.id := by
  unfold deciding
  cases h0 : plan 0 with
  | done =>
    rw [runWith_done h0, run_recording, if_neg]
    · rfl
    · exact fun hins => h' ⟨h0, hins⟩
  | refused => exact absurd h0 h
  | lost =>
    rw [runWith_lost h0]
    rfl

/-- A call that finds no task, or does not get to know, changes nothing. -/
theorem resolveState_none (h : ReviewAction.ofValue? c.decision = none ∨ plan 0 ≠ .done ∨
    d.findTask c.taskId = none) : resolveState c plan d = d := by
  unfold resolveState
  cases ha : ReviewAction.ofValue? c.decision with
  | none =>
    rw [resolveTask_none ha]
    rfl
  | some action =>
    rw [resolveTask_some ha]
    have hread : Reads exec (.selectForUpdate c.taskId) := fun _ => rfl
    rcases runWith_read hread with ⟨-, hrun⟩ | ⟨hdone, hrun⟩
    · rw [hrun]
    · rcases h with h | h | h
      · rw [ha] at h
        cases h
      · exact absurd hdone h
      · rw [hrun, exec, h]
        rfl

/-- A call that finds its task goes on from there. -/
theorem resolveState_some (ha : ReviewAction.ofValue? c.decision = some action)
    (hdone : plan 0 = .done) (ht : d.findTask c.taskId = some task) :
    resolveState c plan d = (runWith exec plan.tail (selected c action (some task)) d).2 := by
  rw [resolveState, resolveTask_some ha, runWith_done hdone, exec, ht]

/-- A call that finds an open task adds its row when all three statements take effect and the
first two are answered. -/
theorem rowAdded_open (ha : ReviewAction.ofValue? c.decision = some action)
    (ht : d.findTask c.taskId = some task) (ho : task.status.terminal = false) :
    RowAdded c task.id d (resolveState c plan d) ↔
      plan 0 = .done ∧ plan 1 = .done ∧ (plan 2).effective := by
  by_cases hdone : plan 0 = .done
  · rw [resolveState_some ha hdone ht, selected_open ho]
    by_cases heff : (plan 1).effective
    · by_cases hwhole : plan 1 = .done ∧ (plan 2).effective
      · rw [run_deciding_whole hwhole.1 hwhole.2]
        exact iff_of_true ⟨_, ⟨rfl, ha⟩, rfl, rfl⟩ ⟨hdone, hwhole⟩
      · rw [run_deciding_torn heff hwhole]
        exact iff_of_false (not_rowAdded rfl) fun h => hwhole h.2
    · have hrefused : plan 1 = .refused := not_not.1 heff
      rw [run_deciding_refused hrefused]
      exact iff_of_false (not_rowAdded rfl) fun h => heff (by rw [h.2.1]; decide)
  · rw [resolveState_none (Or.inr (Or.inl hdone))]
    exact iff_of_false (not_rowAdded rfl) fun h => hdone h.1

/-- Such a call leaves the task with the status of its decision. -/
theorem statusOf_open (ha : ReviewAction.ofValue? c.decision = some action)
    (ht : d.findTask c.taskId = some task) (ho : task.status.terminal = false)
    (h : plan 0 = .done ∧ plan 1 = .done ∧ (plan 2).effective) :
    (resolveState c plan d).statusOf c.taskId = some action.toStatus := by
  rw [resolveState_some ha h.1 ht, selected_open ho, run_deciding_whole h.2.1 h.2.2]
  exact Db.statusOf_updateTask ht

/-! ## A small database -/

theorem isHexDigit_digitChar : ∀ n < 16, isHexDigit (Nat.digitChar n) = true := by decide

/-- A UUID of one digit. -/
def sampleUuid (n : ℕ) : Uuid where
  hex := List.replicate 32 (Nat.digitChar (n % 16))
  wf := by
    have hdigit := isHexDigit_digitChar (n % 16) (Nat.mod_lt n (by decide))
    exact ⟨List.length_replicate, by rw [List.all_replicate, hdigit]; rfl⟩

def sampleTask : ReviewTask where
  id := 1
  taskId := sampleUuid 0
  kind := .verdict
  status := .opened
  createdAt := "2026-04-22T10:00:00+00:00"

/-- The database that holds one task and no action. -/
def sampleDb (task : ReviewTask) (candidate : Option EntityCandidate := none) : Db where
  tasks := [task]
  actions := []
  candidates := candidate.toList
  ids_nodup := List.nodup_singleton _
  taskIds_nodup := List.nodup_singleton _
  candidateIds_nodup := by cases candidate <;> simp

end CivicProof
