import CivicProof.Autocommit.Prog
import CivicProof.Spec.Engine
import CivicProof.Spec.Resolve

/-!
# The review queue

The three Postgres tables of the review flow, the SQL statements its functions issue
(`Stmt`, `exec`), and the functions as programs over these statements: `resolveTask` of the
repository, `relinkByTaskId`, `appendSpanConfirmation`, and the three endpoints
(`Request.prog`). The API's connection is in autocommit mode, so each statement is a
transaction of its own.

* `Db.updateTask_status`: what an UPDATE by id does to the status of a task.
-/

namespace CivicProof

open Autocommit Autocommit.Prog

/-! ## Tasks and actions -/

/-- `ReviewAction`. -/
inductive ReviewAction where
  | approve
  | reject
  | relink
  | annotate
  | escalate
  deriving DecidableEq, Repr

/-- The value of an action. -/
def ReviewAction.value : ReviewAction → String
  | .approve => "approve"
  | .reject => "reject"
  | .relink => "relink"
  | .annotate => "annotate"
  | .escalate => "escalate"

/-- `ReviewAction(decision)`, `none` for a `ValueError`. -/
def ReviewAction.ofValue? (decision : String) : Option ReviewAction :=
  [approve, reject, relink, annotate, escalate].find? fun a => a.value = decision

/-- The status of a task (`_VALID_STATUSES`). -/
inductive TaskStatus where
  | opened
  | claimed
  | resolved
  | escalated
  deriving DecidableEq, Repr

/-- `_TERMINAL_STATUSES`. -/
def TaskStatus.terminal : TaskStatus → Bool
  | .resolved | .escalated => true
  | .opened | .claimed => false

/-- `_DECISION_TO_STATUS`. -/
def ReviewAction.toStatus : ReviewAction → TaskStatus
  | .approve => .resolved
  | .reject => .resolved
  | .relink => .resolved
  | .annotate => .opened
  | .escalate => .escalated

/-- The kinds of tasks. -/
inductive TaskKind where
  | entityResolution
  | verdict
  | conflict
  | declaration
  deriving DecidableEq, Repr

/-- `ReviewTask`, a row of `review_tasks`. -/
structure ReviewTask where
  id : ℕ
  taskId : Uuid
  kind : TaskKind
  status : TaskStatus
  priority : ℤ := 0
  payload : Dict Json := ∅
  assignedTo : Option String := none
  createdAt : String

/-- `ReviewActionRecord`, a row of `review_actions`. -/
structure ActionRow where
  actionId : Uuid
  taskId : ℕ
  actor : String
  action : ReviewAction
  diff : Dict Json
  createdAt : String

/-- The columns of `entity_candidates` that a relink reads or writes. -/
structure EntityCandidate where
  id : ℕ
  candidateId : Uuid
  canonicalEntityId : Option Uuid
  entityKind : String
  deriving DecidableEq

/-! ## The database -/

/-- The three tables. Their keys are unique. -/
structure Db where
  tasks : List ReviewTask
  actions : List ActionRow
  candidates : List EntityCandidate
  ids_nodup : (tasks.map (·.id)).Nodup
  taskIds_nodup : (tasks.map (·.taskId)).Nodup
  candidateIds_nodup : (candidates.map (·.candidateId)).Nodup

namespace Db

/-- The task with a public id. -/
def findTask (d : Db) (taskId : Uuid) : Option ReviewTask :=
  d.tasks.find? fun t => t.taskId = taskId

/-- The candidate with an id. -/
def findCandidate (d : Db) (candidateId : Uuid) : Option EntityCandidate :=
  d.candidates.find? fun c => c.candidateId = candidateId

/-- The actions on a task, in insertion order. -/
def actionsOf (d : Db) (id : ℕ) : List ActionRow := d.actions.filter fun r => r.taskId = id

/-- `SET status = %s, assigned_to = COALESCE(%s, assigned_to)`. -/
def setTask (status : TaskStatus) (reviewerId : Option String) (t : ReviewTask) : ReviewTask :=
  { t with status := status, assignedTo := reviewerId <|> t.assignedTo }

/-- The UPDATE of `resolve_task`, by internal id. -/
def updateTask (d : Db) (status : TaskStatus) (reviewerId : Option String) (id : ℕ) : Db :=
  { d with
    tasks := d.tasks.map fun t => if t.id = id then setTask status reviewerId t else t
    ids_nodup := by
      rw [List.map_map]
      convert d.ids_nodup using 2
      funext t
      by_cases ht : t.id = id <;> simp [ht, setTask]
    taskIds_nodup := by
      rw [List.map_map]
      convert d.taskIds_nodup using 2
      funext t
      by_cases ht : t.id = id <;> simp [ht, setTask] }

/-- The INSERT of `_insert_action` and `append_span_confirmation`. -/
def insertAction (d : Db) (row : ActionRow) : Db := { d with actions := d.actions ++ [row] }

/-- `SET canonical_entity_id = %s, entity_kind = %s`. -/
def setCandidate (canonicalEntityId : Uuid) (entityKind : String) (c : EntityCandidate) :
    EntityCandidate :=
  { c with canonicalEntityId := some canonicalEntityId, entityKind := entityKind }

/-- The UPDATE of `apply_entity_relink`. -/
def updateCandidate (d : Db) (canonicalEntityId : Uuid) (entityKind : String)
    (candidateId : Uuid) : Db :=
  { d with
    candidates := d.candidates.map fun c =>
      if c.candidateId = candidateId then setCandidate canonicalEntityId entityKind c else c
    candidateIds_nodup := by
      rw [List.map_map]
      convert d.candidateIds_nodup using 2
      funext c
      by_cases hc : c.candidateId = candidateId <;> simp [hc, setCandidate] }

end Db

/-! ## Statements -/

/-- The statements of the review flow. The rows of a SELECT come with all their columns. -/
inductive Stmt where
  /-- The SELECT of `get_task` and of `relink_by_task_id`. -/
  | selectTask (taskId : Uuid)
  | selectForUpdate (taskId : Uuid)
  | updateTask (status : TaskStatus) (reviewerId : Option String) (id : ℕ)
  | insertAction (row : ActionRow)
  | updateCandidate (canonicalEntityId : Uuid) (entityKind : String) (candidateId : Uuid)

/-- What `fetchone` reads after a statement. -/
abbrev Answer : Stmt → Type
  | .selectTask _ => Option ReviewTask
  | .selectForUpdate _ => Option ReviewTask
  | .updateTask _ _ _ => Option ReviewTask
  | .insertAction _ => Unit
  | .updateCandidate _ _ _ => Option ℕ

/-- A statement as a transaction of its own. The lock of `FOR UPDATE` ends with it. -/
def exec : (s : Stmt) → Db → Answer s × Db
  | .selectTask taskId, d => (d.findTask taskId, d)
  | .selectForUpdate taskId, d => (d.findTask taskId, d)
  | .updateTask status reviewerId id, d =>
    let d' := d.updateTask status reviewerId id
    (d'.tasks.find? fun t => t.id = id, d')
  | .insertAction row, d => ((), d.insertAction row)
  | .updateCandidate canonicalEntityId entityKind candidateId, d =>
    let d' := d.updateCandidate canonicalEntityId entityKind candidateId
    ((d'.findCandidate candidateId).map (·.id), d')

/-- Programs over these statements. -/
abbrev ReviewProg := Prog Stmt Answer

/-- `cur.execute`, with the `fetchone` that follows it. -/
def execute (s : Stmt) : ReviewProg (Answer s) := issue s

/-! ## The repository -/

/-- The arguments of `resolve_task`, with the id and the time its audit row is stamped with. -/
structure ResolveCall where
  taskId : Uuid
  decision : String
  reviewerId : String
  notes : Option String := none
  actionId : Uuid
  now : String

/-- `{"notes": notes} if notes else {}`. -/
def notesDiff (notes : Option String) : Dict Json :=
  match orNone notes with
  | none => ∅
  | some text => Dict.ofList [("notes", .str text)]

/-- `_enrich_reject_diff`. -/
def enrichRejectDiff (task : ReviewTask) (action : ReviewAction) (diff : Dict Json) : Dict Json :=
  if action ≠ .reject ∨ task.kind ≠ .verdict then diff
  else
    let out := diff.insert "verdict_reviewer_override" (.bool true)
    match task.payload.lookup "machine_verdict" with
    | none => out
    | some machine => out.insert "original_machine" machine

/-- The row `_insert_action` writes. -/
def ResolveCall.row (c : ResolveCall) (task : ReviewTask) (action : ReviewAction)
    (diff : Dict Json) : ActionRow where
  actionId := c.actionId
  taskId := task.id
  actor := c.reviewerId
  action := action
  diff := diff
  createdAt := c.now

/-- `resolve_task`. -/
def resolveTask (c : ResolveCall) : ReviewProg (Except PyError (Option ReviewTask)) :=
  match ReviewAction.ofValue? c.decision with
  | none => pure (.ok none)
  | some action => do
    match ← execute (.selectForUpdate c.taskId) with
    -- no such task: nothing is written
    | none => pure (.ok none)
    | some task =>
      let diff := notesDiff c.notes
      if task.status.terminal then do
        -- the attempted action is still recorded
        execute (.insertAction (c.row task action diff))
        pure (.ok (some task))
      else do
        let diff := enrichRejectDiff task action diff
        -- the UPDATE is by id alone: it does not look at the status again
        let updated ← execute (.updateTask action.toStatus (some c.reviewerId) task.id)
        execute (.insertAction (c.row task action diff))
        match updated with
        | none => pure (.error .typeError)
        | some task => pure (.ok (some task))

/-! ## Corrections -/

/-- `RelinkRequest`. -/
structure RelinkRequest where
  candidateId : Uuid
  canonicalEntityId : Uuid
  entityKind : String
  reviewerId : String

/-- The entity kinds of `apply_entity_relink`. -/
def relinkKinds : List String := ["person", "party", "office", "committee", "bill"]

/-- `apply_entity_relink`: `none` on success, else the reason. -/
def applyEntityRelink (req : RelinkRequest) : ReviewProg (Option String) :=
  if req.entityKind ∉ relinkKinds then pure (some "invalid entity_kind")
  else do
    match ← execute (.updateCandidate req.canonicalEntityId req.entityKind req.candidateId) with
    | none => pure (some "candidate not found")
    | some _ => pure none

/-- `str(payload.get("candidate_id", "")) == str(candidate_id)`: only a string spells a UUID. -/
def namesCandidate (payload : Dict Json) (candidateId : Uuid) : Bool :=
  match payload.lookup "candidate_id" with
  | some (.str want) => want = candidateId.str
  | _ => false

/-- `relink_by_task_id`. -/
def relinkByTaskId (taskId : Uuid) (req : RelinkRequest) : ReviewProg Bool := do
  match ← execute (.selectTask taskId) with
  | none => pure false
  | some task =>
    if task.kind ≠ .entityResolution then pure false
    else if !namesCandidate task.payload req.candidateId then pure false
    else do
      -- the status of the task is not looked at
      let problem ← applyEntityRelink req
      pure problem.isNone

/-- `append_span_confirmation`. -/
def appendSpanConfirmation (task : ReviewTask) (spanIds : List String) (reviewerId : String)
    (actionId : Uuid) (now : String) : ReviewProg Bool :=
  if spanIds = [] then pure false
  else do
    execute (.insertAction {
      actionId := actionId
      taskId := task.id
      actor := reviewerId
      action := .annotate
      diff := Dict.ofList
        [("kind", .str "evidence_confirmation"), ("span_ids", .list (spanIds.map .str))]
      createdAt := now })
    pure true

/-! ## The endpoints -/

/-- An answer of the API. -/
inductive Response where
  | task (t : ReviewTask)
  | ok
  | httpError (status : ℕ) (detail : String)
  | raised (e : PyError)

/-- A request to `resolve_review_task`. -/
structure ResolveRequest where
  call : ResolveCall
  decision_mem : (ReviewAction.ofValue? call.decision).isSome
  reviewerId_ne : call.reviewerId ≠ ""

/-- A request to `relink_entity`, with the stamp of the audit row. -/
structure RelinkEntityRequest where
  taskId : Uuid
  req : RelinkRequest
  notes : Option String := none
  actionId : Uuid
  now : String
  entityKind_mem : req.entityKind ∈ relinkKinds
  reviewerId_ne : req.reviewerId ≠ ""

/-- A request to `confirm_evidence`, with the stamp of the audit row. -/
structure ConfirmEvidenceRequest where
  taskId : Uuid
  spanIds : List String
  reviewerId : String
  actionId : Uuid
  now : String
  spanIds_ne : spanIds ≠ []
  reviewerId_ne : reviewerId ≠ ""

/-- `resolve_review_task`. -/
def resolveReviewTask (r : ResolveRequest) : ReviewProg Response := do
  match ← resolveTask r.call with
  | .error e => pure (.raised e)
  | .ok none => pure (.httpError 404 "review task not found")
  | .ok (some task) => pure (.task task)

/-- The call of `resolve_task` with which `relink_entity` closes the task. -/
def RelinkEntityRequest.closing (r : RelinkEntityRequest) : ResolveCall where
  taskId := r.taskId
  decision := "relink"
  reviewerId := r.req.reviewerId
  notes := r.notes
  actionId := r.actionId
  now := r.now

/-- `relink_entity`. -/
def relinkEntity (r : RelinkEntityRequest) : ReviewProg Response := do
  if !(← relinkByTaskId r.taskId r.req) then
    pure (.httpError 400 "relink failed (task not found, wrong kind, or candidate mismatch)")
  else do
    -- the candidate is changed by now
    match ← resolveTask r.closing with
    | .error e => pure (.raised e)
    | .ok none => pure (.httpError 500 "Internal Server Error")
    | .ok (some _) => pure .ok

/-- `confirm_evidence`. -/
def confirmEvidence (r : ConfirmEvidenceRequest) : ReviewProg Response := do
  match ← execute (.selectTask r.taskId) with
  | none => pure (.httpError 404 "task not found")
  | some task =>
    if !(← appendSpanConfirmation task r.spanIds r.reviewerId r.actionId r.now) then
      pure (.httpError 400 "nothing to record")
    else pure .ok

/-- The requests that write. -/
inductive Request where
  | resolve (r : ResolveRequest)
  | relink (r : RelinkEntityRequest)
  | confirm (r : ConfirmEvidenceRequest)

/-- The endpoint of a request. -/
def Request.prog : Request → ReviewProg Response
  | .resolve r => resolveReviewTask r
  | .relink r => relinkEntity r
  | .confirm r => confirmEvidence r

end CivicProof
