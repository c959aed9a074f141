import CivicProof.Spec.Engine
import CivicProof.Transact.Run
import CivicProof.Transact.Table

/-!
# The job queue

The `jobs` table of Postgres, the statements of `queue.py` on it, and workers that execute
`run_once`: claim a job, commit, dispatch it, close it, commit. A worker may crash at every
point, and may lose its connection while it is busy with a job.

Instants are in microseconds, as Postgres keeps them.
-/

namespace CivicProof

open Transact

/-! ## The table -/

/-- `JobKind`. -/
inductive JobKind where
  | fetch
  | parse
  | normalize
  | upsert
  deriving DecidableEq, Repr

/-- The values that `jobs_status_check` admits. Nothing writes `failed`. -/
inductive JobStatus where
  | queued
  | running
  | done
  | failed
  | deadLetter
  deriving DecidableEq, Repr

/-- A row of `jobs`, under its `job_id`. -/
structure JobRow where
  kind : JobKind
  payload : Json
  priority : ℤ
  runAfter : ℤ
  ingestRunId : Option String
  status : JobStatus
  attempts : ℕ
  lastError : Option String

/-- `job_id`. -/
abbrev JobId := String

/-- The row that `enqueue` inserts. -/
def enqueue (kind : JobKind) (payload : Json) (priority : ℤ) (runAfter : Option ℤ)
    (ingestRunId : Option String) (now : ℤ) : JobRow where
  kind := kind
  payload := payload
  priority := priority
  runAfter := runAfter.getD now
  ingestRunId := ingestRunId
  status := .queued
  attempts := 0
  lastError := none

/-- The rows that `claim_one` looks for. -/
def JobRow.Runnable (row : JobRow) (kinds : List JobKind) (now : ℤ) : Prop :=
  row.status = .queued ∧ row.runAfter ≤ now ∧ row.kind ∈ kinds

/-- `ORDER BY priority ASC, run_after ASC`. -/
def JobRow.Sooner (a b : JobRow) : Prop :=
  a.priority < b.priority ∨ (a.priority = b.priority ∧ a.runAfter < b.runAfter)

/-- The update of `claim_one`. -/
def JobRow.claim (row : JobRow) : JobRow :=
  { row with status := .running, attempts := row.attempts + 1 }

/-- The update of `mark_done`. -/
def JobRow.markDone (row : JobRow) : JobRow := { row with status := .done, lastError := none }

/-- The default of `mark_failed`, which `run_once` leaves. -/
def maxAttempts : ℕ := 5

/-- The update of `mark_failed`. -/
def JobRow.markFailed (row : JobRow) (error : String) (now : ℤ) : JobRow :=
  { row with
    status := if maxAttempts ≤ row.attempts then .deadLetter else .queued
    lastError := some error
    runAfter := if maxAttempts ≤ row.attempts then row.runAfter
      else now + (row.attempts * row.attempts : ℕ) * 1000000 }

/-- `_DISPATCHABLE_KINDS`. -/
def dispatchableKinds : List JobKind := [.fetch, .parse, .normalize, .upsert]

/-- The `jobs` table among the sessions of the workers. -/
abbrev Jobs (W : Type) := Table W JobId JobRow

variable {W : Type} [DecidableEq W]

/-- `row` is the one that `claim_one` takes: of the runnable rows that no transaction holds
(`FOR UPDATE SKIP LOCKED`) none comes sooner. -/
structure IsNext (jobs : Jobs W) (now : ℤ) (j : JobId) (row : JobRow) : Prop where
  committed : (jobs j).committed = some row
  unlocked : (jobs j).pending = none
  runnable : row.Runnable dispatchableKinds now
  first : ∀ j' row', (jobs j').committed = some row' → (jobs j').pending = none →
    row'.Runnable dispatchableKinds now → ¬row'.Sooner row

/-! ## The workers -/

/-- Where a worker is in `run_once`, with the job that it has claimed. -/
inductive JobPhase where
  /-- `claim_one` has returned a job. -/
  | claimed
  /-- The claim is committed. -/
  | held (online : Bool)
  /-- In `_dispatch`. -/
  | dispatching (online : Bool)
  /-- `_dispatch` has returned. -/
  | dispatched
  /-- `mark_done` has been executed. -/
  | doneMarked
  /-- An exception is caught, and the transaction is rolled back. -/
  | failing
  /-- `mark_failed` has been executed. -/
  | failedMarked
  deriving DecidableEq, Repr

/-- A worker. -/
inductive Worker where
  | dead
  | idle
  | at (j : JobId) (φ : JobPhase)
  deriving DecidableEq, Repr

/-- The job that a worker is at, from the claim on. -/
def Worker.position : Worker → Option (JobId × JobPhase)
  | .at j φ => some (j, φ)
  | _ => none

/-- The queue and its workers. -/
structure JobQueue (W : Type) where
  now : ℤ
  jobs : Jobs W
  worker : W → Worker

/-- No job and no worker. -/
def JobQueue.empty (W : Type) (now : ℤ) : JobQueue W := ⟨now, fun _ => ⟨none, none⟩, fun _ => .dead⟩

/-- Worker `w` goes on, and the table with it. -/
def JobQueue.put (s : JobQueue W) (w : W) (x : Worker) (jobs : Jobs W) : JobQueue W :=
  ⟨s.now, jobs, Function.update s.worker w x⟩

/-- A row is inserted and committed. -/
def JobQueue.insert (s : JobQueue W) (j : JobId) (row : JobRow) : JobQueue W :=
  { s with jobs := Function.update s.jobs j ⟨some row, none⟩ }

/-- What happens to a queue. -/
inductive QueueEvent (W : Type) where
  | tick
  | enqueue (j : JobId)
  | start (w : W)
  | claim (w : W) (j : JobId)
  | commitClaim (w : W) (j : JobId)
  | dispatch (w : W) (j : JobId)
  | returns (w : W) (j : JobId)
  | raises (w : W) (j : JobId)
  | markDone (w : W) (j : JobId)
  | commitDone (w : W) (j : JobId)
  | markFailed (w : W) (j : JobId)
  | commitFailed (w : W) (j : JobId)
  /-- The connection is lost before or in `_dispatch`. -/
  | disconnect (w : W) (j : JobId)
  /-- The process ends, or a statement finds the connection lost and the exception ends it. -/
  | crash (w : W) (position : Option (JobId × JobPhase))

/-- A step of the queue. A statement on a row waits for the transaction that holds it. -/
inductive QueueStep : JobQueue W → QueueEvent W → JobQueue W → Prop where
  | tick {s : JobQueue W} {now : ℤ} (h : s.now ≤ now) : QueueStep s .tick { s with now }
  | enqueue {s : JobQueue W} {j : JobId} (h : s.jobs j = ⟨none, none⟩) (kind : JobKind)
      (payload : Json) (priority : ℤ) (runAfter : Option ℤ) (ingestRunId : Option String) :
      QueueStep s (.enqueue j)
        (s.insert j (enqueue kind payload priority runAfter ingestRunId s.now))
  | start {s : JobQueue W} {w : W} (h : s.worker w = .dead) :
      QueueStep s (.start w) (s.put w .idle s.jobs)
  | claim {s : JobQueue W} {w : W} {j : JobId} {row : JobRow} (h : s.worker w = .idle)
      (hnext : IsNext s.jobs s.now j row) :
      QueueStep s (.claim w j) (s.put w (.at j .claimed) (s.jobs.modify w j .claim))
  | commitClaim {s : JobQueue W} {w : W} {j : JobId} (h : s.worker w = .at j .claimed) :
      QueueStep s (.commitClaim w j) (s.put w (.at j (.held true)) (s.jobs.commit w))
  | dispatch {s : JobQueue W} {w : W} {j : JobId} {online : Bool}
      (h : s.worker w = .at j (.held online)) :
      QueueStep s (.dispatch w j) (s.put w (.at j (.dispatching online)) s.jobs)
  | returns {s : JobQueue W} {w : W} {j : JobId} (h : s.worker w = .at j (.dispatching true)) :
      QueueStep s (.returns w j) (s.put w (.at j .dispatched) s.jobs)
  -- the handler raises, or a statement of the success path does
  | raises {s : JobQueue W} {w : W} {j : JobId} {φ : JobPhase} (h : s.worker w = .at j φ)
      (hφ : φ ∈ [.dispatching true, .dispatched, .doneMarked]) :
      QueueStep s (.raises w j) (s.put w (.at j .failing) (s.jobs.rollback w))
  | markDone {s : JobQueue W} {w : W} {j : JobId} (h : s.worker w = .at j .dispatched)
      (hfree : (s.jobs j).FreeFor w) :
      QueueStep s (.markDone w j) (s.put w (.at j .doneMarked) (s.jobs.modify w j .markDone))
  | commitDone {s : JobQueue W} {w : W} {j : JobId} (h : s.worker w = .at j .doneMarked) :
      QueueStep s (.commitDone w j) (s.put w .idle (s.jobs.commit w))
  | markFailed {s : JobQueue W} {w : W} {j : JobId} (h : s.worker w = .at j .failing)
      (hfree : (s.jobs j).FreeFor w) (error : String) :
      QueueStep s (.markFailed w j)
        (s.put w (.at j .failedMarked) (s.jobs.modify w j fun row => row.markFailed error s.now))
  | commitFailed {s : JobQueue W} {w : W} {j : JobId} (h : s.worker w = .at j .failedMarked) :
      QueueStep s (.commitFailed w j) (s.put w .idle (s.jobs.commit w))
  | disconnectHeld {s : JobQueue W} {w : W} {j : JobId} (h : s.worker w = .at j (.held true)) :
      QueueStep s (.disconnect w j) (s.put w (.at j (.held false)) s.jobs)
  | disconnectDispatching {s : JobQueue W} {w : W} {j : JobId}
      (h : s.worker w = .at j (.dispatching true)) :
      QueueStep s (.disconnect w j) (s.put w (.at j (.dispatching false)) s.jobs)
  -- the server rolls back what is not committed
  | crash {s : JobQueue W} (w : W) :
      QueueStep s (.crash w (s.worker w).position) (s.put w .dead (s.jobs.rollback w))

/-- A run of the queue from its creation on. -/
abbrev QueueRun (now : ℤ) : List (QueueEvent W) → JobQueue W → Prop :=
  Run QueueStep (JobQueue.empty W now)

end CivicProof
