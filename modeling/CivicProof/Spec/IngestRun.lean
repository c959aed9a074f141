import CivicProof.Spec.ArchiveSteps
import CivicProof.Spec.Engine

/-!
# Ingest runs

`IngestRun`: the context manager that opens a row of `ingest_runs`, lends its connection to the
body, collects its stats, and closes the row. The body archives on the connection and does whatever
else it does; other processes archive on theirs.
-/

namespace CivicProof

open Transact

/-! ## Stats -/

/-- `add_stats`. -/
def addStats (stats update : Dict Json) : Dict Json := update ∪ stats

/-- A body that reports to its ingest run once it has ended normally. -/
def reported {σ β : Type} (stats : Dict Json) (report : β → Dict Json) :
    Except PyError β × σ → Except PyError β × σ × Dict Json
  | (.ok b, s) => (.ok b, s, addStats stats (report b))
  | (.error e, s) => (.error e, s, stats)

theorem reported_ok {σ β : Type} {stats stats' : Dict Json} {report : β → Dict Json}
    {x : Except PyError β × σ} {b : β} {s : σ} : reported stats report x = (.ok b, s, stats') ↔
      x = (.ok b, s) ∧ stats' = addStats stats (report b) := by
  rcases x with ⟨_ | b₁, s₁⟩
  · simp [reported]
  · simp only [reported, Prod.mk.injEq, Except.ok.injEq]
    constructor
    · rintro ⟨rfl, rfl, rfl⟩
      exact ⟨⟨rfl, rfl⟩, rfl⟩
    · rintro ⟨⟨rfl, rfl⟩, rfl⟩
      exact ⟨rfl, rfl, rfl⟩

/-! ## The row of a run -/

/-- The statuses of `ingest_runs_status_check`. -/
inductive RunStatus where
  | running
  | succeeded
  | failed
  deriving DecidableEq, Repr

/-- A row of `ingest_runs`, by its `run_id`. -/
structure IngestRunRow where
  sourceFamily : String
  status : RunStatus
  stats : Json
  finishedAt : Option ℤ

/-- What leaving an ingest run reads from its surroundings: `json.dumps`, for stats of any type,
what a `jsonb` column makes of a text, and `now()`. -/
structure RunEnv (V : Type) where
  dumps : V → Except PyError String
  jsonb : String → Option Json
  now : ℤ

/-- `IngestRun`, but for its stats and its connection: `db_id` is what the database will give it. -/
structure IngestRun where
  sourceFamily : String
  runId : String
  dbId : ℤ

/-- The archive, `ingest_runs`, and the connections that are gone. -/
structure IngestDb (C K : Type) where
  archive : Archive C K
  runs : Table (ArchiveSession C K) String IngestRunRow
  lost : K → Bool

section Manager

variable {C K : Type} [DecidableEq C] [DecidableEq K]

namespace IngestDb

variable (db : IngestDb C K) (k : K)

/-- The transaction of `k` is rolled back. -/
def rollback : IngestDb C K :=
  { db with
    archive := db.archive.endTransaction (.shared k) (db.archive.rows.rollback (.shared k))
    runs := db.runs.rollback (.shared k) }

/-- The transaction of `k`, which has not failed, is committed. -/
def commit : IngestDb C K :=
  { db with
    archive := db.archive.endTransaction (.shared k) (db.archive.rows.commit (.shared k))
    runs := db.runs.commit (.shared k) }

/-- `make_connection`: connection `k` is new, and has nothing open. -/
def connect : IngestDb C K :=
  { db.rollback k with lost := Function.update db.lost k false }

/-- `close`: what is open is rolled back. -/
def close : IngestDb C K :=
  { db.rollback k with lost := Function.update db.lost k true }

/-- A statement on `k` fails, and with it the transaction. -/
def failTransaction : IngestDb C K :=
  { db with
    archive :=
      { db.archive with
        rows := db.archive.rows.rollback (.shared k)
        aborted := Function.update db.archive.aborted (.shared k) true }
    runs := db.runs.rollback (.shared k) }

/-- Statements on `k` are executed. -/
def Usable : Prop := db.lost k = false ∧ db.archive.aborted (.shared k) = false

instance : Decidable (db.Usable k) := inferInstanceAs (Decidable (_ ∧ _))

end IngestDb

/-- `__enter__`, on a new connection `k`. It raises when the id of the run is taken. -/
def IngestRun.enter (run : IngestRun) (k : K) (db : IngestDb C K) :
    Except PyError (IngestDb C K) :=
  match (db.connect k).runs run.runId with
  | ⟨none, none⟩ =>
    let row : IngestRunRow := ⟨run.sourceFamily, .running, .obj [], none⟩
    let opened := { db.connect k with
      runs := (db.connect k).runs.insert (.shared k) run.runId row }.commit k
    .ok { opened with archive := opened.archive.openRun run.dbId }
  | _ => .error .external

/-- The status that a run is closed with, by what its body has raised. -/
def runStatus {X : Type} (outcome : Option X) : RunStatus :=
  if outcome.isSome then .failed else .succeeded

/-- The closing update of the row and its commit, on connection `k`, which is then closed. -/
def IngestRun.closeRow {V X : Type} (R : RunEnv V) (run : IngestRun) (k : K) (stats : Json)
    (outcome : Option X) (db : IngestDb C K) : IngestDb C K :=
  ({ db with
    runs := db.runs.modify (.shared k) run.runId fun row =>
      { row with status := runStatus outcome, stats, finishedAt := some R.now } }.commit k).close k

/-- `__exit__` on connection `k`, of a body that has ended normally or with an exception of any
type: what propagates (the exception of the body, or one raised on leaving) and the database. -/
def IngestRun.exit {V X : Type} (R : RunEnv V) (run : IngestRun) (k : K) (stats : V)
    (outcome : Option X) (db : IngestDb C K) : Option (X ⊕ PyError) × IngestDb C K :=
  match R.dumps stats with
  | .error e => (some (.inr e), db.close k)
  | .ok text =>
    -- a transaction that has failed takes no statement
    if ¬db.Usable k then (some (.inr .external), db.close k)
    else match R.jsonb text with
      | none => (some (.inr .external), db.close k)
      | some stats => (outcome.map .inl, run.closeRow R k stats outcome db)

/-! ## The body -/

/-- What happens while the body runs. -/
inductive IngestEvent (C K : Type) where
  | archive (e : ArchiveEvent C K)
  | fail
  | lose
  deriving DecidableEq

/-- A step while the body runs on connection `k`: of a call to `archive_payload`, by the body or
elsewhere, of a transaction, or any other statement on `k` that fails. What succeeds leaves the row
of the run alone. -/
inductive IngestStep (E : ArchiveEnv) (P : ArchiveCalls C K) (k : K) :
    IngestDb C K → IngestEvent C K → IngestDb C K → Prop where
  -- the process of the run lives, and a connection that is gone ends no transaction
  | archive {db : IngestDb C K} {e : ArchiveEvent C K} {archive : Archive C K}
      (h : ArchiveStep E P db.archive e archive) (halive : e ≠ .crash (.shared k))
      (hlost : db.lost k = true → e ≠ .callerCommit k ∧ e ≠ .callerRollback k) :
      IngestStep E P k db (.archive e) { db with archive }
  | fail {db : IngestDb C K} : IngestStep E P k db .fail (db.failTransaction k)
  | lose {db : IngestDb C K} :
      IngestStep E P k db .lose
        { db.failTransaction k with lost := Function.update db.lost k true }

end Manager

end CivicProof
