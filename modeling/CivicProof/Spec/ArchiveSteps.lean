import CivicProof.Spec.ArchiveUri
import CivicProof.Transact.Run
import CivicProof.Transact.Table

/-!
# The archive, step by step

`archive_payload` on the object store and on the `raw_fetch_objects` table: look the digest up,
store the content, insert a row, commit. Calls run side by side; a call has a connection of its
own or takes part in a transaction of its caller. A row belongs to a run that `ingest_runs` has.
-/

namespace CivicProof

open Transact

/-! ## Calls and sessions -/

/-- A database session: of a call, or of a caller. -/
inductive ArchiveSession (C K : Type) where
  | own (c : C)
  | shared (k : K)
  deriving DecidableEq

/-- The calls: the arguments of each, the connection it is given, its `uuid4()`, which no other call
draws, and what the object store answers it. -/
structure ArchiveCalls (C K : Type) where
  args : C → ArchiveCall
  conn : C → Option K
  objectId : C → String
  objectId_injective : Function.Injective objectId
  ensureBucket : C → Except PyError Unit
  putObject : C → Except PyError Unit

/-- The session of a call. -/
def ArchiveCalls.session {C K : Type} (P : ArchiveCalls C K) (c : C) : ArchiveSession C K :=
  (P.conn c).elim (.own c) .shared

/-- The digest of what a call archives. -/
def ArchiveCalls.digest {C K : Type} (P : ArchiveCalls C K) (E : ArchiveEnv) (c : C) : String :=
  (P.args c).digest E

/-- The row that a call inserts. -/
def ArchiveCalls.row {C K : Type} (P : ArchiveCalls C K) (E : ArchiveEnv) (c : C)
    (uri : ArchiveCoord) : RawFetchObject :=
  (P.args c).row E (P.objectId c) uri

/-- The call stores its content: `ensure_bucket`, and `put_archive_object` up to `put_object`. -/
def ArchiveCalls.put {C K : Type} (P : ArchiveCalls C K) (E : ArchiveEnv) (c : C)
    (uri : ArchiveCoord) : Except PyError Unit := do
  P.ensureBucket c
  let _ ← putArchiveObject E uri.text
  P.putObject c

/-! ## The archive -/

/-- Where a call is in `archive_payload`. -/
inductive ArchivePc where
  | idle
  /-- No row is found; the content is to be stored under `uri`. -/
  | missed (uri : ArchiveCoord)
  /-- The content is stored. -/
  | stored (uri : ArchiveCoord)
  /-- The row is inserted on a connection of the call's own. -/
  | inserted (row : RawFetchObject)
  | returned (record : ArchiveRecord)
  | raised (e : PyError)
  | crashed
  deriving DecidableEq, Repr

/-- The call has not ended. -/
def ArchivePc.active : ArchivePc → Bool
  | .missed _ | .stored _ | .inserted _ => true
  | _ => false

/-- What a call brings is refused where it is: by the object store, or, for a text that no column
holds, by the database driver, which sends nothing then. -/
inductive ArchiveCalls.Refuses {C K : Type} (P : ArchiveCalls C K) (E : ArchiveEnv) (c : C) :
    ArchivePc → PyError → Prop where
  | put {uri : ArchiveCoord} {e : PyError} (h : P.put E c uri = .error e) :
      Refuses P E c (.missed uri) e
  | texts {uri : ArchiveCoord} (h : (P.args c).storable = false) :
      Refuses P E c (.stored uri) .external

/-- Where a call goes after its insert: a connection of its own has to be committed yet. -/
def ArchiveCalls.afterInsert {C K : Type} (P : ArchiveCalls C K) (E : ArchiveEnv) (c : C)
    (uri : ArchiveCoord) : ArchivePc :=
  if P.conn c = none then .inserted (P.row E c uri) else .returned (P.row E c uri).record

/-- The object store, the ids in `ingest_runs`, the table by digest (`UNIQUE (content_sha256)`), the
sessions whose transaction has failed, and the calls. -/
structure Archive (C K : Type) where
  objects : ArchiveCoord → Option (List UInt8)
  runs : ℤ → Bool
  rows : Table (ArchiveSession C K) String RawFetchObject
  aborted : ArchiveSession C K → Bool
  call : C → ArchivePc

/-- Nothing is archived yet. -/
def Archive.empty (C K : Type) : Archive C K :=
  ⟨fun _ => none, fun _ => false, fun _ => ⟨none, none⟩, fun _ => false, fun _ => .idle⟩

/-- What happens to an archive. -/
inductive ArchiveEvent (C K : Type) where
  | openRun (id : ℤ)
  | lookup (c : C)
  | put (c : C)
  | refuse (c : C)
  | insert (c : C)
  | violate (c : C)
  | commit (c : C)
  | callerCommit (k : K)
  | callerRollback (k : K)
  | crash (σ : ArchiveSession C K)
  deriving DecidableEq

section Step

variable {C K : Type} [DecidableEq C] [DecidableEq K] (E : ArchiveEnv) (P : ArchiveCalls C K)

/-- Call `c` goes on as `pc`. -/
def Archive.goOn (s : Archive C K) (c : C) (pc : ArchivePc) : Archive C K :=
  { s with call := Function.update s.call c pc }

/-- The row of its content that a call finds (`_find_existing`). -/
def Archive.findExisting (s : Archive C K) (c : C) : Option RawFetchObject :=
  (s.rows (P.digest E c)).view (P.session c)

/-- `archive_payload` up to the lookup and, if that finds nothing, the URI. -/
def Archive.lookup (s : Archive C K) (c : C) : ArchivePc :=
  if ¬(P.args c).Checked then .raised .valueError
  -- a transaction that has failed takes no statement
  else if s.aborted (P.session c) then .raised .external
  else match s.findExisting E P c with
    | some row => .returned ((P.args c).existing row)
    | none => match (P.args c).uri E with
      | .ok uri => .missed uri
      | .error e => .raised e

/-- The session of a caller is through with its transaction. -/
def Archive.endTransaction (s : Archive C K) (σ : ArchiveSession C K)
    (rows : Table (ArchiveSession C K) String RawFetchObject) : Archive C K :=
  { s with rows, aborted := Function.update s.aborted σ false }

/-- An ingest run is entered: its row is there from now on. -/
def Archive.openRun (s : Archive C K) (id : ℤ) : Archive C K :=
  { s with runs := Function.update s.runs id true }

/-- The database takes the row of a call: its texts can be stored, and its run is there. -/
def Archive.TakesRow (s : Archive C K) (c : C) : Prop :=
  (P.args c).storable = true ∧ s.runs (P.args c).ingestRunId = true

/-- A step of the archive. -/
inductive ArchiveStep : Archive C K → ArchiveEvent C K → Archive C K → Prop where
  | openRun {s : Archive C K} (id : ℤ) : ArchiveStep s (.openRun id) (s.openRun id)
  | lookup {s : Archive C K} {c : C} (h : s.call c = .idle) :
      ArchiveStep s (.lookup c) (s.goOn c (s.lookup E P c))
  | put {s : Archive C K} {c : C} {uri : ArchiveCoord} (h : s.call c = .missed uri)
      (hput : P.put E c uri = .ok ()) :
      ArchiveStep s (.put c)
        { s.goOn c (.stored uri) with
          objects := Function.update s.objects uri (some (P.args c).fetchResult.content) }
  | refuse {s : Archive C K} {c : C} {e : PyError} (h : P.Refuses E c (s.call c) e) :
      ArchiveStep s (.refuse c) (s.goOn c (.raised e))
  -- an insert waits for another transaction that has inserted the digest
  | insert {s : Archive C K} {c : C} {uri : ArchiveCoord} (h : s.call c = .stored uri)
      (hopen : s.aborted (P.session c) = false)
      (hfree : (s.rows (P.digest E c)).FreeFor (P.session c))
      (hnone : s.findExisting E P c = none) (hrow : s.TakesRow P c) :
      ArchiveStep s (.insert c)
        { s.goOn c (P.afterInsert E c uri) with
          rows := s.rows.insert (P.session c) (P.digest E c) (P.row E c uri) }
  -- a violation, of the digest or of the foreign key `ingest_run_id`, fails the whole transaction
  | violate {s : Archive C K} {c : C} {uri : ArchiveCoord} (h : s.call c = .stored uri)
      (htexts : (P.args c).storable = true)
      (hfails : s.aborted (P.session c) = true ∨
        ((s.rows (P.digest E c)).FreeFor (P.session c) ∧
          (s.findExisting E P c ≠ none ∨ s.runs (P.args c).ingestRunId = false))) :
      ArchiveStep s (.violate c)
        { s.goOn c (.raised .external) with
          rows := s.rows.rollback (P.session c)
          aborted := Function.update s.aborted (P.session c) true }
  | commit {s : Archive C K} {c : C} {row : RawFetchObject} (h : s.call c = .inserted row) :
      ArchiveStep s (.commit c)
        { s.goOn c (.returned row.record) with rows := s.rows.commit (P.session c) }
  | callerCommit {s : Archive C K} (k : K) :
      ArchiveStep s (.callerCommit k) (s.endTransaction (.shared k)
        (if s.aborted (.shared k) then s.rows.rollback (.shared k) else s.rows.commit (.shared k)))
  | callerRollback {s : Archive C K} (k : K) :
      ArchiveStep s (.callerRollback k)
        (s.endTransaction (.shared k) (s.rows.rollback (.shared k)))
  -- the process of a session dies, and its calls with it
  | crash {s : Archive C K} (σ : ArchiveSession C K) :
      ArchiveStep s (.crash σ)
        { s.endTransaction σ (s.rows.rollback σ) with
          call := fun c =>
            if P.session c = σ ∧ (s.call c).active = true then .crashed else s.call c }

end Step

end CivicProof
