import CivicProof.Proof.Archive
import CivicProof.Spec.IngestRun

/-!
# When an ingest run is closed

`__exit__` writes the status of the run on the connection that the body has used. A statement that
has failed there leaves a transaction that takes no other, so the error that is to be reported keeps
the row from being closed, and its own exception hides that of the body.

* `IngestRun.enter_opens`, `IngestRun.Open.stays`: the row of the run stays open throughout the body.
* `IngestRun.closed_exit_iff`: what leaving the run needs of the database.
* `ingest_run_closed_iff`: the same for the runs of any body.
* `Held.step`, `ingest_run_closed_of_calm`: bodies after which all of it is there.
-/

namespace CivicProof

open Transact

section Closing

variable {C K V X : Type} [DecidableEq C] [DecidableEq K] {E : ArchiveEnv}
  {P : ArchiveCalls C K} {k : K} {run : IngestRun} {db db' : IngestDb C K}

/-- Call `c`, on the connection of the run, has archived a new row. -/
def IngestDb.Archived (P : ArchiveCalls C K) (k : K) (db : IngestDb C K) (c : C)
    (row : RawFetchObject) : Prop :=
  P.conn c = some k ∧ db.archive.call c = .returned row.record

/-- The row of the run has a status that is not `running`. -/
def IngestRun.IsClosed (run : IngestRun) (db : IngestDb C K) : Prop :=
  ∃ row, (db.runs run.runId).committed = some row ∧ row.status ≠ .running

/-- **The run is closed**, after a body with that outcome: its row has the status of the outcome,
what propagates is what the body has raised, and the rows that the body has archived on the
connection are kept exactly when the row is closed. -/
structure IngestRun.Closed (E : ArchiveEnv) (P : ArchiveCalls C K) (run : IngestRun) (k : K)
    (outcome : Option X) (raised : Option (X ⊕ PyError)) (db : IngestDb C K) : Prop where
  status : ∃ row, (db.runs run.runId).committed = some row ∧ row.status = runStatus outcome
  propagates : raised = outcome.map .inl
  kept : ∀ c row, db.Archived P k c row →
    ((db.archive.rows (P.digest E c)).committed = some row ↔ run.IsClosed db)

/-- The row of the run is committed as `running`, and nobody is writing it. -/
def IngestRun.Open (run : IngestRun) (db : IngestDb C K) : Prop :=
  ∃ row, db.runs run.runId = ⟨some row, none⟩ ∧ row.status = .running

/-! ## The row of the run -/

/-- **The run is open** once it is entered. -/
theorem IngestRun.enter_opens (h : run.enter k db = .ok db') : run.Open db' := by
  unfold IngestRun.enter at h
  split at h
  · cases h
    refine ⟨⟨run.sourceFamily, .running, .obj [], none⟩, ?_, rfl⟩
    simp [IngestDb.commit, Cell.write]
  · cases h

theorem IngestRun.Open.step {e : IngestEvent C K} (h : run.Open db)
    (hstep : IngestStep E P k db e db') : run.Open db' := by
  obtain ⟨row, hrow, hstatus⟩ := h
  refine ⟨row, ?_, hstatus⟩
  cases hstep with
  | archive => exact hrow
  | fail => simp [IngestDb.failTransaction, hrow, Cell.rollback]
  | lose => simp [IngestDb.failTransaction, hrow, Cell.rollback]

/-- **The run stays open** throughout the body. -/
theorem IngestRun.Open.stays {p : List (IngestEvent C K)} (h : run.Open db)
    (hbody : Run (IngestStep E P k) db p db') : run.Open db' :=
  hbody.preserves (I := fun _ db => run.Open db) h fun _ _ _ _ _ hopen hstep => hopen.step hstep

theorem IngestRun.Open.close (h : run.Open db) : run.Open (db.close k) := by
  obtain ⟨row, hrow, hstatus⟩ := h
  exact ⟨row, by simp [IngestDb.close, IngestDb.rollback, hrow, Cell.rollback], hstatus⟩

theorem runStatus_ne_running (outcome : Option X) : runStatus outcome ≠ .running := by
  unfold runStatus
  split <;> decide

omit [DecidableEq C] [DecidableEq K] in
/-- A run that is open is not closed. -/
theorem IngestRun.Open.not_closed {outcome : Option X} {raised : Option (X ⊕ PyError)}
    (h : run.Open db) : ¬run.Closed E P k outcome raised db := by
  intro hclosed
  obtain ⟨row, hrow, hstatus⟩ := h
  obtain ⟨row', hrow', hstatus'⟩ := hclosed.status
  rw [hrow] at hrow'
  cases hrow'
  exact runStatus_ne_running outcome (hstatus'.symm.trans hstatus)

omit [DecidableEq C] [DecidableEq K] in
theorem IngestRun.isClosed_of_status {outcome : Option X}
    (h : ∃ row, (db.runs run.runId).committed = some row ∧ row.status = runStatus outcome) :
    run.IsClosed db := by
  obtain ⟨row, hrow, hstatus⟩ := h
  exact ⟨row, hrow, hstatus ▸ runStatus_ne_running outcome⟩

/-! ## Leaving the run -/

/-- The stats are written: `json.dumps` gives a text that the column takes. -/
def RunEnv.Storable (R : RunEnv V) (stats : V) : Prop :=
  ∃ text json, R.dumps stats = .ok text ∧ R.jsonb text = some json

/-- What the body has archived on the connection is in the table, as the connection sees it. -/
def IngestDb.HoldsArchived (E : ArchiveEnv) (P : ArchiveCalls C K) (k : K) (db : IngestDb C K) :
    Prop :=
  ∀ c row, db.Archived P k c row →
    (db.archive.rows (P.digest E c)).view (.shared k) = some row

variable {R : RunEnv V} {stats : V} {outcome : Option X}

/-- An exit that does not get to its commit leaves the run open. -/
theorem IngestRun.exit_fails (hopen : run.Open db) (h : ¬(db.Usable k ∧ R.Storable stats)) :
    run.Open (run.exit R k stats outcome db).2 := by
  unfold IngestRun.exit
  split
  · exact hopen.close
  · rename_i text htext
    split
    · exact hopen.close
    · rename_i husable
      split
      · exact hopen.close
      · rename_i json hjson
        exact absurd ⟨not_not.1 husable, text, json, htext, hjson⟩ h

theorem IngestRun.closeRow_status (R : RunEnv V) (run : IngestRun) (k : K) (json : Json)
    (outcome : Option X) {row : IngestRunRow} (hrow : db.runs run.runId = ⟨some row, none⟩) :
    ∃ row', ((run.closeRow R k json outcome db).runs run.runId).committed = some row' ∧
      row'.status = runStatus outcome := by
  refine ⟨{ row with status := runStatus outcome, stats := json, finishedAt := some R.now }, ?_, rfl⟩
  simp [IngestRun.closeRow, IngestDb.close, IngestDb.rollback, IngestDb.commit, Cell.modify,
    Cell.view, Cell.write, hrow]

theorem IngestRun.exit_eq {text : String} {json : Json} (husable : db.Usable k)
    (htext : R.dumps stats = .ok text) (hjson : R.jsonb text = some json) :
    run.exit R k stats outcome db = (outcome.map .inl, run.closeRow R k json outcome db) := by
  simp [IngestRun.exit, htext, husable, hjson]

/-- **What leaving the run needs**: a connection that takes statements, stats that can be stored,
and of what has been archived no row that has been rolled back. -/
theorem IngestRun.closed_exit_iff (hopen : run.Open db) :
    run.Closed E P k outcome (run.exit R k stats outcome db).1
        (run.exit R k stats outcome db).2 ↔
      db.Usable k ∧ R.Storable stats ∧ db.HoldsArchived E P k := by
  by_cases hready : db.Usable k ∧ R.Storable stats
  swap
  · refine iff_of_false (IngestRun.exit_fails hopen hready).not_closed ?_
    exact fun h => hready ⟨h.1, h.2.1⟩
  obtain ⟨husable, hstorable⟩ := hready
  obtain ⟨row, hrow, -⟩ := hopen
  obtain ⟨text, json, htext, hjson⟩ := hstorable
  rw [IngestRun.exit_eq husable htext hjson]
  have hclosed := run.closeRow_status R k json outcome hrow
  have hkept (d : String) : (((run.closeRow R k json outcome db).archive.rows d).committed =
      (db.archive.rows d).view (.shared k)) := by
    simp [IngestRun.closeRow, IngestDb.close, IngestDb.rollback, IngestDb.commit,
      Archive.endTransaction]
  constructor
  · intro h
    refine ⟨husable, ⟨text, json, htext, hjson⟩, fun c row harchived => ?_⟩
    rw [← hkept]
    exact (h.kept c row harchived).2 (IngestRun.isClosed_of_status hclosed)
  · rintro ⟨-, -, hheld⟩
    refine ⟨hclosed, rfl, fun c row harchived => ?_⟩
    rw [hkept]
    exact iff_of_true (hheld c row harchived) (IngestRun.isClosed_of_status hclosed)

/-- **When an ingest run is closed**: for every body, when at its end the connection takes
statements, the stats can be stored, and no row that has been archived on it has been rolled
back. -/
theorem ingest_run_closed_iff {p : List (IngestEvent C K)} (henter : run.enter k db = .ok db')
    {db'' : IngestDb C K} (hbody : Run (IngestStep E P k) db' p db'') (stats : V)
    (outcome : Option X) :
    run.Closed E P k outcome (run.exit R k stats outcome db'').1
        (run.exit R k stats outcome db'').2 ↔
      db''.Usable k ∧ R.Storable stats ∧ db''.HoldsArchived E P k :=
  IngestRun.closed_exit_iff ((IngestRun.enter_opens henter).stays hbody)

/-- A run of the archive is one of the body, on a connection that is there. -/
theorem IngestStep.of_archiveRun {s : Archive C K} {p : List (ArchiveEvent C K)}
    (h : Run (ArchiveStep E P) db.archive p s) (halive : .crash (.shared k) ∉ p)
    (hlive : db.lost k = false) :
    Run (IngestStep E P k) db (p.map .archive) { db with archive := s } := by
  induction h with
  | nil => exact .nil
  | @snoc p e t u hrun hlast ih =>
    rw [List.mem_append, not_or, List.mem_singleton] at halive
    rw [List.map_append]
    refine (ih halive.1).snoc (.archive hlast (Ne.symm halive.2) fun hlost => ?_)
    rw [hlive] at hlost
    cases hlost

end Closing

/-! ## Calm bodies -/

section Calm

variable {C K V X : Type} [DecidableEq C] [DecidableEq K] {E : ArchiveEnv}
  {P : ArchiveCalls C K} {k : K} {s s' : Archive C K} {e : ArchiveEvent C K} {c : C}
  {row : RawFetchObject} {d : String}

/-- The event neither fails a statement of the connection nor rolls its transaction back. -/
def ArchiveEvent.Calm (P : ArchiveCalls C K) (k : K) : ArchiveEvent C K → Prop
  | .violate c => P.conn c ≠ some k
  | .callerRollback k' => k' ≠ k
  | .crash σ => σ ≠ .shared k
  | _ => True

/-- No row is written over one that is committed. -/
def Archive.Fresh (s : Archive C K) : Prop := ∀ d, (s.rows d).Fresh

omit [DecidableEq C] [DecidableEq K] in
theorem ArchiveCalls.session_eq_shared : P.session c = .shared k ↔ P.conn c = some k := by
  unfold ArchiveCalls.session
  cases P.conn c <;> simp

theorem Archive.Fresh.step (hs : s.Fresh) (h : ArchiveStep E P s e s') : s'.Fresh := by
  intro d
  cases h with
  | openRun => exact hs d
  | lookup => exact hs d
  | put => exact hs d
  | refuse => exact hs d
  | @insert c uri _ _ hfree hnone =>
    change ((s.rows.insert _ _ _) d).Fresh
    by_cases hd : d = P.digest E c
    · subst hd
      rw [Table.insert_self, Cell.eq_none_of_view hfree hnone]
      exact fun _ => rfl
    · rw [Table.insert_of_ne hd]
      exact hs d
  | violate => exact (hs d).rollback
  | commit => exact (hs d).commit
  | callerCommit k' =>
    change ((if s.aborted (.shared k') then s.rows.rollback (.shared k')
      else s.rows.commit (.shared k')) d).Fresh
    split
    · exact (hs d).rollback
    · exact (hs d).commit
  | callerRollback => exact (hs d).rollback
  | crash => exact (hs d).rollback

/-- **What a session sees, it goes on to see** when all is calm on its connection. -/
theorem ArchiveStep.sees (h : ArchiveStep E P s e s') (hs : s.Sound E P) (hfresh : s.Fresh)
    (hopen : s.aborted (.shared k) = false) (hcalm : e.Calm P k)
    (hrow : (s.rows d).view (.shared k) = some row) : (s'.rows d).view (.shared k) = some row := by
  cases h with
  | openRun => exact hrow
  | lookup => exact hrow
  | put => exact hrow
  | refuse => exact hrow
  | @insert c uri _ _ hfree hnone =>
    by_cases hd : d = P.digest E c
    · subst hd
      rw [Cell.eq_none_of_view hfree hnone] at hrow
      cases hrow
    · change ((s.rows.insert _ _ _) d).view _ = _
      rwa [Table.insert_of_ne hd]
  | @violate c =>
    have hne : ArchiveSession.shared k ≠ P.session c := fun heq =>
      hcalm (ArchiveCalls.session_eq_shared.1 heq.symm)
    exact (Cell.view_rollback_of_ne hne).trans hrow
  | @commit c row' hc =>
    have hne : ArchiveSession.shared k ≠ P.session c := by
      rw [ArchiveCalls.session_eq_own.2 ⟨rfl, hs.inserted c row' hc⟩]
      simp
    exact Cell.view_commit_of_ne (hfresh d) hne hrow
  | callerCommit k' =>
    change ((if s.aborted (.shared k') then s.rows.rollback (.shared k')
      else s.rows.commit (.shared k')) d).view _ = _
    by_cases hk : k' = k
    · subst hk
      rw [hopen]
      exact Cell.view_commit.trans hrow
    · have hne : ArchiveSession.shared (C := C) k ≠ .shared k' := by simpa [eq_comm] using hk
      split
      · exact (Cell.view_rollback_of_ne hne).trans hrow
      · exact Cell.view_commit_of_ne (hfresh d) hne hrow
  | callerRollback k' =>
    have hne : ArchiveSession.shared (C := C) k ≠ .shared k' := by simpa using Ne.symm hcalm
    exact (Cell.view_rollback_of_ne hne).trans hrow
  | crash σ => exact (Cell.view_rollback_of_ne (Ne.symm hcalm)).trans hrow

theorem ArchiveStep.unaborted (h : ArchiveStep E P s e s') (hopen : s.aborted (.shared k) = false)
    (hcalm : e.Calm P k) : s'.aborted (.shared k) = false := by
  cases h with
  | @violate c =>
    have hne : ArchiveSession.shared k ≠ P.session c := fun heq =>
      hcalm (ArchiveCalls.session_eq_shared.1 heq.symm)
    exact (Function.update_of_ne hne ..).trans hopen
  | callerCommit k' =>
    by_cases hk : ArchiveSession.shared (C := C) k = .shared k'
    · rw [hk]
      exact Function.update_self ..
    · exact (Function.update_of_ne hk ..).trans hopen
  | callerRollback k' =>
    have hne : ArchiveSession.shared (C := C) k ≠ .shared k' := by simpa using Ne.symm hcalm
    exact (Function.update_of_ne hne ..).trans hopen
  | crash σ => exact (Function.update_of_ne (Ne.symm hcalm) ..).trans hopen
  | _ => exact hopen

/-- A lookup finds no new row. -/
theorem Archive.lookup_created {r : ArchiveRecord} (h : s.lookup E P c = .returned r) :
    r.created = false := by
  unfold Archive.lookup at h
  split at h
  · cases h
  · split at h
    · cases h
    · split at h
      · cases h
        rfl
      · split at h <;> cases h

/-- A row that has been archived after a step was before, or the step inserts it. -/
theorem ArchiveStep.archived (h : ArchiveStep E P s e s') (hs : s.Sound E P)
    (hconn : P.conn c = some k) (hc : s'.call c = .returned row.record) :
    s.call c = .returned row.record ∨ (s'.rows (P.digest E c)).view (.shared k) = some row := by
  have hgoOn {c' : C} {pc : ArchivePc} (hne : c' = c → pc ≠ .returned row.record)
      (hc : (s.goOn c' pc).call c = .returned row.record) : s.call c = .returned row.record := by
    by_cases hcc : c = c'
    · subst hcc
      exact absurd ((Function.update_self ..).symm.trans hc) (hne rfl)
    · exact (Function.update_of_ne hcc ..).symm.trans hc
  cases h with
  | openRun => exact Or.inl hc
  | @lookup c' _ =>
    refine Or.inl (hgoOn (fun _ heq => ?_) hc)
    exact Bool.false_ne_true (Archive.lookup_created heq).symm
  | put => exact Or.inl (hgoOn (fun _ => by simp) hc)
  | refuse => exact Or.inl (hgoOn (fun _ => by simp) hc)
  | @insert c' uri =>
    by_cases hcc : c = c'
    · subst hcc
      have hafter : P.afterInsert E c uri = .returned row.record :=
        (Function.update_self ..).symm.trans hc
      unfold ArchiveCalls.afterInsert at hafter
      rw [if_neg (by simp [hconn]), ArchivePc.returned.injEq] at hafter
      have hrow : P.row E c uri = row := congrArg ArchiveRecord.toRawFetchObject hafter
      refine Or.inr ?_
      change ((s.rows.insert (P.session c) (P.digest E c) (P.row E c uri)) _).view _ = _
      rw [Table.insert_self, ArchiveCalls.session_eq_shared.2 hconn, Cell.view_write, hrow]
    · exact Or.inl (hgoOn (fun heq => absurd heq.symm hcc) hc)
  | violate => exact Or.inl (hgoOn (fun _ => by simp) hc)
  | @commit c' row' hins =>
    refine Or.inl (hgoOn (fun heq => ?_) hc)
    rw [← heq, hs.inserted c' row' hins] at hconn
    cases hconn
  | callerCommit => exact Or.inl hc
  | callerRollback => exact Or.inl hc
  | crash σ =>
    change (if P.session c = σ ∧ (s.call c).active = true then _ else s.call c) = _ at hc
    split at hc
    · cases hc
    · exact Or.inl hc

/-- What a calm body keeps. -/
structure IngestDb.Held (E : ArchiveEnv) (P : ArchiveCalls C K) (k : K) (db : IngestDb C K) :
    Prop where
  sound : db.archive.Sound E P
  fresh : db.archive.Fresh
  usable : db.Usable k
  archived : db.HoldsArchived E P k

/-- A step that neither fails a statement of the connection, nor rolls its transaction back, nor
loses it. -/
def IngestEvent.Calm (P : ArchiveCalls C K) (k : K) : IngestEvent C K → Prop
  | .archive e => e.Calm P k
  | .fail | .lose => False

variable {db db' : IngestDb C K}

theorem IngestDb.Held.step {e : IngestEvent C K} (h : db.Held E P k) (hcalm : e.Calm P k)
    (hstep : IngestStep E P k db e db') : db'.Held E P k := by
  cases hstep with
  | @archive e s' hstep =>
    refine ⟨h.sound.step hstep, h.fresh.step hstep, ⟨h.usable.1, ?_⟩, fun c row hc => ?_⟩
    · exact hstep.unaborted h.usable.2 hcalm
    · rcases hstep.archived h.sound hc.1 hc.2 with hbefore | hview
      · exact hstep.sees h.sound h.fresh h.usable.2 hcalm (h.archived c row ⟨hc.1, hbefore⟩)
      · exact hview
  | fail => exact hcalm.elim
  | lose => exact hcalm.elim

/-- **What a calm body leaves**: all that leaving the run needs of the database. -/
theorem IngestDb.Held.run {p : List (IngestEvent C K)} (h : db.Held E P k)
    (hcalm : ∀ e ∈ p, e.Calm P k) (hbody : Run (IngestStep E P k) db p db') :
    db'.Held E P k := by
  induction hbody with
  | nil => exact h
  | snoc _ hlast ih =>
    exact (ih fun e he => hcalm e (List.mem_append_left _ he)).step
      (hcalm _ (List.mem_append_right _ (List.mem_singleton_self _))) hlast

/-- To enter a run rolls nothing back and commits nothing of the archive. -/
theorem IngestRun.enter_archive {run : IngestRun} (h : run.enter k db = .ok db') :
    Run (ArchiveStep E P) db.archive [.callerRollback k, .callerCommit k, .openRun run.dbId]
        db'.archive ∧
      db'.Usable k ∧ db'.archive.call = db.archive.call := by
  unfold IngestRun.enter at h
  split at h
  · cases h
    refine ⟨.cons (.callerRollback k) (.cons ?_ (.single (.openRun run.dbId))),
      ⟨Function.update_self .., ?_⟩, rfl⟩
    · have hstep := ArchiveStep.callerCommit (E := E) (P := P) (s := (db.connect k).archive) k
      have hopen : (db.connect k).archive.aborted (.shared k) = false := Function.update_self ..
      rw [hopen] at hstep
      exact hstep
    · exact Function.update_self ..
  · cases h

/-- **A run with a calm body is closed**, whatever its outcome, when its stats can be stored. -/
theorem ingest_run_closed_of_calm {R : RunEnv V} {run : IngestRun} {p₀ : List (ArchiveEvent C K)}
    (harchive : ArchiveRun E P p₀ db.archive)
    (hidle : ∀ c, P.conn c = some k → db.archive.call c = .idle)
    {db'' : IngestDb C K} (henter : run.enter k db = .ok db') {p : List (IngestEvent C K)}
    (hbody : Run (IngestStep E P k) db' p db'') (hcalm : ∀ e ∈ p, e.Calm P k) {stats : V}
    (hstats : R.Storable stats) (outcome : Option X) :
    run.Closed E P k outcome (run.exit R k stats outcome db'').1
      (run.exit R k stats outcome db'').2 := by
  obtain ⟨hrun, husable, hcalls⟩ := IngestRun.enter_archive (E := E) (P := P) henter
  have hkeeps : db'.archive.Sound E P ∧ db'.archive.Fresh :=
    (harchive.append hrun).preserves (I := fun _ s => s.Sound E P ∧ s.Fresh)
      ⟨Archive.sound_empty E P, fun _ => fun _ => rfl⟩
      fun _ _ _ _ _ hI hstep => ⟨hI.1.step hstep, hI.2.step hstep⟩
  have hheld : db'.Held E P k := by
    refine ⟨hkeeps.1, hkeeps.2, husable, fun c row hc => ?_⟩
    have hreturned := hc.2
    rw [hcalls, hidle c hc.1] at hreturned
    cases hreturned
  have hend := hheld.run hcalm hbody
  exact (IngestRun.closed_exit_iff ((IngestRun.enter_opens henter).stays hbody)).2
    ⟨hend.usable, hstats, hend.archived⟩

end Calm

/-! ## The same content, archived elsewhere -/

/-- The calls of a run with `{}` on its connection (`true`), and of another process. -/
def runCalls : ArchiveCalls Bool Unit where
  args _ := emptyJsonCall "json"
  conn ofRun := if ofRun then some () else none
  objectId ofRun := if ofRun then "6f1c" else "d2a7"
  objectId_injective := emptyJsonCalls.objectId_injective
  ensureBucket _ := .ok ()
  putObject _ := .ok ()

/-- An ingest run. -/
def demoRun : IngestRun := ⟨"knesset", "0c9e", 1⟩

/-- Surroundings in which stats are `{}`. -/
def demoRunEnv : RunEnv Unit :=
  ⟨fun _ => .ok "{}", fun text => if text = "{}" then some (.obj []) else none, 1714521600⟩

/-- A database without runs, and after the run is entered. -/
def emptyIngestDb : IngestDb Bool Unit where
  archive := Archive.empty Bool Unit
  runs _ := ⟨none, none⟩
  lost _ := false

def enteredIngestDb : IngestDb Bool Unit where
  archive := ((emptyIngestDb.connect ()).archive.endTransaction (.shared ())
    ((emptyIngestDb.connect ()).archive.rows.commit (.shared ()))).openRun 1
  runs := ((emptyIngestDb.connect ()).runs.insert (.shared ()) "0c9e"
    ⟨"knesset", .running, .obj [], none⟩).commit (.shared ())
  lost := Function.update (fun _ => false) () false

theorem demoRun_enter : demoRun.enter () emptyIngestDb = .ok enteredIngestDb := rfl

/-- The archival on the connection of the run. -/
def ownArchival : List (ArchiveEvent Bool Unit) := [.lookup true, .put true, .insert true]

theorem exists_ownArchival : ∃ s, Run (ArchiveStep emptyJsonEnv runCalls) enteredIngestDb.archive
    ownArchival s ∧ s.aborted (.shared ()) = false ∧
      ∀ c row, runCalls.conn c = some () → s.call c = .returned row.record →
        (s.rows (runCalls.digest emptyJsonEnv c)).view (.shared ()) = some row := by
  refine ⟨_, .cons (.lookup rfl)
    (.cons (.put (show _ = ArchivePc.missed (emptyJsonUri "json") from rfl)
        (emptyJson_put (by decide) rfl rfl))
      (.single (.insert (show _ = ArchivePc.stored (emptyJsonUri "json") from rfl) rfl
        (Cell.freeFor_unlocked (x := none)) rfl ⟨by decide, rfl⟩))), rfl, ?_⟩
  intro c row hconn hreturned
  cases c with
  | false => cases hconn
  | true =>
    have hrow : runCalls.row emptyJsonEnv true (emptyJsonUri "json") = row :=
      congrArg ArchiveRecord.toRawFetchObject (ArchivePc.returned.inj hreturned)
    rw [← hrow]
    rfl

/-- The run archives its content, and is closed. -/
theorem ingest_run_closed_single : ∃ db,
    Run (IngestStep emptyJsonEnv runCalls ()) enteredIngestDb (ownArchival.map .archive) db ∧
      demoRun.Closed emptyJsonEnv runCalls () (none : Option Unit)
        (demoRun.exit demoRunEnv () () (none : Option Unit) db).1
        (demoRun.exit demoRunEnv () () (none : Option Unit) db).2 := by
  obtain ⟨s, hrun, hopen, hheld⟩ := exists_ownArchival
  have hbody := IngestStep.of_archiveRun (k := ()) hrun (by decide) rfl
  refine ⟨_, hbody, (ingest_run_closed_iff demoRun_enter hbody () none).2 ?_⟩
  refine ⟨⟨rfl, hopen⟩, ⟨"{}", .obj [], rfl, rfl⟩, fun c row hc => hheld c row hc.1 hc.2⟩

/-- The content is archived elsewhere between the lookup and the insert of the run. -/
def overtakenArchival : List (ArchiveEvent Bool Unit) :=
  [.lookup true, .put true, .lookup false, .put false, .insert false, .commit false, .violate true]

theorem exists_overtakenArchival : ∃ s,
    Run (ArchiveStep emptyJsonEnv runCalls) enteredIngestDb.archive overtakenArchival s ∧
      s.call true = .raised .external ∧ s.aborted (.shared ()) = true := by
  refine ⟨_, .cons (.lookup rfl)
    (.cons (.put (show _ = ArchivePc.missed (emptyJsonUri "json") from rfl)
        (emptyJson_put (by decide) rfl rfl))
      (.cons (.lookup rfl)
        (.cons (.put (show _ = ArchivePc.missed (emptyJsonUri "json") from rfl)
            (emptyJson_put (by decide) rfl rfl))
          (.cons (.insert (show _ = ArchivePc.stored (emptyJsonUri "json") from rfl) rfl
              (Cell.freeFor_unlocked (x := none)) rfl ⟨by decide, rfl⟩)
            (.cons (.commit (show _ = ArchivePc.inserted
                (runCalls.row emptyJsonEnv false (emptyJsonUri "json")) from rfl))
              (.single (.violate (show _ = ArchivePc.stored (emptyJsonUri "json") from rfl)
                (by decide)
                (Or.inr ⟨Cell.freeFor_unlocked, Or.inl (Option.some_ne_none _)⟩)))))))), rfl, rfl⟩

/-- The insert fails; the run stays `running`, and what propagates is no exception of the body. -/
theorem ingest_run_stays_open : ∃ db,
    Run (IngestStep emptyJsonEnv runCalls ()) enteredIngestDb (overtakenArchival.map .archive) db ∧
      db.archive.call true = .raised .external ∧
      (demoRun.exit demoRunEnv () () (some "UniqueViolation") db).1 = some (.inr .external) ∧
      ¬demoRun.Closed emptyJsonEnv runCalls () (some "UniqueViolation")
        (demoRun.exit demoRunEnv () () (some "UniqueViolation") db).1
        (demoRun.exit demoRunEnv () () (some "UniqueViolation") db).2 := by
  obtain ⟨s, hrun, hraised, haborted⟩ := exists_overtakenArchival
  have hbody := IngestStep.of_archiveRun (k := ()) hrun (by decide) rfl
  have hfailed : ¬({ enteredIngestDb with archive := s } : IngestDb Bool Unit).Usable () := by
    simp [IngestDb.Usable, haborted]
  refine ⟨_, hbody, hraised, ?_, ?_⟩
  · simp [IngestRun.exit, demoRunEnv, hfailed]
  · have hopen := (IngestRun.enter_opens demoRun_enter).stays hbody
    exact (IngestRun.exit_fails hopen fun h => hfailed h.1).not_closed

end CivicProof
