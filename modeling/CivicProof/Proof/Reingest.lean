import CivicProof.Spec.Adapters

/-!
# Re-ingest

The adapters write a record in several transactions and start over after a crash.

* `reingest_idempotent`: what a crashed run has written makes no difference to the run that
  follows it.
-/

namespace CivicProof

open PropGraph Cypher

/-- The statements of a sequence of records. -/
def ingestStatements (T : CypherTime) (nowIso : String) (u : List IngestRecord) : List CivicStmt :=
  u.flatMap (IngestRecord.statements T nowIso)

variable {T : CypherTime} {E : IngestEnv}

theorem SelfContained.flatMap {α : Type} {l : List α} {f : α → List CivicStmt}
    (h : ∀ a ∈ l, SelfContained (f a)) : SelfContained (l.flatMap f) where
  closed := closed_flatMap fun a ha => (h a ha).closed
  regular := List.forall_mem_flatMap.2 fun a ha => (h a ha).regular

theorem ingestStatements_selfContained {u : List IngestRecord} (hu : ∀ r ∈ u, r.Normalized E)
    (nowIso : String) : SelfContained (ingestStatements T nowIso u) :=
  SelfContained.flatMap fun r hr => (hu r hr).selfContained nowIso

/-- The clock is read for no normalized record. -/
theorem IngestRecord.Normalized.statements_eq {r : IngestRecord} (h : r.Normalized E)
    (nowIso nowIso' : String) : r.statements T nowIso = r.statements T nowIso' := by
  cases r with
  | person r =>
    obtain ⟨row, hr⟩ := h
    obtain rfl := List.mem_singleton.1 hr
    rfl
  | committee r =>
    obtain ⟨row, hr⟩ := h
    obtain rfl := List.mem_singleton.1 hr
    rfl
  | _ => rfl

theorem ingestStatements_eq {u : List IngestRecord} (hu : ∀ r ∈ u, r.Normalized E)
    (nowIso nowIso' : String) : ingestStatements T nowIso u = ingestStatements T nowIso' u :=
  List.flatMap_congr fun r hr => (hu r hr).statements_eq nowIso nowIso'

/-- **Re-ingest after a crash is idempotent.** A run of any sequence of normalized records,
after a run of it that stopped between any two of its statements, leaves the data it leaves
without that crashed run, on every initial graph and at all times. -/
theorem reingest_idempotent (u : List IngestRecord) (hu : ∀ r ∈ u, r.Normalized E)
    (g : CivicGraph) (iso₁ iso₂ iso₃ : String) (now₁ now₂ now₃ : ℕ → ℤ) :
    (∀ p, p <+: ingestStatements T iso₁ u →
      (run now₂ (ingestStatements T iso₂ u) (run now₁ p g)).SameData
        (run now₃ (ingestStatements T iso₃ u) g)) ∧
      (run now₂ (ingestStatements T iso₂ u) (run now₁ (ingestStatements T iso₁ u) g)).SameData
        (run now₃ (ingestStatements T iso₃ u) g) := by
  have hself : SelfContained (ingestStatements T iso₁ u) := ingestStatements_selfContained hu iso₁
  have hclosed : Closed (· ∈ g.nodes) (ingestStatements T iso₁ u) :=
    hself.closed.mono fun n hn => hn.elim
  have hcrash : ∀ p, p <+: ingestStatements T iso₁ u →
      (run now₂ (ingestStatements T iso₂ u) (run now₁ p g)).SameData
        (run now₃ (ingestStatements T iso₃ u) g) := by
    intro p hp
    rw [ingestStatements_eq hu iso₂ iso₁, ingestStatements_eq hu iso₃ iso₁]
    exact run_replay hself.regular hclosed hp now₁ now₂ now₃
  exact ⟨hcrash, hcrash _ (List.prefix_refl _)⟩

/-! ## A position row whose run crashes after the office -/

/-- Collaborators of the normalizers that compute. -/
def demoEnv : IngestEnv where
  unicode := ⟨id, id, fun c => c.isAlphanum⟩
  uuid5 := id
  lookup := some
  voteShare := fun _ => 0
  thresholdVotes := id

/-- The instants of a few texts, in seconds. -/
def demoTime : CypherTime where
  datetime s := [("2019-04-30T00:00:00", 1556582400), ("2020-12-22T00:00:00", 1608595200),
    ("2021-03-23T00:00:00", 1616457600), ("2022-11-01T00:00:00", 1667260800),
    ("2022-11-15T00:00:00", 1668470400)].lookup s
  text t := toString t

def ministerRow : PositionRow where
  personToPositionIdExternal := "17"
  personIdExternal := "965"
  positionId := some 49
  govMinistryId := some "8"
  govMinistryName := some "Health"
  startDate := some "2020-12-22T00:00:00"
  finishDate := some "2022-11-15T00:00:00"

theorem reingest_minister :
    ∃ r, (IngestRecord.position r).Normalized demoEnv ∧
      (run (fun _ => 2) (ingestStatements demoTime "" [.position r])
        (run (fun _ => 1) ((ingestStatements demoTime "" [.position r]).take 2) ∅)).SameData
          (run (fun _ => 3) (ingestStatements demoTime "" [.position r]) ∅) := by
  have hmem : ∃ r, r ∈ normalizePosition demoEnv ministerRow :=
    List.exists_mem_of_ne_nil _ (by decide)
  obtain ⟨r, hr⟩ := hmem
  have hu : ∀ r' ∈ [IngestRecord.position r], r'.Normalized demoEnv :=
    List.forall_mem_singleton.2 ⟨ministerRow, hr⟩
  exact ⟨r, ⟨ministerRow, hr⟩,
    (reingest_idempotent _ hu ∅ "" "" "" _ _ _).1 _ (List.take_prefix ..)⟩

end CivicProof
