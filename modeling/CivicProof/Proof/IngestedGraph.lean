import CivicProof.Proof.Degrade
import CivicProof.Proof.Grounded
import CivicProof.Proof.RowLimits
import CivicProof.Spec.GraphSchema

/-!
# The graph that adapters and scripts write

Whatever runs of the adapters and of the vote script write to one graph, in whatever interleaving
of their statements, with whatever crashes, refusals and repetitions, the graph keeps its schema. So
the recorded votes are texts, which compare, and the verdict engine raises on no such graph.

* `graph_schema`: every graph that is written so conforms to the schema.
* `verify_raises_review`: on such graphs `verify` raises nothing but what the review connection raised.
-/

namespace CivicProof

open PropGraph Cypher

variable {T : CypherTime} {E : IngestEnv} {g : CivicGraph}

/-! ## The schema -/

/-- **The ingested graph keeps its schema.** Every relationship joins the labels of its type, every
property is of its column's kind, no required property is null, and votes and presences are among
the texts that they may be. -/
theorem graph_schema (g : CivicGraph) (h : WrittenBy (Ingests T E) g) : Conforms civicSchema g :=
  h.conforms fun _ => Ingests.respects

/-- The graphs of whole runs are among them. -/
theorem Built.written (h : Built T E g) : WrittenBy (Ingests T E) g := by
  induction h with
  | empty => exact .empty
  | upsert _ hr iso now hp ih =>
    exact ih.run (fun s hs => Or.inl ⟨_, iso, hp.subset hs⟩) now
  | enrich _ fuel fetch maxPages dryRun now ih =>
    rw [enrichVoteBills_eq]
    exact ih

theorem sponsoredGraph_written : WrittenBy (Ingests T E) sponsoredGraph :=
  WrittenBy.empty.run (fun _ hs => Or.inl ⟨.billSponsorship _, "", hs⟩) _

/-- A sponsorship joins a person and a bill. -/
theorem graph_schema_sponsored : Conforms civicSchema sponsoredGraph :=
  graph_schema (T := noDates) (E := demoEnv) sponsoredGraph sponsoredGraph_written

/-! ## Votes compare -/

/-- A recorded vote is a text. -/
theorem recordedVote_text (h : Conforms civicSchema g) {p : String} {v : NodeKey}
    (hv : (.castVote, (.person, p), v) ∈ g.rels) :
    ∃ s ∈ ["for", "against", "abstain"], recordedVote g p v = .str s := by
  have hcolumn : Column.Admits
      { field := .value, required := true, choices := some ["for", "against", "abstain"] }
      (g.relProp (.castVote, (.person, p), v) .value) := h.relProp hv .value
  unfold recordedVote
  cases hx : g.relProp (.castVote, (.person, p), v) .value with
  | none =>
    rw [hx] at hcolumn
    cases hcolumn
  | some d =>
    rw [hx] at hcolumn
    obtain ⟨s, hs, rfl⟩ := hcolumn.2 _ rfl
    exact ⟨s, hs, rfl⟩

section Compare

variable {out : List Record} {hits : List GraphEvidence} {slots : Slots} {scope : TimeScope}

theorem not_mixesKinds (hg : Conforms civicSchema g)
    (hfrom : HitsFrom T g .voteCast (graphParams slots scope) out hits) :
    ¬MixesKinds (recordedValues hits) := by
  rw [mixesKinds_iff]
  rintro ⟨-, x, hx, hnumber⟩
  obtain ⟨⟨lo, hi, -, hids⟩, r, hr, rfl⟩ := hfrom.of_mem hx
  obtain ⟨p, b, -, -, hans⟩ := hids.of_mem hr
  obtain ⟨v, hv, rfl⟩ := hans.of_mem hr
  unfold votesCast at hv
  rw [Finset.mem_filter] at hv
  obtain ⟨s, -, hs⟩ := recordedVote_text hg hv.2.2.1
  have hvalue : voteValue (recordToEvidence .voteCast (voteCastRecord T g p b v)) = .str s := hs
  unfold recordsNumber at hnumber
  rw [hvalue] at hnumber
  cases hb : (Value.str s).truthy <;> rw [hb] at hnumber <;> cases hnumber

end Compare

/-! ## The pipeline -/

section Pipeline

variable {σ : Type} {P : VerifyPipeline σ} {env : Env} {driver : GraphDriver σ}
  {graphOf : σ → CivicGraph}

/-- The review connection raises `e` at the turn of a claim: on the conflict task for the verdict on
what the turn finds, in the world that its retrieval leaves. -/
def VerifyPipeline.ReviewRaises (P : VerifyPipeline σ) (env : Env) (claim : DecomposedClaim) (u : σ)
    (e : PyError) (s' : σ) : Prop :=
  ∃ r w rows found w' outcome conn, P.Finds env claim u r w rows found w' ∧
    decideVerdict (inputsOf env claim r (rankedOf env claim r rows found)) = .ok outcome ∧
    ConflictDue outcome (rankedOf env claim r rows found) ∧ P.reviewConnection = some conn ∧
    conn ⟨claim.claimId, outcome, 10⟩ w' = (.error e, s')

/-- The run of a claim raises only where the conflict task does. -/
theorem verifyClaim_raises (hdriver : AnswersFrom T driver graphOf)
    (hgraph : P.graph = some driver.retrieve) (hwritten : ∀ s, WrittenBy (Ingests T E) (graphOf s))
    {claim : DecomposedClaim} {u s' : σ} {e : PyError}
    (h : P.verifyClaim env claim u = (.error e, s')) : P.ReviewRaises env claim u e s' := by
  obtain ⟨r, w, rows, found, w', hfinds⟩ := VerifyPipeline.exists_finds P env claim u
  obtain ⟨out, hfrom⟩ := hdriver.hits hgraph hfinds
  rw [VerifyPipeline.verifyClaim_eq hfinds.resolved hfinds.ranked] at h
  cases hdec : decideVerdict (VerifyPipeline.inputsOf env claim r
      (VerifyPipeline.rankedOf env claim r rows found)) with
  | error e' =>
    exfalso
    obtain ⟨-, -, hct, expected, -, -, hmix⟩ := (decideVerdict_error_iff rfl).1 ⟨e', hdec⟩
    have hct' : claim.claimType = .voteCast := hct
    rw [hct'] at hfrom
    exact not_mixesKinds (graph_schema _ (hwritten _)) hfrom (hct' ▸ hmix)
  | ok outcome =>
    rw [hdec] at h
    dsimp only at h
    unfold VerifyPipeline.review at h
    cases hconn : P.reviewConnection with
    | none =>
      rw [hconn] at h
      cases h
    | some conn =>
      rw [hconn] at h
      dsimp only at h
      by_cases hdue : VerifyPipeline.ConflictDue outcome
          (VerifyPipeline.rankedOf env claim r rows found)
      · rw [VerifyPipeline.maybeOpenConflictTask_due hdue] at h
        rcases hcall : conn ⟨claim.claimId, outcome, 10⟩ w' with ⟨e' | u', s₃⟩
        · rw [hcall] at h
          cases h
          exact ⟨r, w, rows, found, w', outcome, conn, hfinds, hdec, hdue, hconn, hcall⟩
        · rw [hcall] at h
          cases h
      · rw [VerifyPipeline.maybeOpenConflictTask_not_due hdue] at h
        cases h

/-- **On ingested graphs `verify` raises nothing of its own**: whatever the statement, the resolver
and the index, and whoever writes to the graph between the queries, an exception of `verify` is one
that the review connection raised at the turn of a claim, on the conflict task of its verdict, after
the turns before it had ended normally. -/
theorem verify_raises_review (hdriver : AnswersFrom T driver graphOf)
    (hgraph : P.graph = some driver.retrieve) (hwritten : ∀ s, WrittenBy (Ingests T E) (graphOf s))
    {statement : String} {language : Option Language} {s s' : σ} {e : PyError}
    (h : P.verify env statement language s = (.error e, s')) :
    ∃ before turn after, P.claimTurns env statement language s = before ++ turn :: after ∧
      (∀ t ∈ before, Eff.Ends (P.verifyClaim env) t) ∧
      P.ReviewRaises env turn.1 turn.2 e s' := by
  rw [VerifyPipeline.verify_eq] at h
  obtain ⟨before, turn, after, hturns, hends, hraises⟩ := Eff.collect_raises h
  exact ⟨before, turn, after, hturns, hends, verifyClaim_raises hdriver hgraph hwritten hraises⟩

end Pipeline

/-! ## Two votes of one person on one bill -/

/-- The instants of three texts, in seconds. -/
def voteTime : CypherTime where
  datetime s := [("2020-01-01T00:00:00+00:00", 1577836800), ("2020-06-03T12:00:00", 1591185600),
    ("2020-12-31T23:59:59+00:00", 1609459199)].lookup s
  text t := toString t

/-- A vote of the person, linked to the bill. -/
def voteStatements (vote value : String) : List CivicStmt :=
  upsertVote voteTime
    { voteEventId := "knesset_vote:" ++ vote
      billId := none
      occurredAt := some "2020-06-03T12:00:00"
      voteType := none
      castVotes := [⟨"p1", value⟩] } ++
    [voteEventAboutBill voteTime ("knesset_vote:" ++ vote) "knesset_bill:5" none none]

/-- The graph in which the person voted for the bill, and against it. -/
def conflictGraph : CivicGraph :=
  run (fun _ => 0) (billUpsert "knesset_bill:5" none none none none none ::
    voteStatements "1" "for" ++ voteStatements "2" "against") ∅

theorem conflictGraph_written : WrittenBy (Ingests voteTime demoEnv) conflictGraph := by
  have hvote : ∀ vote value s, s ∈ upsertVote voteTime
      { voteEventId := "knesset_vote:" ++ vote, billId := none,
        occurredAt := some "2020-06-03T12:00:00", voteType := none,
        castVotes := [⟨"p1", value⟩] } → Ingests voteTime demoEnv s :=
    fun _ _ _ hs => Or.inl ⟨.vote _, "", hs⟩
  refine WrittenBy.empty.run (List.forall_mem_cons.2 ⟨?_, List.forall_mem_append.2 ⟨?_, ?_⟩⟩) _
  · exact Or.inl ⟨.billSponsorship { billId := "knesset_bill:5", personId := "p1" }, "",
      .tail _ List.mem_cons_self⟩
  · refine List.forall_mem_append.2 ⟨hvote "1" "for", List.forall_mem_singleton.2 (Or.inr ?_)⟩
    exact ⟨⟨some 1, some 5, none, none⟩, rfl⟩
  · refine List.forall_mem_append.2 ⟨hvote "2" "against", List.forall_mem_singleton.2 (Or.inr ?_)⟩
    exact ⟨⟨some 2, some 5, none, none⟩, rfl⟩

def conflictVotes : List NodeKey :=
  [(.voteEvent, "knesset_vote:1"), (.voteEvent, "knesset_vote:2")]

/-- A driver that answers one query and refuses the others. -/
def conflictDriver : GraphDriver Unit where
  openSession := pure ()
  closeSession := pure ()
  run ct params :=
    if ct = .voteCast ∧ params.read (.slot .speakerPersonId) = some "p1" ∧
        params.read (.slot .billId) = some "knesset_bill:5" ∧
        params.read .timeStart = some "2020-01-01T00:00:00+00:00" ∧
        params.read .timeEnd = some "2020-12-31T23:59:59+00:00" then
      pure (conflictVotes.map (voteCastRecord voteTime conflictGraph "p1" "knesset_bill:5"))
    else Eff.raise .external

theorem conflictVotes_ordered :
    Ordered (descending fun v => instantKey (conflictGraph.nodeProp v .occurredAt))
      (votesCast conflictGraph "p1" "knesset_bill:5" (some 1577836800) (some 1609459199)).val
        conflictVotes := by
  constructor <;> decide +kernel

theorem conflictDriver_answers :
    AnswersFrom voteTime conflictDriver fun _ => conflictGraph := by
  intro ct params s out s' h
  unfold conflictDriver at h
  dsimp only at h
  split_ifs at h with hquery
  · obtain ⟨rfl, hp, hb, hstart, hstop⟩ := hquery
    cases h
    refine ⟨some 1577836800, some 1609459199, ⟨by rw [hstart]; rfl, by rw [hstop]; rfl⟩, ?_⟩
    unfold ByIds
    rw [hp, hb]
    exact ⟨conflictVotes, ⟨conflictVotes, conflictVotes_ordered, rfl⟩, rfl⟩
  · cases h

/-- The resolver knows the person and the bill, and the review queue is down. -/
def conflictPipeline : VerifyPipeline Unit where
  graph := some conflictDriver.retrieve
  resolver := some fun _ => pure
    { slotStatuses := fun _ => some .resolved
      resolvedSlots := fun slot => match slot with
        | .speakerPersonId => some "p1"
        | .billId => some "knesset_bill:5"
        | _ => none }
  reviewConnection := some fun _ => Eff.raise .validationError

theorem conflictPipeline_run :
    ((conflictPipeline.verify plainEnv "Dana Levi voted for the water bill in 2020" (some .en) ()).1.map
      List.length) = .error .validationError := by
  decide +kernel

/-- What `verify` raises there came from the review connection. -/
theorem verify_raises_conflict : ∃ e s',
    conflictPipeline.verify plainEnv "Dana Levi voted for the water bill in 2020" (some .en) () =
      (.error e, s') ∧ ∃ before turn after,
        conflictPipeline.claimTurns plainEnv "Dana Levi voted for the water bill in 2020" (some .en)
          () = before ++ turn :: after ∧
        (∀ t ∈ before, Eff.Ends (conflictPipeline.verifyClaim plainEnv) t) ∧
        conflictPipeline.ReviewRaises plainEnv turn.1 turn.2 e s' := by
  have hrun := conflictPipeline_run
  rcases hv : conflictPipeline.verify plainEnv "Dana Levi voted for the water bill in 2020"
    (some .en) () with ⟨e | bundles, s'⟩ <;> rw [hv] at hrun
  · exact ⟨e, s', rfl, verify_raises_review conflictDriver_answers rfl
      (fun _ => conflictGraph_written) hv⟩
  · cases hrun

end CivicProof
