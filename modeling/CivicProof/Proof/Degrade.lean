import CivicProof.Proof.Confidence
import CivicProof.Proof.Pipeline

/-!
# Degradation of the pipeline

What a failing collaborator does to `verify`. The resolver and the retrievers are caught; the
review connection is not, and neither is a comparison of vote values that do not compare.

* `decideVerdict_error_iff`: when the engine raises on reranked evidence.
* `verifyClaim_degraded`: where nothing uncaught raises, a claim's run is the run of the pipeline
  whose failing calls are replaced.
* `verify_degrades`: `verify` degrades exactly in the runs in which nothing uncaught raises.
-/

namespace CivicProof

/-! ## When the engine raises -/

/-- Among the recorded vote values are texts, and values that are none (neither of them empty). -/
def MixesKinds (recorded : List Value) : Prop :=
  (∃ v ∈ recorded, v.truthy = true ∧ v.text? ≠ none) ∧
    ∃ v ∈ recorded, v.truthy = true ∧ v.text? = none

theorem sortedTruthy_error_iff {recorded : List Value} :
    (∃ e, sortedTruthy recorded = .error e) ↔ MixesKinds recorded := by
  have htexts : (recorded.filter Value.truthy).filterMap Value.text? ≠ [] ↔
      ∃ v ∈ recorded, v.truthy = true ∧ v.text? ≠ none := by
    rw [ne_eq, List.filterMap_eq_nil_iff]
    simp only [List.mem_filter, not_forall, exists_prop, and_assoc, ne_eq]
  -- a value that is no text and not empty is a number
  have hint : ∀ v : Value, v.truthy = true ∧ v.text? = none → v.toInt ≠ none := by
    intro v
    cases v <;> simp [Value.truthy, Value.text?, Value.toInt]
  have hnumbers : ((recorded.filter Value.truthy).filter fun v => v.text? = none).filterMap
      Value.toInt ≠ [] ↔ ∃ v ∈ recorded, v.truthy = true ∧ v.text? = none := by
    rw [ne_eq, List.filterMap_eq_nil_iff]
    simp only [List.mem_filter, not_forall, exists_prop, and_assoc, decide_eq_true_iff]
    constructor
    · rintro ⟨v, hv, ht, hn, -⟩
      exact ⟨v, hv, ht, hn⟩
    · rintro ⟨v, hv, ht, hn⟩
      exact ⟨v, hv, ht, hn, hint v ⟨ht, hn⟩⟩
  unfold sortedTruthy MixesKinds
  dsimp only
  rw [← htexts, ← hnumbers]
  split
  · exact ⟨fun _ => ‹_›, fun _ => ⟨_, rfl⟩⟩
  · constructor
    · rintro ⟨e, he⟩
      cases he
    · exact fun h => absurd h ‹_›

/-- The vote values found for a claim do not contain the expected one, and do not compare. -/
structure Incomparable (inputs : VerdictInputs) : Prop where
  checkability : inputs.checkability = .checkable
  confident : ∃ confidence, PassesThreshold inputs confidence
  claimType : inputs.claimType = .voteCast
  votes : ∃ expected, inputs.expectedVoteValue = some expected ∧
    .str expected ∉ recordedValues (graphHits .voteCast inputs.rankedEvidence) ∧
    MixesKinds (recordedValues (graphHits .voteCast inputs.rankedEvidence))

theorem compareVoteCast_error_iff {expected : Option String} {hits : List GraphEvidence} :
    (∃ e, compareVoteCast expected hits = .error e) ↔ ∃ x, expected = some x ∧
      .str x ∉ recordedValues hits ∧ MixesKinds (recordedValues hits) := by
  unfold compareVoteCast
  by_cases hne : hits = []
  · subst hne
    rw [if_pos rfl]
    constructor
    · rintro ⟨e, he⟩
      cases he
    · rintro ⟨x, -, -, ⟨v, hv, -⟩, -⟩
      cases hv
  rw [if_neg hne]
  cases expected with
  | none =>
    constructor
    · rintro ⟨e, he⟩
      cases he
    · rintro ⟨x, hx, -⟩
      cases hx
  | some x =>
    dsimp only
    by_cases hmem : .str x ∈ recordedValues hits
    · -- the expected value is there: support, or a mixed record
      have hcase : recordedValues hits = [.str x] ∨ 1 < (recordedValues hits).length := by
        rcases hr : recordedValues hits with _ | ⟨v, _ | ⟨w, l⟩⟩
        · rw [hr] at hmem
          cases hmem
        · rw [hr, List.mem_singleton] at hmem
          exact Or.inl (by rw [hmem])
        · exact Or.inr (by simp)
      constructor
      · rintro ⟨e, he⟩
        split at he
        · cases he
        · rename_i hone
          rw [if_pos ⟨hmem, hcase.resolve_left hone⟩] at he
          cases he
      · rintro ⟨y, hy, hnot, -⟩
        cases hy
        exact absurd hmem hnot
    · have hone : recordedValues hits ≠ [.str x] := fun h => hmem (h ▸ List.mem_singleton_self _)
      rw [if_neg hone, if_neg fun h => hmem h.1]
      cases hs : sortedTruthy (recordedValues hits) with
      | error e =>
        exact ⟨fun _ => ⟨x, rfl, hmem, sortedTruthy_error_iff.1 ⟨e, hs⟩⟩, fun _ => ⟨e, rfl⟩⟩
      | ok l =>
        constructor
        · rintro ⟨e, he⟩
          cases he
        · rintro ⟨_, -, -, hmix⟩
          obtain ⟨e, he⟩ := sortedTruthy_error_iff.2 hmix
          rw [hs] at he
          cases he

/-- **When the engine raises**, on reranked evidence. -/
theorem decideVerdict_error_iff {inputs : VerdictInputs} {evidences : List Evidence}
    {scope : Option TimeScope} {ids : Dict String}
    (hr : inputs.rankedEvidence = rerank evidences inputs.claimType scope ids) :
    (∃ e, decideVerdict inputs = .error e) ↔ Incomparable inputs := by
  obtain ⟨confidence, hconf, -⟩ := computeConfidence_rerank evidences inputs.claimType scope ids
  rw [← hr] at hconf
  by_cases hc : inputs.checkability = .checkable
  · by_cases hp : PassesThreshold inputs confidence
    · rw [decideVerdict_passes hc hp]
      have hmap : (∃ e, (compare inputs (graphHits inputs.claimType inputs.rankedEvidence)
          (lexCorroborations inputs.rankedEvidence)).map
            (comparisonOutcome confidence (graphHits inputs.claimType inputs.rankedEvidence)) =
            .error e) ↔ ∃ e, compare inputs (graphHits inputs.claimType inputs.rankedEvidence)
          (lexCorroborations inputs.rankedEvidence) = .error e := by
        cases compare inputs (graphHits inputs.claimType inputs.rankedEvidence)
          (lexCorroborations inputs.rankedEvidence) <;> simp [Except.map]
      rw [hmap]
      constructor
      · rintro ⟨e, he⟩
        have hct : inputs.claimType = .voteCast := by
          unfold compare at he
          split at he <;> first | assumption | cases he
        refine ⟨hc, ⟨confidence, hp⟩, hct, compareVoteCast_error_iff.1 ⟨e, ?_⟩⟩
        rw [compare, hct] at he
        exact he
      · intro h
        obtain ⟨e, he⟩ := compareVoteCast_error_iff.2 h.votes
        refine ⟨e, ?_⟩
        rw [compare, h.claimType]
        exact he
    · obtain ⟨o, ho, -⟩ := decideVerdict_below hc hconf hp
      constructor
      · rintro ⟨e, he⟩
        rw [ho] at he
        cases he
      · rintro ⟨-, ⟨c', hp'⟩, -⟩
        have hcc : c' = confidence := Except.ok.inj (hp'.computed.symm.trans hconf)
        exact absurd (hcc ▸ hp') hp
  · constructor
    · rintro ⟨e, he⟩
      unfold decideVerdict at he
      rw [if_pos hc] at he
      cases he
    · exact fun h => absurd h.checkability hc

/-! ## The pipeline without failures -/

namespace VerifyPipeline

variable {σ : Type} {P : VerifyPipeline σ} {env : Env} {claim : DecomposedClaim} {s : σ}

/-- A connection whose calls that would raise are not made. -/
def skipFailing (conn : ConflictTask → Eff σ Unit) (task : ConflictTask) : Eff σ Unit := fun t =>
  match conn task t with
  | (.ok u, t') => (.ok u, t')
  | (.error _, _) => (.ok (), t)

/-- The pipeline in which a call of a retriever that raises returns no evidence, and a call of the
review connection that raises is not made. -/
def degraded (P : VerifyPipeline σ) : VerifyPipeline σ :=
  { P with
    graph := P.graph.map fun g ct params => Eff.orElse (g ct params) (pure [])
    lexical := P.lexical.map fun l text => Eff.orElse (l text) (pure [])
    reviewConnection := P.reviewConnection.map skipFailing }

theorem orElse_pure_orElse {α : Type} (x : Eff σ α) (d : α) :
    Eff.orElse (Eff.orElse x (pure d)) (pure d) = Eff.orElse x (pure d) := by
  funext t
  obtain ⟨a, t', h⟩ := orElse_pure x d t
  rw [Eff.orElse, h]

theorem orEmpty_guarded {α β : Type} (call : Option (β → Eff σ (List α))) (b : β) :
    orEmpty ((call.map fun f b => Eff.orElse (f b) (pure [])).map fun f => f b) =
      orEmpty (call.map fun f => f b) := by
  cases call with
  | none => rfl
  | some f => exact orElse_pure_orElse _ _

theorem degraded_retrieve {slots : Slots} {scope : TimeScope} :
    P.degraded.retrieve claim slots scope = P.retrieve claim slots scope := by
  have hgraph : orEmpty (P.degraded.graph.map fun g => g claim.claimType (graphParams slots scope)) =
      orEmpty (P.graph.map fun g => g claim.claimType (graphParams slots scope)) := by
    unfold degraded
    cases P.graph with
    | none => rfl
    | some g => exact orElse_pure_orElse _ _
  unfold retrieve
  rw [hgraph]
  have hlex : orEmpty (P.degraded.lexical.map fun l => l claim.normalizedText) =
      orEmpty (P.lexical.map fun l => l claim.normalizedText) := orEmpty_guarded _ _
  rw [hlex]

/-- The verdict asks for a conflict task: it is mixed, with a Tier-1 item among the evidence. -/
def ConflictDue (outcome : VerdictOutcome) (ranked : List RerankScore) : Prop :=
  outcome.status = .mixed ∧ ∃ r ∈ ranked, r.evidence.sourceTier = 1

/-- Nothing that is not caught raises in the run of a claim: the vote values that are found
compare, and a conflict task that is due is opened. -/
def Clean (P : VerifyPipeline σ) (env : Env) (claim : DecomposedClaim) (s : σ) : Prop :=
  ∀ r s₁ ranked s₂, P.resolveClaim claim s = (.ok r, s₁) →
    P.retrieve claim r.resolvedSlots (scopeOf env claim) s₁ = (.ok ranked, s₂) →
    ¬Incomparable (inputsOf env claim r ranked) ∧
    ∀ o conn, decideVerdict (inputsOf env claim r ranked) = .ok o → ConflictDue o ranked →
      P.reviewConnection = some conn → ∃ s₃, conn ⟨claim.claimId, o, 10⟩ s₂ = (.ok (), s₃)

/-- The last step of a claim's run: the conflict task. -/
def review (P : VerifyPipeline σ) (claim : DecomposedClaim) (o : VerdictOutcome)
    (ranked : List RerankScore) : Eff σ Unit :=
  match P.reviewConnection with
  | some conn => maybeOpenConflictTask conn claim.claimId o ranked
  | none => pure ()

theorem maybeOpenConflictTask_due {conn : ConflictTask → Eff σ Unit} {id : String}
    {o : VerdictOutcome} {ranked : List RerankScore} (h : ConflictDue o ranked) :
    maybeOpenConflictTask conn id o ranked = conn ⟨id, o, 10⟩ := by
  obtain ⟨hmixed, r, hr, ht⟩ := h
  have hpos : ¬ranked.countP (fun r => r.evidence.sourceTier = 1) < 1 := by
    rw [Nat.lt_one_iff, List.countP_eq_zero]
    exact fun hall => hall r hr (decide_eq_true ht)
  rw [maybeOpenConflictTask, if_neg (not_not.2 hmixed), if_neg hpos]

theorem maybeOpenConflictTask_not_due {conn : ConflictTask → Eff σ Unit} {id : String}
    {o : VerdictOutcome} {ranked : List RerankScore} (h : ¬ConflictDue o ranked) :
    maybeOpenConflictTask conn id o ranked = pure () := by
  unfold maybeOpenConflictTask
  split
  · rfl
  · rename_i hmixed
    rw [if_pos]
    rw [Nat.lt_one_iff, List.countP_eq_zero]
    exact fun r hr ht => h ⟨not_not.1 hmixed, r, hr, of_decide_eq_true ht⟩

/-- **The run of a claim**, from its resolution and its evidence on. -/
theorem verifyClaim_eq {r : ResolutionResult} {ranked : List RerankScore} {s₁ s₂ : σ}
    (hr : P.resolveClaim claim s = (.ok r, s₁))
    (hranked : P.retrieve claim r.resolvedSlots (scopeOf env claim) s₁ = (.ok ranked, s₂)) :
    P.verifyClaim env claim s = match decideVerdict (inputsOf env claim r ranked) with
      | .error e => (.error e, s₂)
      | .ok o => match P.review claim o ranked s₂ with
        | (.error e, s₃) => (.error e, s₃)
        | (.ok _, s₃) => (.ok (bundleProvenance o ranked claim (scopeOf env claim)
            (checkabilityOf claim r (scopeOf env claim))), s₃) := by
  unfold verifyClaim
  rw [Eff.bind_of_ok hr]
  dsimp only
  rw [Eff.bind_of_ok hranked, Eff.bind_apply]
  unfold Eff.lift
  cases decideVerdict (inputsOf env claim r ranked) with
  | error e => rfl
  | ok o =>
    dsimp only
    unfold review
    cases P.reviewConnection with
    | none => rfl
    | some conn =>
      dsimp only
      rw [Eff.bind_apply]
      rcases maybeOpenConflictTask conn claim.claimId o ranked s₂ with ⟨_ | _, s₃⟩ <;> rfl

/-- The resolution and the evidence of a claim, which always exist. -/
theorem exists_evidence (P : VerifyPipeline σ) (env : Env) (claim : DecomposedClaim) (s : σ) :
    ∃ r s₁ ranked s₂, P.resolveClaim claim s = (.ok r, s₁) ∧
      P.retrieve claim r.resolvedSlots (scopeOf env claim) s₁ = (.ok ranked, s₂) ∧
      ((∃ e, decideVerdict (inputsOf env claim r ranked) = .error e) ↔
        Incomparable (inputsOf env claim r ranked)) := by
  obtain ⟨r, s₁, hr⟩ := resolveClaim_total P claim s
  obtain ⟨G, L, _, s₂, -, -, hranked⟩ :=
    retrieve_total P claim r.resolvedSlots (scopeOf env claim) s₁
  exact ⟨r, s₁, _, s₂, hr, hranked, decideVerdict_error_iff rfl⟩

/-- The review step ends normally unless a conflict task is due and its insert raises. -/
theorem review_ok_iff {o : VerdictOutcome} {ranked : List RerankScore} {t : σ} :
    (∃ t', P.review claim o ranked t = (.ok (), t')) ↔ ∀ conn, ConflictDue o ranked →
      P.reviewConnection = some conn → ∃ t', conn ⟨claim.claimId, o, 10⟩ t = (.ok (), t') := by
  unfold review
  cases P.reviewConnection with
  | none => exact ⟨fun _ _ _ h => absurd h.symm (Option.some_ne_none _), fun _ => ⟨t, rfl⟩⟩
  | some conn =>
    dsimp only
    by_cases hdue : ConflictDue o ranked
    · rw [maybeOpenConflictTask_due hdue]
      constructor
      · rintro h conn' - hconn
        rwa [← Option.some.inj hconn]
      · exact fun h => h conn hdue rfl
    · rw [maybeOpenConflictTask_not_due hdue]
      exact ⟨fun _ _ h => absurd h hdue, fun _ => ⟨t, rfl⟩⟩

/-- A claim's run ends normally exactly if nothing uncaught raises in it. -/
theorem ends_iff_clean : Eff.Ends (P.verifyClaim env) (claim, s) ↔ P.Clean env claim s := by
  obtain ⟨r, s₁, ranked, s₂, hr, hranked, herr⟩ := exists_evidence P env claim s
  have hclean : P.Clean env claim s ↔ ¬Incomparable (inputsOf env claim r ranked) ∧
      ∀ o, decideVerdict (inputsOf env claim r ranked) = .ok o →
        ∃ s₃, P.review claim o ranked s₂ = (.ok (), s₃) := by
    constructor
    · intro h
      obtain ⟨hcomp, hreview⟩ := h r s₁ ranked s₂ hr hranked
      exact ⟨hcomp, fun o ho => review_ok_iff.2 fun conn => hreview o conn ho⟩
    · rintro ⟨hcomp, hreview⟩ r' s₁' ranked' s₂' hr' hranked'
      obtain ⟨hrr, rfl⟩ := Prod.mk.inj (hr.symm.trans hr')
      obtain rfl := Except.ok.inj hrr
      obtain ⟨hrk, rfl⟩ := Prod.mk.inj (hranked.symm.trans hranked')
      obtain rfl := Except.ok.inj hrk
      exact ⟨hcomp, fun o conn ho => review_ok_iff.1 (hreview o ho) conn⟩
  rw [hclean, ← herr, Eff.Ends]
  dsimp only
  rw [verifyClaim_eq hr hranked]
  cases decideVerdict (inputsOf env claim r ranked) with
  | error e =>
    constructor
    · rintro ⟨b, s', h⟩
      cases h
    · exact fun h => absurd ⟨e, rfl⟩ h.1
  | ok o =>
    dsimp only
    constructor
    · rintro ⟨b, s', h⟩
      refine ⟨?_, ?_⟩
      · rintro ⟨e, he⟩
        cases he
      · rintro o' ho'
        cases ho'
        rcases hrev : P.review claim o ranked s₂ with ⟨_ | _, s₃⟩
        · rw [hrev] at h
          cases h
        · exact ⟨s₃, rfl⟩
    · intro h
      obtain ⟨s₃, hrev⟩ := h.2 o rfl
      rw [hrev]
      exact ⟨_, s₃, rfl⟩

theorem degraded_review {o : VerdictOutcome} {ranked : List RerankScore} {t t' : σ}
    (h : P.review claim o ranked t = (.ok (), t')) :
    P.degraded.review claim o ranked t = (.ok (), t') := by
  unfold review degraded at *
  cases hconn : P.reviewConnection with
  | none =>
    rw [hconn] at h
    exact h
  | some conn =>
    rw [hconn] at h
    dsimp only [Option.map_some] at h ⊢
    by_cases hdue : ConflictDue o ranked
    · rw [maybeOpenConflictTask_due hdue] at h ⊢
      rw [skipFailing, h]
    · rw [maybeOpenConflictTask_not_due hdue] at h ⊢
      exact h

/-- **Where nothing uncaught raises, nothing has to be replaced.** -/
theorem verifyClaim_degraded (h : P.Clean env claim s) :
    P.verifyClaim env claim s = P.degraded.verifyClaim env claim s := by
  obtain ⟨r, s₁, ranked, s₂, hr, hranked, -⟩ := exists_evidence P env claim s
  have hranked' : P.degraded.retrieve claim r.resolvedSlots (scopeOf env claim) s₁ =
      (.ok ranked, s₂) := by rw [degraded_retrieve, hranked]
  rw [verifyClaim_eq hr hranked, verifyClaim_eq (P := P.degraded) hr hranked']
  cases ho : decideVerdict (inputsOf env claim r ranked) with
  | error e => rfl
  | ok o =>
    obtain ⟨s₃, hrev⟩ := review_ok_iff.2 fun conn => (h r s₁ ranked s₂ hr hranked).2 o conn ho
    dsimp only
    rw [hrev, degraded_review hrev]

/-! ## Runs -/

/-- The claims of a run of the pipeline without failures, each with the world in which its turn
comes. -/
def turns (P : VerifyPipeline σ) (env : Env) (statement : String) (language : Option Language)
    (s : σ) : List (DecomposedClaim × σ) :=
  Eff.turns (P.degraded.verifyClaim env)
    (decompose env.uuid4 none statement (language.getD P.defaultLanguage)).claims s

/-- A run degrades: it ends normally with one bundle for each claim, in their order, and with the
verdicts of the pipeline without failures. -/
def Degrades (P : VerifyPipeline σ) (env : Env) (statement : String) (language : Option Language)
    (s : σ) : Prop :=
  ∃ bundles s', P.verify env statement language s = (.ok bundles, s') ∧
    bundles.map (·.claim) =
      (decompose env.uuid4 none statement (language.getD P.defaultLanguage)).claims ∧
    ∃ bundles' s'', P.degraded.verify env statement language s = (.ok bundles', s'') ∧
      bundles.map (·.outcome) = bundles'.map (·.outcome)

/-- The turns of a run in which nothing uncaught raises are those of the run without failures. -/
theorem turns_eq {claims : List DecomposedClaim}
    (h : (∀ t ∈ Eff.turns (P.verifyClaim env) claims s, P.Clean env t.1 t.2) ∨
      ∀ t ∈ Eff.turns (P.degraded.verifyClaim env) claims s, P.Clean env t.1 t.2) :
    Eff.turns (P.verifyClaim env) claims s = Eff.turns (P.degraded.verifyClaim env) claims s := by
  rcases h with h | h
  · exact Eff.turns_congr fun t ht => congrArg Prod.snd (verifyClaim_degraded (h t ht))
  · exact (Eff.turns_congr fun t ht => congrArg Prod.snd (verifyClaim_degraded (h t ht)).symm).symm

/-- **`verify` ends normally** exactly if nothing uncaught raises in its run. -/
theorem verify_ok_iff {statement : String} {language : Option Language} :
    (∃ bundles s', P.verify env statement language s = (.ok bundles, s')) ↔
      ∀ t ∈ P.turns env statement language s, P.Clean env t.1 t.2 := by
  rw [verify_eq, Eff.collect_ok_iff]
  unfold turns
  constructor
  · intro h
    have hclean := fun t ht => ends_iff_clean.1 (h t ht)
    rwa [← turns_eq (Or.inl hclean)]
  · intro hclean
    rw [← turns_eq (Or.inr hclean)] at hclean
    exact fun t ht => ends_iff_clean.2 (hclean t ht)

/-- A run that ends normally has a bundle for each claim, in their order. -/
theorem verify_claims {statement : String} {language : Option Language} {bundles : List Bundle}
    {s' : σ} (h : P.verify env statement language s = (.ok bundles, s')) :
    bundles.map (·.claim) =
      (decompose env.uuid4 none statement (language.getD P.defaultLanguage)).claims := by
  have hclaims := Eff.collect_map (f := P.verifyClaim env) (g := Bundle.claim) (d := Prod.fst)
    (fun _ _ _ _ h => verifyClaim_claim h) h
  rw [hclaims, Eff.turns_fst]
  rfl

/-- **`verify` degrades** exactly in the runs in which nothing uncaught raises: the vote values
that are found for a claim compare, and a conflict task that is due is opened. -/
theorem verify_degrades_iff (P : VerifyPipeline σ) (env : Env) (statement : String)
    (language : Option Language) (s : σ) : P.Degrades env statement language s ↔
      ∀ t ∈ P.turns env statement language s, P.Clean env t.1 t.2 := by
  constructor
  · rintro ⟨bundles, s', hrun, -⟩
    exact verify_ok_iff.1 ⟨bundles, s', hrun⟩
  · intro hclean
    obtain ⟨bundles, s', hrun⟩ := verify_ok_iff.2 hclean
    have hsame : P.verify env statement language s = P.degraded.verify env statement language s := by
      unfold turns at hclean
      rw [← turns_eq (Or.inr hclean)] at hclean
      rw [verify_eq, verify_eq]
      exact Eff.collect_congr fun t ht => verifyClaim_degraded (hclean t ht)
    exact ⟨bundles, s', hrun, verify_claims hrun, bundles, s', hsame ▸ hrun, rfl⟩

/-- A review connection that never raises, and vote values that are texts, are enough. -/
theorem degrades_of_reliable
    (hconn : ∀ conn, P.reviewConnection = some conn → ∀ task t, ∃ t', conn task t = (.ok (), t'))
    (hvotes : ∀ g, P.graph = some g → ∀ params t hits t', g .voteCast params t = (.ok hits, t') →
      ∀ h ∈ hits, (h.properties.prop "vote_value").truthy = true →
        (h.properties.prop "vote_value").text? ≠ none)
    (statement : String) (language : Option Language) : P.Degrades env statement language s := by
  rw [verify_degrades_iff]
  rintro ⟨claim, t⟩ -
  intro r s₁ ranked s₂ hr hranked
  refine ⟨fun h => ?_, fun o conn _ _ hc => hconn conn hc _ _⟩
  obtain ⟨x, -, -, -, v, hv, ht, hn⟩ := h.votes
  obtain ⟨G, L, s₃, _, hG, -, heq⟩ := retrieve_total P claim r.resolvedSlots (scopeOf env claim) s₁
  obtain ⟨hrk, -⟩ := Prod.mk.inj (hranked.symm.trans heq)
  obtain rfl := Except.ok.inj hrk
  -- the value stands in a row that the graph retriever returned
  obtain ⟨row, hrow, rfl⟩ := List.mem_map.1 (List.mem_dedup.1 hv)
  have hmem : row ∈ G := by
    obtain ⟨score, hscore, hrow⟩ := List.mem_filterMap.1 (List.mem_filter.1 hrow).1
    obtain ⟨e, he, rfl⟩ := mem_rerank.1 hscore
    rcases List.mem_append.1 he with he | he
    · obtain ⟨g, hg, rfl⟩ := List.mem_map.1 he
      rwa [← Option.some.inj hrow]
    · obtain ⟨l, -, rfl⟩ := List.mem_map.1 he
      cases hrow
  have key : ∀ w : Value, w.key.truthy = w.truthy ∧ w.key.text? = w.text? := by
    rintro (_ | b | n | s)
    all_goals first | exact ⟨rfl, rfl⟩ | cases b <;> exact ⟨rfl, rfl⟩
  rw [(key _).1] at ht
  rw [(key _).2] at hn
  cases hgraph : P.graph with
  | none =>
    rw [hgraph] at hG
    cases hG
    cases hmem
  | some g =>
    rw [hgraph, Option.map_some, orEmpty, Eff.orElse] at hG
    split at hG
    · rename_i l t' hcall
      cases hG
      have hct : claim.claimType = .voteCast := h.claimType
      rw [hct] at hcall
      exact hvotes g hgraph _ _ _ _ hcall row hmem ht hn
    · cases hG
      cases hmem

end VerifyPipeline

/-! ## A conflict task that cannot be queued -/

/-- A vote row of Tier 1. -/
def voteRow (value : String) : GraphEvidence where
  claimType := .voteCast
  nodeIds := ∅
  properties := Dict.ofList [("vote_value", .str value)]

/-- Both vote values are on record, and the review queue is down. -/
def queueDown : VerifyPipeline Unit where
  graph := some fun _ _ => pure [voteRow "for", voteRow "against"]
  reviewConnection := some fun _ => Eff.raise .external

/-- `verify` raises what the review connection raised. -/
theorem verify_raises :
    (queueDown.verify plainEnv "Dana Levi voted for the water bill in 2020" (some .en) ()).1.map
        List.length = .error .external ∧
      ¬queueDown.Degrades plainEnv "Dana Levi voted for the water bill in 2020" (some .en) () := by
  have hrun : (queueDown.verify plainEnv "Dana Levi voted for the water bill in 2020"
      (some .en) ()).1.map List.length = .error .external := by decide +kernel
  refine ⟨hrun, ?_⟩
  rintro ⟨bundles, s', h, -⟩
  rw [h] at hrun
  cases hrun

end CivicProof
