import CivicProof.Proof.Pipeline

/-!
# Query parameters and the lookup of decisions

* `graph_query_bound`: exactly when the pipeline binds every parameter of the claim type's
  template.
* `decision_by_number`: exactly when a government decision claim is verified by its number.
-/

namespace CivicProof

/-! ## Bound parameters -/

theorem append_ne_empty (s : String) {t : String} (h : t.length ≠ 0) : s ++ t ≠ "" := by
  intro he
  have hlen := congrArg String.length he
  rw [String.length_append] at hlen
  have hz : "".length = 0 := rfl
  omega

theorem dayStart_ne_empty (d : CivilDate) : d.dayStart ≠ "" := append_ne_empty _ (by decide)

theorem dayEnd_ne_empty (d : CivilDate) : d.dayEnd ≠ "" := append_ne_empty _ (by decide)

/-- Both bounds of a normalized scope are there iff it is neither unknown nor the open-ended
current term. -/
theorem timeBounds_isSome {scope : TimeScope} (h : BoundsOK scope) :
    ((orNone scope.start).isSome ∧ (orNone scope.stop).isSome) ↔
      scope ≠ unknownScope ∧ scope ≠ currentTermScope := by
  rcases h with rfl | ⟨a, b, hstart, hstop, hg⟩ | rfl
  · exact iff_of_false (by decide) (by simp)
  · rw [hstart, hstop, orNone_isSome (dayStart_ne_empty a), orNone_isSome (dayEnd_ne_empty b)]
    refine iff_of_true ⟨rfl, rfl⟩ ⟨fun h => ?_, fun h => ?_⟩
    · rw [h] at hstart
      cases hstart
    · rw [h] at hstop
      cases hstop
  · exact iff_of_false (by decide) (by simp)

/-- The parameters of each template that `graphParams` may leave unbound: the time bounds where
it takes them, and always the number of a decision. -/
theorem fullyBound_iff (ct : ClaimType) (slots : Slots) (scope : TimeScope) :
    FullyBound ct (graphParams slots scope) ↔
      ct = .billSponsorship ∨ ct = .statementAboutFormalAction ∨
        (ct ≠ .governmentDecision ∧ (orNone scope.start).isSome ∧ (orNone scope.stop).isSome) := by
  unfold FullyBound
  cases ct <;> simp [templateParams, graphParams]

/-- **When the graph query is fully bound**: the template takes no time bounds, or it is not the
one for government decisions and the claim's scope is closed on both sides. The number of a
decision is never bound. -/
theorem graph_query_bound (U : Unicode) (today : CivilDate) (claim : DecomposedClaim)
    (resolution : ResolutionResult) :
    FullyBound claim.claimType (graphParams resolution.resolvedSlots
        (normalizeTimeScope U today claim.timePhrase)) ↔
      claim.claimType = .billSponsorship ∨ claim.claimType = .statementAboutFormalAction ∨
        (claim.claimType ≠ .governmentDecision ∧
          normalizeTimeScope U today claim.timePhrase ≠ unknownScope ∧
          normalizeTimeScope U today claim.timePhrase ≠ currentTermScope) := by
  rw [fullyBound_iff, timeBounds_isSome (normalizeTimeScope_bounds U today claim.timePhrase)]

def currentTermVote : String := "Dana Levi voted for the water bill in the 25th Knesset"

theorem currentTermVote_claims :
    (decompose plainEnv.uuid4 none currentTermVote .en).claims.map (fun claim =>
      (claim.claimType, VerifyPipeline.scopeOf plainEnv claim)) =
        [(.voteCast, currentTermScope)] := by
  decide +kernel

/-- The query for it has an unbound parameter. -/
theorem graph_query_unbound :
    ∃ claim ∈ (decompose plainEnv.uuid4 none currentTermVote .en).claims,
      ¬FullyBound claim.claimType
        (graphParams claim.slots (VerifyPipeline.scopeOf plainEnv claim)) := by
  have hmem : (ClaimType.voteCast, currentTermScope) ∈
      (decompose plainEnv.uuid4 none currentTermVote .en).claims.map _ :=
    currentTermVote_claims ▸ List.mem_singleton.2 rfl
  obtain ⟨claim, hclaim, heq⟩ := List.mem_map.1 hmem
  obtain ⟨hct, hscope⟩ := Prod.mk.inj heq
  refine ⟨claim, hclaim, ?_⟩
  rw [fullyBound_iff, hct, hscope]
  decide

/-! ## The lookup of decisions -/

section Lookup

variable {T : CypherTime} {G : DecisionGraph} {n : String}

/-- The evidence of a decision node. -/
def decisionEvidence (T : CypherTime) (d : GovernmentDecision) : GraphEvidence :=
  recordToEvidence .governmentDecision (d.record T)

theorem decisionEvidence_id (d : GovernmentDecision) (h : d.governmentDecisionId ≠ "") :
    rowDecisionId (decisionEvidence T d) = .str d.governmentDecisionId := by
  have hid : (decisionEvidence T d).nodeIds.lookup "government_decision_id" =
      some d.governmentDecisionId := rfl
  unfold rowDecisionId
  rw [hid, orNone_isSome h]

theorem decisionEvidence_number (d : GovernmentDecision) :
    (decisionEvidence T d).properties.prop "decision_number" = .ofText d.decisionNumber := rfl

theorem filter_id (G : DecisionGraph) (n : String) :
    (∃ d ∈ G.nodes, d.governmentDecisionId = n ∧
        (G.nodes.filter fun d => d.governmentDecisionId = n) = [d]) ∨
      ((∀ d ∈ G.nodes, d.governmentDecisionId ≠ n) ∧
        (G.nodes.filter fun d => d.governmentDecisionId = n) = []) := by
  by_cases h : ∃ d ∈ G.nodes, d.governmentDecisionId = n
  · obtain ⟨d, hd, hid⟩ := h
    have hnodes : G.nodes.Nodup := List.Nodup.of_map _ G.ids_nodup
    refine Or.inl ⟨d, hd, hid, List.perm_singleton.1 ?_⟩
    refine (List.perm_ext_iff_of_nodup (hnodes.filter _) (List.nodup_singleton d)).2 fun x => ?_
    rw [List.mem_filter, decide_eq_true_eq, List.mem_singleton]
    constructor
    · rintro ⟨hx, hxid⟩
      exact List.inj_on_of_nodup_map G.ids_nodup hx hd (hxid.trans hid.symm)
    · rintro rfl
      exact ⟨hd, hid⟩
  · push Not at h
    refine Or.inr ⟨h, List.filter_eq_nil_iff.2 fun d hd => ?_⟩
    rw [decide_eq_true_eq]
    exact h d hd

/-- The evidence of the decisions whose id is the text `n`. -/
def decisionRows (T : CypherTime) (G : DecisionGraph) (n : String) : List GraphEvidence :=
  (G.nodes.filter fun d => d.governmentDecisionId = n).map (decisionEvidence T)

theorem mem_decisionRows {g : GraphEvidence} : g ∈ decisionRows T G n ↔
    ∃ d ∈ G.nodes, d.governmentDecisionId = n ∧ decisionEvidence T d = g := by
  unfold decisionRows
  simp only [List.mem_map, List.mem_filter, decide_eq_true_eq, and_assoc]

theorem graphHits_decisionRows (L : List LexicalEvidence) (scope : Option TimeScope)
    (ids : Dict String) :
    (graphHits .governmentDecision (rerank ((decisionRows T G n).map .graph ++ L.map .lexical)
      .governmentDecision scope ids)).Perm (decisionRows T G n) := by
  have hself : (decisionRows T G n).filter (fun g => g.claimType = .governmentDecision) =
      decisionRows T G n := by
    refine List.filter_eq_self.2 fun g hg => ?_
    obtain ⟨d, -, -, rfl⟩ := mem_decisionRows.1 hg
    rfl
  have hperm := graphHits_retrieved (decisionRows T G n) L .governmentDecision scope ids
  rwa [hself] at hperm

/-- **What the graph retriever returns for a decision number**: the claim's number is passed as
the id, so only a node whose id is that text is found. -/
theorem decision_retrieve {σ : Type} (other : ClaimType → Params → Eff σ (List Record))
    {slots : Slots} (hn : slots .governmentDecisionId = some n) (s : σ) :
    (decisionDriver T G other).retrieve .governmentDecision (graphParams slots unknownScope) s =
      (.ok (decisionRows T G n), s) := by
  have hfound : (G.nodes.filter fun d =>
      decisionMatches (graphParams slots unknownScope) d && dateWithin none none d) =
        G.nodes.filter fun d => d.governmentDecisionId = n := by
    refine List.filter_congr fun d _ => ?_
    have hid : (graphParams slots unknownScope).read (.slot .governmentDecisionId) = some n := hn
    unfold decisionMatches
    rw [hid]
    exact Bool.and_true _
  have hquery : governmentDecisionQuery T G (graphParams slots unknownScope) =
      .ok (((G.nodes.filter fun d => d.governmentDecisionId = n).map (·.record T))) := by
    unfold governmentDecisionQuery
    change Except.ok ((((G.nodes.filter fun d => decisionMatches (graphParams slots unknownScope) d &&
      dateWithin none none d).insertionSort laterDecision).take 5).map (·.record T)) = _
    rw [hfound]
    -- ids are unique, so sorting and truncating change nothing
    rcases filter_id G n with ⟨d, -, -, hd⟩ | ⟨-, hd⟩ <;> rw [hd] <;> rfl
  have hrun : (decisionDriver T G other).run .governmentDecision (graphParams slots unknownScope) s =
      (.ok ((G.nodes.filter fun d => d.governmentDecisionId = n).map (·.record T)), s) := by
    change Eff.lift (governmentDecisionQuery T G (graphParams slots unknownScope)) s = _
    unfold Eff.lift
    rw [hquery]
  refine Eff.within_apply rfl ?_ rfl
  rw [Eff.bind_of_ok hrun]
  exact congrArg (fun l => (Except.ok l, s)) (List.map_map ..)

/-- The graph retrieval of a claim returns a decision with a given number. -/
def RetrievesNumber {σ : Type} (P : VerifyPipeline σ) (env : Env) (claim : DecomposedClaim)
    (n : String) : Prop :=
  ∃ retrieve, P.graph = some retrieve ∧ ∀ s, ∃ rows s',
    retrieve claim.claimType (graphParams claim.slots (VerifyPipeline.scopeOf env claim)) s =
      (.ok rows, s') ∧ ∃ g ∈ rows, g.properties.prop "decision_number" = .str n

/-- The resolution of a decision claim keeps its slots, and leaves it checkable, with a live
resolver or without one. -/
theorem decision_resolution {σ : Type} {P : VerifyPipeline σ} {claim : DecomposedClaim}
    (hct : claim.claimType = .governmentDecision) (hn : claim.slots .governmentDecisionId = some n)
    (hvalid : validateSlots claim.claimType claim.slots = [])
    (hres : P.resolver = none ∨ ∃ R : LiveEntityResolver σ,
      P.resolver = some fun claim => R.resolve claim.slots) (scope : TimeScope) (s : σ) :
    ∃ r s', P.resolveClaim claim s = (.ok r, s') ∧ r.resolvedSlots = claim.slots ∧
      VerifyPipeline.checkabilityOf claim r scope = .checkable := by
  have htime : ¬(claim.claimType ∈ timeRequiredClaimTypes ∧ scope.granularity = .unknown) := by
    rw [hct]
    exact fun h => absurd h.1 (by decide)
  rcases hres with hnone | ⟨R, hR⟩
  · refine ⟨_, s, by unfold VerifyPipeline.resolveClaim; rw [hnone]; rfl, rfl, ?_⟩
    refine classify_checkable.2 ⟨hvalid, fun slot _ st hst => ?_, htime⟩
    obtain ⟨v, -, hv⟩ := Option.map_eq_some_iff.1 hst
    exact Or.inl hv.symm
  · obtain ⟨e, s', he⟩ := LiveEntityResolver.liveResolve_governmentDecision (R := R) hn s
    refine ⟨_, s', VerifyPipeline.resolveClaim_error hR he, rfl, ?_⟩
    exact classify_checkable.2 ⟨hvalid, fun slot _ st hst => by simp at hst, htime⟩

theorem scopeOf_none {env : Env} {claim : DecomposedClaim} (h : claim.timePhrase = none) :
    VerifyPipeline.scopeOf env claim = unknownScope := by
  unfold VerifyPipeline.scopeOf
  rw [h]
  rfl

theorem retrievesNumber_iff {σ : Type} {P : VerifyPipeline σ} {env : Env} {claim : DecomposedClaim}
    {other : ClaimType → Params → Eff σ (List Record)} (s : σ)
    (hct : claim.claimType = .governmentDecision) (hn : claim.slots .governmentDecisionId = some n)
    (htime : claim.timePhrase = none)
    (hgraph : P.graph = some (decisionDriver T G other).retrieve) :
    RetrievesNumber P env claim n ↔
      ∃ d ∈ G.nodes, d.governmentDecisionId = n ∧ d.decisionNumber = some n := by
  have hscope : VerifyPipeline.scopeOf env claim = unknownScope := scopeOf_none htime
  have hrows := fun t : σ => decision_retrieve (T := T) (G := G) other hn t
  unfold RetrievesNumber
  rw [hct, hscope]
  constructor
  · rintro ⟨retrieve, hP, h⟩
    cases hgraph.symm.trans hP
    obtain ⟨rows, s', hrun, g, hg, hnum⟩ := h s
    rw [hrows] at hrun
    cases hrun
    obtain ⟨d, hd, hid, rfl⟩ := mem_decisionRows.1 hg
    rw [decisionEvidence_number] at hnum
    refine ⟨d, hd, hid, ?_⟩
    cases hdn : d.decisionNumber with
    | none =>
      rw [hdn] at hnum
      cases hnum
    | some m =>
      rw [hdn] at hnum
      cases hnum
      rfl
  · rintro ⟨d, hd, hid, hnum⟩
    refine ⟨_, hgraph, fun t => ⟨_, t, hrows t, decisionEvidence T d, ?_, ?_⟩⟩
    · exact mem_decisionRows.2 ⟨d, hd, hid, rfl⟩
    · rw [decisionEvidence_number, hnum]
      rfl

/-- The inputs of a claim about the decision `n`, on the rows with that id and any snippets. -/
structure OnDecisionRows (T : CypherTime) (G : DecisionGraph) (n : String)
    (inputs : VerdictInputs) : Prop where
  checkable : inputs.checkability = .checkable
  claimType : inputs.claimType = .governmentDecision
  id : inputs.governmentDecisionId = some n
  ranked : ∃ (L : List LexicalEvidence) (scope : Option TimeScope) (ids : Dict String),
    inputs.rankedEvidence = rerank ((decisionRows T G n).map .graph ++ L.map .lexical)
      .governmentDecision scope ids

section Verdict

variable {inputs : VerdictInputs}

theorem OnDecisionRows.hits (h : OnDecisionRows T G n inputs) :
    (graphHits inputs.claimType inputs.rankedEvidence).Perm (decisionRows T G n) := by
  obtain ⟨L, scope, ids, hranked⟩ := h.ranked
  rw [h.claimType, hranked]
  exact graphHits_decisionRows L scope ids

/-- A node with the id `n`: its Tier-1 row supports the claim. -/
theorem OnDecisionRows.supported (h : OnDecisionRows T G n inputs) (hne : n ≠ "")
    {d : GovernmentDecision} (hd : d ∈ G.nodes) (hdid : d.governmentDecisionId = n) :
    ∃ o, decideVerdict inputs = .ok o ∧ o.status = .supported := by
  have hrow : decisionEvidence T d ∈ decisionRows T G n := mem_decisionRows.2 ⟨d, hd, hdid, rfl⟩
  obtain ⟨L, scope, ids, hranked⟩ := h.ranked
  have hmem : Evidence.graph (decisionEvidence T d) ∈
      (decisionRows T G n).map Evidence.graph ++ L.map Evidence.lexical :=
    List.mem_append_left _ (List.mem_map_of_mem hrow)
  obtain ⟨confidence, hconf, hover⟩ := tier1_row_confident scope ids hmem
    (rfl : (decisionEvidence T d).claimType = .governmentDecision) rfl
  have hp : PassesThreshold inputs confidence := by
    refine ⟨by rw [hranked]; exact hconf, fun hnil => ?_, hover⟩
    rw [hranked, rerank_eq_nil] at hnil
    exact List.ne_nil_of_mem hmem hnil
  have hs : Supported inputs := by
    unfold Supported Supports
    rw [h.claimType]
    refine ⟨decisionEvidence T d, h.claimType ▸ h.hits.mem_iff.2 hrow, ?_⟩
    unfold decisionRowOk
    rw [h.id]
    dsimp only
    rw [decisionEvidence_id d (hdid ▸ hne), hdid]
    exact decide_eq_true rfl
  obtain ⟨o, ho, hst, -⟩ := decideVerdict_supports h.checkable hp hs
  exact ⟨o, ho, hst⟩

/-- No node with the id `n`: nothing bears on the claim. -/
theorem OnDecisionRows.missing (h : OnDecisionRows T G n inputs)
    (hno : ∀ d ∈ G.nodes, d.governmentDecisionId ≠ n) :
    ∃ o, decideVerdict inputs = .ok o ∧ o.status = .insufficientEvidence := by
  have hrows : decisionRows T G n = [] := by
    refine List.eq_nil_iff_forall_not_mem.2 fun g hg => ?_
    obtain ⟨d, hd, hdid, -⟩ := mem_decisionRows.1 hg
    exact hno d hd hdid
  have hrel : ¬HasRelevant inputs := by
    unfold HasRelevant Relevant
    rw [h.claimType, not_not, ← h.claimType, perm_eq_nil h.hits, hrows]
  obtain ⟨L, scope, ids, hranked⟩ := h.ranked
  have hconf : ∃ confidence, computeConfidence inputs.rankedEvidence = .ok confidence := by
    rw [hranked]
    exact (computeConfidence_rerank _ _ _ _).imp fun _ hc => hc.1
  exact decideVerdict_not_relevant h.checkable hconf hrel

/-- **The verdict on the rows with the id `n`**, whatever the text retriever returned: supported
iff there is one, and never mixed. -/
theorem OnDecisionRows.verdict (h : OnDecisionRows T G n inputs) (hne : n ≠ "") :
    ∃ o, decideVerdict inputs = .ok o ∧ o.status ≠ .mixed ∧
      (o.status = .supported ↔ ∃ d ∈ G.nodes, d.governmentDecisionId = n) := by
  by_cases hex : ∃ d ∈ G.nodes, d.governmentDecisionId = n
  · obtain ⟨d, hd, hdid⟩ := hex
    obtain ⟨o, ho, hst⟩ := h.supported hne hd hdid
    exact ⟨o, ho, by rw [hst]; decide, iff_of_true hst ⟨d, hd, hdid⟩⟩
  · obtain ⟨o, ho, hst⟩ := h.missing fun d hd hdid => hex ⟨d, hd, hdid⟩
    exact ⟨o, ho, by rw [hst]; decide, iff_of_false (by rw [hst]; decide) hex⟩

end Verdict

/-- **When a government decision claim is verified by its number.** For a statement whose only
claim has the decision number `n` and no time phrase, with or without a live resolver and
whatever the other collaborators do: the retrieval returns a decision of that number and the
verdict is supported iff some decision has `n` both as its number and as its id. -/
theorem decision_by_number {σ : Type} {P : VerifyPipeline σ} {env : Env} {statement : String}
    {language : Option Language} {claim : DecomposedClaim}
    {other : ClaimType → Params → Eff σ (List Record)}
    (hclaims : (decompose env.uuid4 none statement (language.getD P.defaultLanguage)).claims = [claim])
    (hct : claim.claimType = .governmentDecision) (hn : claim.slots .governmentDecisionId = some n)
    (htime : claim.timePhrase = none)
    (hgraph : P.graph = some (decisionDriver T G other).retrieve)
    (hres : P.resolver = none ∨ ∃ R : LiveEntityResolver σ,
      P.resolver = some fun claim => R.resolve claim.slots) (s : σ) :
    ∃ b s', P.verify env statement language s = (.ok [b], s') ∧
      (RetrievesNumber P env claim n ∧ b.outcome.status = .supported ↔
        ∃ d ∈ G.nodes, d.governmentDecisionId = n ∧ d.decisionNumber = some n) := by
  have hmem : claim ∈ (decompose env.uuid4 none statement (language.getD P.defaultLanguage)).claims :=
    hclaims ▸ List.mem_singleton.2 rfl
  have hvalid := decompose_validate hmem
  have hne : n ≠ "" := by
    have hreq : Slot.governmentDecisionId ∈ (slotTemplates claim.claimType).required := by
      rw [hct]
      decide
    obtain ⟨v, hv, hne⟩ := (validateSlots_nil.1 hvalid).1 _ hreq
    rw [hn] at hv
    cases hv
    exact hne
  have hscope : VerifyPipeline.scopeOf env claim = unknownScope := scopeOf_none htime
  obtain ⟨r, s₁, hr, hslots, hcheck⟩ :=
    decision_resolution hct hn hvalid hres (VerifyPipeline.scopeOf env claim) s
  obtain ⟨rows, L, s₂, s₃, hrows, -, hranked⟩ :=
    VerifyPipeline.retrieve_total P claim r.resolvedSlots (VerifyPipeline.scopeOf env claim) s₁
  -- the retriever does not raise, and returns the rows with the id `n`
  have hrows' : rows = decisionRows T G n := by
    have hcall := decision_retrieve (T := T) (G := G) other hn s₁
    rw [hgraph, hct, hslots, hscope, Option.map_some, VerifyPipeline.orEmpty_ok hcall] at hrows
    cases hrows
    rfl
  have hinputs : OnDecisionRows T G n (VerifyPipeline.inputsOf env claim r
      (rerank (rows.map Evidence.graph ++ L.map Evidence.lexical) claim.claimType
        (some (VerifyPipeline.scopeOf env claim)) (VerifyPipeline.resolvedIds r.resolvedSlots))) := by
    refine ⟨hcheck, hct, ?_, L, some (VerifyPipeline.scopeOf env claim),
      VerifyPipeline.resolvedIds r.resolvedSlots, ?_⟩
    · change (orNone (r.resolvedSlots .governmentDecisionId)).or
        (claim.slots .governmentDecisionId) = _
      rw [hslots, hn, orNone_isSome hne]
      rfl
    · rw [hrows', hct]
      rfl
  obtain ⟨o, ho, hmixed, hst⟩ := hinputs.verdict hne
  refine ⟨_, s₃, VerifyPipeline.verify_single hclaims
    (VerifyPipeline.verifyClaim_run hr hranked ho hmixed), ?_⟩
  rw [retrievesNumber_iff s hct hn htime hgraph]
  refine ⟨fun h => h.1, fun h => ⟨h, hst.2 ?_⟩⟩
  obtain ⟨d, hd, hdid, -⟩ := h
  exact ⟨d, hd, hdid⟩

end Lookup

/-! ## A decision that is in the graph -/

def undated : CypherTime := ⟨fun _ => none, fun _ => ""⟩

def decisionSeven : GovernmentDecision where
  governmentDecisionId := "5f2f7f0e-6a51-4c3d-9d53-0d6f7c1f2b10"
  decisionNumber := some "7"

def cabinetGraph : DecisionGraph := ⟨[decisionSeven], by decide⟩

def cabinetPipeline : VerifyPipeline Unit where
  graph := some (decisionDriver undated cabinetGraph fun _ _ => pure []).retrieve

theorem cabinetDecision_claim :
    ∃ claim, (decompose plainEnv.uuid4 none "cabinet decision 7" .en).claims = [claim] ∧
      claim.claimType = .governmentDecision ∧ claim.slots .governmentDecisionId = some "7" ∧
        claim.timePhrase = none := by
  have h : (decompose plainEnv.uuid4 none "cabinet decision 7" .en).claims.map (fun claim =>
      (claim.claimType, claim.slots .governmentDecisionId, claim.timePhrase)) =
        [(.governmentDecision, some "7", none)] := by
    decide +kernel
  obtain ⟨claim, hclaim, heq⟩ := List.map_eq_singleton_iff.1 h
  obtain ⟨hct, hslot, htime⟩ := (Prod.mk.inj heq).imp_right Prod.mk.inj
  exact ⟨claim, hclaim, hct, hslot, htime⟩

/-- The decision with the claimed number is in the graph and is not found; and as evidence it
contradicts the claim. -/
theorem decision_by_number_fails :
    (∃ d ∈ cabinetGraph.nodes, d.decisionNumber = some "7") ∧
      ((cabinetPipeline.verify plainEnv "cabinet decision 7" (some .en) ()).1.map fun bundles =>
        bundles.map (·.outcome.status)) = .ok [.insufficientEvidence] ∧
      verdictStatus (VerdictInputs.withEvidence
        { claimId := "c1", claimType := .governmentDecision, checkability := .checkable,
          governmentDecisionId := some "7" }
        [.graph (decisionEvidence undated decisionSeven)] none ∅) = .ok .contradicted :=
  ⟨⟨decisionSeven, List.mem_singleton.2 rfl, rfl⟩, by decide +kernel, by decide +kernel⟩

theorem decision_by_number_cabinet :
    ∃ claim, (decompose plainEnv.uuid4 none "cabinet decision 7" .en).claims = [claim] ∧
      ∃ b s', cabinetPipeline.verify plainEnv "cabinet decision 7" (some .en) () = (.ok [b], s') ∧
        (RetrievesNumber cabinetPipeline plainEnv claim "7" ∧ b.outcome.status = .supported ↔
          ∃ d ∈ cabinetGraph.nodes, d.governmentDecisionId = "7" ∧ d.decisionNumber = some "7") := by
  obtain ⟨claim, hclaims, hct, hn, htime⟩ := cabinetDecision_claim
  have hgraph : cabinetPipeline.graph =
      some (decisionDriver undated cabinetGraph fun _ _ => pure []).retrieve := rfl
  have hres : cabinetPipeline.resolver = none := rfl
  have hlang : (some Language.en).getD cabinetPipeline.defaultLanguage = .en := rfl
  exact ⟨claim, hclaims,
    decision_by_number (hlang.symm ▸ hclaims) hct hn htime hgraph (Or.inl hres) ()⟩

end CivicProof
