import CivicProof.Proof.Noninterference

/-!
# When a verdict reaches a human

The review flag is set below `humanReviewOverall`, on a mixed verdict, and on a
contradiction without a Tier-1 row. The results say exactly when that is enough: for
conflicting official records, for verdicts without Tier-1 evidence, and for abstentions.

* `conflict_review`: a conflict of Tier-1 rows is flagged only by the vote comparison.
* `tier1_review`: unflagged definite verdicts without Tier-1 evidence.
* `abstention_review`: unflagged abstentions.
-/

namespace CivicProof

/-- A verdict that takes a side. -/
def Definite (status : Status) : Prop :=
  status = .supported ∨ status = .contradicted ∨ status = .mixed

section Flag

variable {overall : ℚ} {hits : List GraphEvidence}

theorem reviewFlag_low (status : Status) (h : overall < humanReviewOverall) :
    reviewFlag overall status hits = true := by
  unfold reviewFlag
  rw [decide_eq_true h, Bool.true_or, Bool.true_or]

theorem reviewFlag_mixed : reviewFlag overall .mixed hits = true := by
  unfold reviewFlag
  rw [decide_eq_true rfl, Bool.or_true, Bool.true_or]

/-- A status that is neither mixed nor contradicted is flagged by the confidence alone. -/
theorem reviewFlag_plain {status : Status} (h1 : status ≠ .mixed) (h2 : status ≠ .contradicted) :
    reviewFlag overall status hits = true ↔ overall < humanReviewOverall := by
  unfold reviewFlag
  simp [h1, h2]

theorem reviewFlag_contradicted (hne : hits ≠ []) (h : reviewFlag overall .contradicted hits = false) :
    ∃ g ∈ hits, g.sourceTier = 1 := by
  unfold reviewFlag at h
  simp only [Bool.or_eq_false_iff, Bool.and_eq_false_iff, decide_eq_false_iff_not,
    Bool.not_eq_false'] at h
  rcases h.2 with (hc | hn) | ht
  · exact absurd trivial hc
  · exact absurd hne hn
  · unfold tier1Graph at ht
    simpa using ht

end Flag

variable {inputs : VerdictInputs}

/-- Whether the verdict is sent to review, or the exception. -/
def needsReview (inputs : VerdictInputs) : Except PyError Bool :=
  (decideVerdict inputs).map (·.needsHumanReview)

/-! ## Conflicting official records -/

/-- The status a row gives as the only graph row. -/
def statusAlone (inputs : VerdictInputs) (g : GraphEvidence) : Except PyError Status :=
  (compare inputs [g] 0).map Prod.fst

/-- **Two rows conflict**: alone, one would support the claim and the other contradict it; or
no vote value is expected and they record different ones. -/
def Conflict (inputs : VerdictInputs) (g₁ g₂ : GraphEvidence) : Prop :=
  (statusAlone inputs g₁ = .ok .supported ∧ statusAlone inputs g₂ = .ok .contradicted) ∨
    (inputs.claimType = .voteCast ∧ inputs.expectedVoteValue = none ∧
      voteValue g₁ ≠ voteValue g₂)

theorem statusAlone_supported {g : GraphEvidence} (h : statusAlone inputs g = .ok .supported) :
    Supports inputs [g] 0 := by
  unfold statusAlone at h
  cases hcmp : compare inputs [g] 0 with
  | error e =>
    rw [hcmp] at h
    cases h
  | ok r =>
    rw [hcmp] at h
    exact (compare_supported hcmp).1 (Except.ok.inj h)

theorem statusAlone_contradicted {g : GraphEvidence}
    (h : statusAlone inputs g = .ok .contradicted) : ¬Supports inputs [g] 0 := by
  unfold statusAlone at h
  cases hcmp : compare inputs [g] 0 with
  | error e =>
    rw [hcmp] at h
    cases h
  | ok r =>
    rw [hcmp] at h
    have hr : r.1 = .contradicted := Except.ok.inj h
    exact (compare_supported hcmp).not.1 (by rw [hr]; decide)

theorem supports_only_vote {g : GraphEvidence} {v : String} (hct : inputs.claimType = .voteCast)
    (hexp : inputs.expectedVoteValue = some v) :
    Supports inputs [g] 0 ↔ voteValue g = .str v := by
  unfold Supports
  rw [hct, hexp]
  simp

/-- **Vote rows that disagree on the expected value are mixed.** -/
theorem compareVoteCast_disagree {hits : List GraphEvidence} {g₁ g₂ : GraphEvidence} {v : String}
    (h1 : g₁ ∈ hits) (h2 : g₂ ∈ hits) (hv1 : voteValue g₁ = .str v) (hv2 : voteValue g₂ ≠ .str v) :
    ∃ r, compareVoteCast (some v) hits = .ok r ∧ r.1 = .mixed := by
  have hok : ∃ r, compareVoteCast (some v) hits = .ok r :=
    compareVoteCast_isOk fun w hw => ⟨g₁, h1, by cases hw; exact hv1⟩
  obtain ⟨r, hr⟩ := hok
  refine ⟨r, hr, ?_⟩
  rcases compareVoteCast_cases hr with ⟨h, -⟩ | ⟨-, h, -⟩ | ⟨-, -, h⟩ | ⟨-, ⟨w, hw, h⟩, -⟩
  · exact absurd h (List.ne_nil_of_mem h1)
  · exact absurd (h v rfl g₂ h2) hv2
  · exact h
  · cases hw
    exact absurd hv1 (h g₁ h1)

/-- Without an expected vote value any row supports the claim, and elections and attendance stop
at the supporting row: what is left of the list is not looked at. -/
theorem supports_of_conflict {hits : List GraphEvidence} (lexHits : ℕ) {g₁ g₂ : GraphEvidence}
    (hct : (inputs.claimType = .voteCast ∧ inputs.expectedVoteValue = none) ∨
      inputs.claimType = .electionResult ∨ inputs.claimType = .committeeAttendance)
    (h1 : g₁ ∈ hits) (hconf : Conflict inputs g₁ g₂) : Supports inputs hits lexHits := by
  rcases hct with ⟨hct, hexp⟩ | hct
  · unfold Supports
    rw [hct]
    exact ⟨List.ne_nil_of_mem h1,
      fun v hv => absurd (hexp.symm.trans hv) (Option.some_ne_none v).symm⟩
  · have hsup : Supports inputs [g₁] 0 := by
      rcases hconf with ⟨h, -⟩ | ⟨h, -⟩
      · exact statusAlone_supported h
      · rw [h] at hct
        rcases hct with hct | hct <;> cases hct
    unfold Supports at hsup ⊢
    rcases hct with hct | hct
    all_goals
      rw [hct] at hsup ⊢
      obtain ⟨g, hg, hok⟩ := hsup
      rw [List.mem_singleton.1 hg] at hok
      exact ⟨g₁, h1, hok⟩

/-- A conflict among vote rows is mixed when a value is expected, and nothing else is. -/
theorem compare_conflict {hits : List GraphEvidence} (lexHits : ℕ) {g₁ g₂ : GraphEvidence}
    (hct : inputs.claimType = .voteCast ∨ inputs.claimType = .electionResult ∨
      inputs.claimType = .committeeAttendance)
    (h1 : g₁ ∈ hits) (h2 : g₂ ∈ hits) (hconf : Conflict inputs g₁ g₂) :
    ∃ r, compare inputs hits lexHits = .ok r ∧
      r.1 = if inputs.claimType = .voteCast ∧ inputs.expectedVoteValue ≠ none then .mixed
        else .supported := by
  by_cases hv : inputs.claimType = .voteCast ∧ inputs.expectedVoteValue ≠ none
  · rw [if_pos hv]
    obtain ⟨hvote, hexp⟩ := hv
    obtain ⟨v, hexp⟩ := Option.ne_none_iff_exists'.1 hexp
    rcases hconf with ⟨ha, hb⟩ | ⟨-, hnone, -⟩
    · have hv1 := (supports_only_vote hvote hexp).1 (statusAlone_supported ha)
      have hv2 := mt (supports_only_vote hvote hexp).2 (statusAlone_contradicted hb)
      obtain ⟨r, hr, hst⟩ := compareVoteCast_disagree h1 h2 hv1 hv2
      refine ⟨r, ?_, hst⟩
      unfold compare
      rw [hvote, hexp]
      exact hr
    · rw [hexp] at hnone
      cases hnone
  · rw [if_neg hv]
    have hrest : (inputs.claimType = .voteCast ∧ inputs.expectedVoteValue = none) ∨
        inputs.claimType = .electionResult ∨ inputs.claimType = .committeeAttendance :=
      hct.imp_left fun hvote => ⟨hvote, not_not.1 fun hexp => hv ⟨hvote, hexp⟩⟩
    have hs := supports_of_conflict lexHits hrest h1 hconf
    obtain ⟨r, hr⟩ := compare_isOk (Or.inl hs)
    exact ⟨r, hr, (compare_supported hr).2 hs⟩

/-- **When conflicting official records reach a human.** Above the threshold, a claim with two
conflicting rows, whatever their tier, is flagged iff it is a vote claim with an expected
value, or the confidence is below the review threshold. -/
theorem conflict_review {confidence : Confidence} {g₁ g₂ : GraphEvidence}
    (hc : inputs.checkability = .checkable)
    (hct : inputs.claimType = .voteCast ∨ inputs.claimType = .electionResult ∨
      inputs.claimType = .committeeAttendance)
    (hp : PassesThreshold inputs confidence)
    (h1 : g₁ ∈ graphHits inputs.claimType inputs.rankedEvidence)
    (h2 : g₂ ∈ graphHits inputs.claimType inputs.rankedEvidence)
    (hconf : Conflict inputs g₁ g₂) :
    needsReview inputs = .ok true ↔
      (inputs.claimType = .voteCast ∧ inputs.expectedVoteValue ≠ none) ∨
        confidence.overall < humanReviewOverall := by
  obtain ⟨r, hr, hst⟩ := compare_conflict (lexCorroborations inputs.rankedEvidence) hct h1 h2 hconf
  have hflag : needsReview inputs = .ok (reviewFlag confidence.overall r.1
      (graphHits inputs.claimType inputs.rankedEvidence)) := by
    unfold needsReview
    rw [decideVerdict_passes hc hp, hr]
    rfl
  have hplain : reviewFlag confidence.overall .supported
      (graphHits inputs.claimType inputs.rankedEvidence) = true ↔
        confidence.overall < humanReviewOverall := reviewFlag_plain (by decide) (by decide)
  rw [hflag, hst]
  by_cases hv : inputs.claimType = .voteCast ∧ inputs.expectedVoteValue ≠ none
  · rw [if_pos hv]
    exact iff_of_true (congrArg Except.ok reviewFlag_mixed) (Or.inl hv)
  · rw [if_neg hv, or_iff_right hv, ← hplain]
    exact ⟨fun h => Except.ok.inj h, fun h => congrArg Except.ok h⟩

def electionRow (seats : ℤ) : GraphEvidence where
  claimType := .electionResult
  nodeIds := ∅
  properties := Dict.ofList [("seats_won", .int seats)]
  sourceDocumentIds := ["d1"]

/-- A checkable claim that a party won 32 seats, with two official results. -/
def electionConflict : VerdictInputs :=
  ({ claimId := "c1", claimType := .electionResult, checkability := .checkable,
     expectedSeats := some 32 } : VerdictInputs).withEvidence
    [.graph (electionRow 24), .graph (electionRow 32)] none ∅

theorem electionConflict_hits (seats : ℤ) (h : seats = 24 ∨ seats = 32) : electionRow seats ∈
    graphHits electionConflict.claimType electionConflict.rankedEvidence := by
  refine (graphHits_rerank _ _ _).mem_iff.2 (List.mem_filter.2 ⟨?_, rfl⟩)
  rcases h with rfl | rfl
  · exact List.mem_cons_self
  · exact List.mem_cons_of_mem _ List.mem_cons_self

theorem electionConflict_passes : ∃ confidence, PassesThreshold electionConflict confidence := by
  have hmem : Evidence.graph (electionRow 24) ∈
      [Evidence.graph (electionRow 24), .graph (electionRow 32)] := List.mem_cons_self
  obtain ⟨confidence, hconf, hover⟩ := tier1_row_confident none ∅ hmem rfl rfl
  exact ⟨confidence, hconf, fun hnil => List.ne_nil_of_mem hmem (rerank_eq_nil.1 hnil), hover⟩

theorem electionConflict_conflict :
    Conflict electionConflict (electionRow 32) (electionRow 24) :=
  Or.inl ⟨by decide, by decide⟩

/-- Two conflicting election results of Tier 1 are settled without review. -/
theorem conflict_unreviewed :
    (∃ confidence, PassesThreshold electionConflict confidence) ∧
      electionConflict.checkability = .checkable ∧
      electionConflict.claimType = .electionResult ∧
      electionRow 32 ∈ graphHits electionConflict.claimType electionConflict.rankedEvidence ∧
      electionRow 24 ∈ graphHits electionConflict.claimType electionConflict.rankedEvidence ∧
      (electionRow 32).sourceTier = 1 ∧ (electionRow 24).sourceTier = 1 ∧
      statusAlone electionConflict (electionRow 32) = .ok .supported ∧
      statusAlone electionConflict (electionRow 24) = .ok .contradicted ∧
      needsReview electionConflict = .ok false :=
  ⟨electionConflict_passes, rfl, rfl, electionConflict_hits 32 (Or.inr rfl),
    electionConflict_hits 24 (Or.inl rfl), rfl, rfl, by decide, by decide,
    by decide +kernel⟩

theorem conflict_review_election : ∃ confidence, PassesThreshold electionConflict confidence ∧
    (needsReview electionConflict = .ok true ↔
      (electionConflict.claimType = .voteCast ∧ electionConflict.expectedVoteValue ≠ none) ∨
        confidence.overall < humanReviewOverall) := by
  obtain ⟨confidence, hp⟩ := electionConflict_passes
  exact ⟨confidence, hp, conflict_review rfl (Or.inr (Or.inl rfl)) hp
    (electionConflict_hits 32 (Or.inr rfl)) (electionConflict_hits 24 (Or.inl rfl))
    electionConflict_conflict⟩

/-! ## Verdicts without Tier-1 evidence -/

/-- The confidence of the inputs is below the review threshold. -/
def LowConfidence (inputs : VerdictInputs) : Prop :=
  ∀ confidence, computeConfidence inputs.rankedEvidence = .ok confidence →
    confidence.overall < humanReviewOverall

/-- Every definite verdict without a Tier-1 item is flagged. -/
def Tier1OrReview (inputs : VerdictInputs) (evidences : List Evidence) : Prop :=
  ∀ o, decideVerdict inputs = .ok o → Definite o.status → o.needsHumanReview = false →
    ∃ e ∈ evidences, e.sourceTier = 1

def Supported (inputs : VerdictInputs) : Prop :=
  Supports inputs (graphHits inputs.claimType inputs.rankedEvidence)
    (lexCorroborations inputs.rankedEvidence)

def HasRelevant (inputs : VerdictInputs) : Prop :=
  Relevant inputs.claimType (graphHits inputs.claimType inputs.rankedEvidence)
    (lexCorroborations inputs.rankedEvidence)

theorem HasRelevant.nonempty (h : HasRelevant inputs) : inputs.rankedEvidence ≠ [] := by
  intro hnil
  unfold HasRelevant Relevant at h
  rw [hnil] at h
  cases hct : inputs.claimType <;> rw [hct] at h <;> simp [graphHits, lexCorroborations] at h

theorem abstainOverall_le_humanReviewOverall : abstainOverall ≤ humanReviewOverall := by
  decide +kernel

/-- Supporting evidence above the threshold gives the supported verdict, flagged by the
confidence alone. -/
theorem decideVerdict_supports {confidence : Confidence} (hc : inputs.checkability = .checkable)
    (hp : PassesThreshold inputs confidence) (hs : Supported inputs) :
    ∃ o, decideVerdict inputs = .ok o ∧ o.status = .supported ∧
      (o.needsHumanReview = true ↔ confidence.overall < humanReviewOverall) := by
  obtain ⟨r, hr⟩ := compare_isOk (Or.inl hs)
  have hst := (compare_supported hr).2 hs
  rw [decideVerdict_passes hc hp, hr]
  refine ⟨_, rfl, hst, ?_⟩
  change reviewFlag confidence.overall r.1 _ = true ↔ _
  rw [hst]
  exact reviewFlag_plain (by decide) (by decide)

theorem decideVerdict_not_relevant (hc : inputs.checkability = .checkable)
    (hconf : ∃ confidence, computeConfidence inputs.rankedEvidence = .ok confidence)
    (hrel : ¬HasRelevant inputs) :
    ∃ o, decideVerdict inputs = .ok o ∧ o.status = .insufficientEvidence := by
  obtain ⟨confidence, hconf⟩ := hconf
  by_cases hp : PassesThreshold inputs confidence
  · obtain ⟨r, hr⟩ := compare_isOk (Or.inr hrel)
    rw [decideVerdict_passes hc hp, hr]
    exact ⟨_, rfl, (compare_insufficient hr).2 hrel⟩
  · obtain ⟨o, ho, hst, -⟩ := decideVerdict_below hc hconf hp
    exact ⟨o, ho, hst⟩

/-- **An unflagged definite verdict** is supported by its evidence at high confidence, or rests
on a Tier-1 row. -/
theorem unflagged_definite {o : VerdictOutcome} (hc : inputs.checkability = .checkable)
    (ho : decideVerdict inputs = .ok o) (hdef : Definite o.status)
    (hflag : o.needsHumanReview = false) :
    (Supported inputs ∧ ¬LowConfidence inputs) ∨
      ∃ g ∈ graphHits inputs.claimType inputs.rankedEvidence, g.sourceTier = 1 := by
  rcases decideVerdict_ok hc ho with ⟨-, hrev, -⟩ | ⟨confidence, r, hp, hr, rfl⟩
  · rw [hrev] at hflag
    cases hflag
  change reviewFlag confidence.overall r.1 _ = false at hflag
  change Definite r.1 at hdef
  rcases compare_cases hr with ⟨-, hs⟩ | ⟨hst, -⟩ | ⟨hst, -⟩ | ⟨hst, hne, -⟩
  · refine Or.inl ⟨hs, fun hlow => ?_⟩
    rw [reviewFlag_low _ (hlow confidence hp.computed)] at hflag
    cases hflag
  · rw [hst] at hdef
    rcases hdef with hd | hd | hd <;> cases hd
  · rw [hst, reviewFlag_mixed] at hflag
    cases hflag
  · rw [hst] at hflag
    exact Or.inr (reviewFlag_contradicted hne hflag)

theorem graph_mem_of_hit {evidences : List Evidence} {ct : ClaimType} {scope : Option TimeScope}
    {ids : Dict String} {g : GraphEvidence} (hg : g ∈ graphHits ct (rerank evidences ct scope ids)) :
    Evidence.graph g ∈ evidences := by
  rw [(graphHits_rerank _ _ _).mem_iff, List.mem_filter, List.mem_filterMap] at hg
  obtain ⟨⟨e, he, heg⟩, -⟩ := hg
  cases e with
  | graph g' =>
    cases heg
    exact he
  | lexical l => cases heg

/-- **When definite verdicts without Tier-1 evidence are all flagged**: a Tier-1 item is there,
or the confidence is below the review threshold, or the evidence does not support the claim. -/
theorem tier1_review (hc : inputs.checkability = .checkable) (evidences : List Evidence)
    (scope : Option TimeScope) (ids : Dict String) :
    Tier1OrReview (inputs.withEvidence evidences scope ids) evidences ↔
      (∃ e ∈ evidences, e.sourceTier = 1) ∨
        LowConfidence (inputs.withEvidence evidences scope ids) ∨
        ¬Supported (inputs.withEvidence evidences scope ids) := by
  have hc' : (inputs.withEvidence evidences scope ids).checkability = .checkable := hc
  constructor
  · intro h
    by_contra hno
    rw [not_or, not_or, not_not] at hno
    obtain ⟨hno1, hlow, hs⟩ := hno
    unfold LowConfidence at hlow
    push Not at hlow
    obtain ⟨confidence, hconf, hhigh⟩ := hlow
    have hp : PassesThreshold (inputs.withEvidence evidences scope ids) confidence :=
      ⟨hconf, HasRelevant.nonempty hs.relevant, le_trans abstainOverall_le_humanReviewOverall hhigh⟩
    -- supported at high confidence is not flagged
    obtain ⟨o, ho, hst, hflag⟩ := decideVerdict_supports hc' hp hs
    exact hno1 (h o ho (Or.inl hst) (Bool.eq_false_iff.2 (mt hflag.1 (not_lt.2 hhigh))))
  · intro h o ho hdef hflag
    rcases unflagged_definite hc' ho hdef hflag with ⟨hs, hlow⟩ | ⟨g, hg, ht⟩
    · rcases h with h | h | h
      · exact h
      · exact absurd h hlow
      · exact absurd hs h
    · exact ⟨.graph g, graph_mem_of_hit hg, ht⟩

def snippetFrom (document : String) (tier : ℤ) : Evidence :=
  .lexical ⟨document, document, "Dana Levi sponsored the water bill", tier, ∅⟩

def sponsored : VerdictInputs where
  claimId := "c1"
  claimType := .billSponsorship
  checkability := .checkable

def tier2Snippets : List Evidence := [snippetFrom "d1" 2, snippetFrom "d2" 2, snippetFrom "d3" 2]

/-- Three Tier-2 snippets support a sponsorship claim without review. -/
theorem tier1_review_fails :
    verdictStatus (sponsored.withEvidence tier2Snippets none ∅) = .ok .supported ∧
      needsReview (sponsored.withEvidence tier2Snippets none ∅) = .ok false ∧
      ∀ e ∈ tier2Snippets, e.sourceTier ≠ 1 :=
  ⟨by decide +kernel, by decide +kernel, by decide⟩

theorem tier1_review_snippets :
    Tier1OrReview (sponsored.withEvidence tier2Snippets none ∅) tier2Snippets ↔
      (∃ e ∈ tier2Snippets, e.sourceTier = 1) ∨
        LowConfidence (sponsored.withEvidence tier2Snippets none ∅) ∨
        ¬Supported (sponsored.withEvidence tier2Snippets none ∅) :=
  tier1_review rfl tier2Snippets none ∅

/-! ## Abstentions -/

/-- Every abstention for lack of evidence is flagged. -/
def AbstentionReviewed (inputs : VerdictInputs) : Prop :=
  ∀ o, decideVerdict inputs = .ok o → o.status = .insufficientEvidence → o.needsHumanReview = true

/-- **When abstentions are flagged**: there is no evidence at all, or the confidence is below the
review threshold, or some evidence bears on the claim, so that there is no abstention. -/
theorem abstention_review (hc : inputs.checkability = .checkable) :
    AbstentionReviewed inputs ↔
      inputs.rankedEvidence = [] ∨ LowConfidence inputs ∨ HasRelevant inputs := by
  constructor
  · intro h
    by_contra hno
    rw [not_or, not_or] at hno
    obtain ⟨hne, hlow, hrel⟩ := hno
    unfold LowConfidence at hlow
    push Not at hlow
    obtain ⟨confidence, hconf, hhigh⟩ := hlow
    have hp : PassesThreshold inputs confidence :=
      ⟨hconf, hne, le_trans abstainOverall_le_humanReviewOverall hhigh⟩
    -- the comparison abstains, and its flag is the confidence's
    obtain ⟨r, hr⟩ := compare_isOk (Or.inr hrel)
    have hst := (compare_insufficient hr).2 hrel
    have hdec := decideVerdict_passes hc hp
    rw [hr] at hdec
    have hflag : reviewFlag confidence.overall r.1 _ = true := h _ hdec hst
    rw [hst, reviewFlag_plain (by decide) (by decide)] at hflag
    exact absurd hflag (not_lt.2 hhigh)
  · intro h o ho hst
    rcases decideVerdict_ok hc ho with ⟨-, hrev, -⟩ | ⟨confidence, r, hp, hr, rfl⟩
    · exact hrev
    · rcases h with h | h | h
      · exact absurd h hp.nonempty
      · exact reviewFlag_low _ (h confidence hp.computed)
      · exact absurd h ((compare_insufficient hr).1 hst)

/-- A checkable vote claim with two Tier-1 snippets and no vote record. -/
def votedOnSnippets : VerdictInputs :=
  votedFor.withEvidence [snippetFrom "d1" 1, snippetFrom "d2" 1] none ∅

/-- It abstains without review. -/
theorem abstention_unreviewed :
    votedOnSnippets.checkability = .checkable ∧
      verdictStatus votedOnSnippets = .ok .insufficientEvidence ∧
      needsReview votedOnSnippets = .ok false :=
  ⟨rfl, by decide +kernel, by decide +kernel⟩

theorem abstention_review_snippets :
    AbstentionReviewed votedOnSnippets ↔
      votedOnSnippets.rankedEvidence = [] ∨ LowConfidence votedOnSnippets ∨
        HasRelevant votedOnSnippets :=
  abstention_review rfl

end CivicProof
