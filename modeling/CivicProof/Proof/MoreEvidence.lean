import CivicProof.Proof.Noninterference

/-!
# Confidence grows with the evidence

A further item can only add documents and raise the best score of an axis. The rubric is a
supremum, the weighted sum and the rounding keep the order, so the confidence grows with the
multiset of evidence. Without any evidence the verdict abstains for another reason.

* `scoreOf_mono`: more documents, no lower score.
* `abstainsLow_iff`: when a verdict abstains for low confidence.
* `confidence_mono`: the confidence of more evidence is no lower on any axis.
* `confidence_law`: the law of the rubric, and that an abstention does not come with evidence.
-/

namespace CivicProof

variable {evidences evidences' : List Evidence} {ct : ClaimType} {scope : Option TimeScope}
  {ids : Dict String}

/-! ## Scores -/

theorem crossSourceScore_mono {n n' : ℕ} (h : n ≤ n') : crossSourceScore n ≤ crossSourceScore n' := by
  unfold crossSourceScore
  split_ifs <;> first | omega | norm_num

/-- **More documents, no lower score.** -/
theorem scoreOf_mono {cross cross' : ℕ} (h : cross ≤ cross') (e : Evidence) :
    (scoreOf ct scope ids cross e).toAxes ≤ (scoreOf ct scope ids cross' e).toAxes :=
  Axes.le_def.2 ⟨le_rfl, le_rfl, le_rfl, le_rfl, crossSourceScore_mono h⟩

theorem crossSourceCount_mono (h : evidences.Subperm evidences') :
    crossSourceCount evidences ≤ crossSourceCount evidences' := by
  have hsub : (evidences.flatMap Evidence.documents).dedup ⊆
      (evidences'.flatMap Evidence.documents).dedup := by
    intro d hd
    rw [List.mem_dedup, List.mem_flatMap] at hd ⊢
    obtain ⟨e, he, hde⟩ := hd
    exact ⟨e, h.subset he, hde⟩
  exact (List.subperm_of_subset (List.nodup_dedup _) hsub).length_le

theorem bestAxes_mono (h : evidences.Subperm evidences') :
    bestAxes (rerank evidences ct scope ids) ≤ bestAxes (rerank evidences' ct scope ids) := by
  rw [bestAxes_le]
  refine ⟨zero_le_bestAxes _, fun s hs => ?_⟩
  obtain ⟨e, he, rfl⟩ := mem_rerank.1 hs
  exact (scoreOf_mono (crossSourceCount_mono h) e).trans
    (le_bestAxes (mem_rerank.2 ⟨e, h.subset he, rfl⟩))

/-! ## Confidence -/

/-- The axes of a confidence vector. -/
def Confidence.axes (c : Confidence) : Axes :=
  ⟨c.sourceAuthority, c.directness, c.temporalAlignment, c.entityResolution,
    c.crossSourceConsistency⟩

theorem asConfidence_eq {a : Axes} {c : Confidence} (h : a.asConfidence = .ok c) :
    c.axes = a ∧ c.overall = round4 (weightedSum a) := by
  unfold Axes.asConfidence Confidence.mk? at h
  split at h
  · cases h
    exact ⟨rfl, rfl⟩
  · cases h

/-- No item is scored above the confidence of the whole. -/
theorem overall_le_confidence {c : Confidence}
    (h : computeConfidence (rerank evidences ct scope ids) = .ok c) {s : RerankScore}
    (hs : s ∈ rerank evidences ct scope ids) : s.overall ≤ c.overall := by
  rw [(asConfidence_eq h).2]
  obtain ⟨e, he, rfl⟩ := mem_rerank.1 hs
  exact round4_mono (weightedSum_mono (le_bestAxes hs))

/-- **The confidence of more evidence** is no lower on any axis. -/
theorem confidence_mono (hsub : evidences.Subperm evidences') {c c' : Confidence}
    (h : computeConfidence (rerank evidences ct scope ids) = .ok c)
    (h' : computeConfidence (rerank evidences' ct scope ids) = .ok c') :
    c.axes ≤ c'.axes ∧ c.overall ≤ c'.overall := by
  obtain ⟨haxes, hover⟩ := asConfidence_eq h
  obtain ⟨haxes', hover'⟩ := asConfidence_eq h'
  have hbest : bestAxes (rerank evidences ct scope ids) ≤ bestAxes (rerank evidences' ct scope ids) :=
    bestAxes_mono hsub
  rw [haxes, haxes', hover, hover']
  exact ⟨hbest, round4_mono (weightedSum_mono hbest)⟩

/-! ## Abstentions for low confidence -/

/-- The entry of a trace that says that the confidence was too low. -/
def lowConfidence : String × Json := ("reason", .str "low_confidence")

/-- The verdict abstains for low confidence. -/
def AbstainsLow (inputs : VerdictInputs) : Prop :=
  ∃ o, decideVerdict inputs = .ok o ∧ ∃ r ∈ o.reasons, lowConfidence ∈ r

theorem compareVoteCast_trace {expected : Option String} {hits : List GraphEvidence}
    {r : Comparison} (h : compareVoteCast expected hits = .ok r) : lowConfidence ∉ r.2 := by
  unfold compareVoteCast at h
  dsimp only at h
  split at h
  · cases h
    simp [lowConfidence]
  split at h
  · cases h
    simp [lowConfidence]
  split_ifs at h
  · cases h
    simp [lowConfidence]
  · cases h
    simp [lowConfidence]
  · cases hsorted : sortedTruthy (recordedValues hits) with
    | error e =>
      rw [hsorted] at h
      cases h
    | ok values =>
      rw [hsorted] at h
      cases h
      simp [lowConfidence]

/-- No comparison writes it. -/
theorem compare_trace {inputs : VerdictInputs} {hits : List GraphEvidence} {lexHits : ℕ}
    {r : Comparison} (h : compare inputs hits lexHits = .ok r) : lowConfidence ∉ r.2 := by
  unfold compare at h
  cases hct : inputs.claimType <;> rw [hct] at h <;> dsimp only at h
  case voteCast => exact compareVoteCast_trace h
  all_goals cases h
  case electionResult =>
    unfold compareElectionResult
    split
    · simp [lowConfidence]
    split <;> simp [lowConfidence]
  case governmentDecision =>
    unfold compareGovernmentDecision
    split
    · simp [lowConfidence]
    split <;> simp [lowConfidence]
  case committeeAttendance =>
    unfold compareAttendance
    split_ifs <;> simp [lowConfidence]
  case statementAboutFormalAction =>
    unfold compareStatement
    split_ifs <;> simp [lowConfidence]
  all_goals
    unfold compareRecordOrText
    split_ifs <;> simp [lowConfidence]

/-- **When a verdict abstains for low confidence**: the claim is checkable, there is evidence, and
its confidence stays below the threshold. -/
theorem abstainsLow_iff (inputs : VerdictInputs) {c : Confidence}
    (hconf : computeConfidence inputs.rankedEvidence = .ok c) :
    AbstainsLow inputs ↔ inputs.checkability = .checkable ∧ inputs.rankedEvidence ≠ [] ∧
      c.overall < abstainOverall := by
  unfold AbstainsLow decideVerdict
  by_cases hc : inputs.checkability = .checkable
  swap
  · rw [if_pos hc]
    simp [hc, lowConfidence]
  rw [if_neg (not_not.2 hc)]
  by_cases hne : inputs.rankedEvidence = []
  · rw [if_pos hne]
    simp [hne, abstention, lowConfidence]
  rw [if_neg hne, hconf]
  change (∃ o, (if c.overall < abstainOverall then _ else _) = _ ∧ _) ↔ _
  by_cases hlow : c.overall < abstainOverall
  · rw [if_pos hlow]
    refine iff_of_true ⟨_, rfl, ?_⟩ ⟨hc, hne, hlow⟩
    exact ⟨_, List.mem_singleton_self _, List.mem_cons_of_mem _ List.mem_cons_self⟩
  · rw [if_neg hlow]
    refine iff_of_false ?_ fun h => hlow h.2.2
    rintro ⟨o, ho, r, hr, hmem⟩
    cases hcmp : compare inputs (graphHits inputs.claimType inputs.rankedEvidence)
        (lexCorroborations inputs.rankedEvidence) with
    | error e =>
      rw [hcmp] at ho
      cases ho
    | ok result =>
      rw [hcmp] at ho
      cases ho
      rw [List.mem_singleton.1 hr] at hmem
      exact compare_trace hcmp hmem

/-! ## The law -/

/-- What more evidence does to the confidence `c` of `evidences`. -/
structure ConfidenceLaw (ct : ClaimType) (scope : Option TimeScope) (ids : Dict String)
    (evidences evidences' : List Evidence) (c c' : Confidence) : Prop where
  computed : computeConfidence (rerank evidences ct scope ids) = .ok c
  computed' : computeConfidence (rerank evidences' ct scope ids) = .ok c'
  range : UnitRange c.overall
  items : ∀ s ∈ rerank evidences ct scope ids, s.overall ≤ c.overall
  order : ∀ l, evidences.Perm l → computeConfidence (rerank l ct scope ids) = .ok c
  axes : c.axes ≤ c'.axes
  overall : c.overall ≤ c'.overall

/-- A verdict on more evidence does not abstain for low confidence if it does not on less. -/
def StaysConfident (inputs : VerdictInputs) (scope : Option TimeScope) (ids : Dict String)
    (evidences evidences' : List Evidence) : Prop :=
  ¬AbstainsLow (inputs.withEvidence evidences scope ids) →
    ¬AbstainsLow (inputs.withEvidence evidences' scope ids)

/-- **Confidence is bounded and monotone**, and what is not abstained from on some evidence is not
on more. -/
theorem confidence_law (ct : ClaimType) (scope : Option TimeScope) (ids : Dict String)
    (evidences evidences' : List Evidence) (hsub : evidences.Subperm evidences') :
    (∃ c c', ConfidenceLaw ct scope ids evidences evidences' c c') ∧
      (evidences ≠ [] → ∀ inputs : VerdictInputs, inputs.claimType = ct →
        StaysConfident inputs scope ids evidences evidences') := by
  obtain ⟨c, hc, -⟩ := computeConfidence_rerank evidences ct scope ids
  obtain ⟨c', hc', -⟩ := computeConfidence_rerank evidences' ct scope ids
  obtain ⟨haxes, hover⟩ := confidence_mono hsub hc hc'
  constructor
  · refine ⟨c, c', hc, hc', c.range.2.2.2.2.2, fun s hs => overall_le_confidence hc hs, ?_, haxes,
      hover⟩
    intro l hl
    rw [← hc]
    exact computeConfidence_perm (rerank_perm_of_perm ct scope ids hl.symm)
  · rintro hne inputs rfl hstays hlow
    apply hstays
    obtain ⟨hcheck, -, hbelow⟩ := (abstainsLow_iff (inputs.withEvidence evidences' scope ids) hc').1 hlow
    exact (abstainsLow_iff (inputs.withEvidence evidences scope ids) hc).2
      ⟨hcheck, mt rerank_eq_nil.1 hne, hover.trans_lt hbelow⟩

/-- A snippet beside a vote. -/
theorem confidence_law_vote : (∃ c c', ConfidenceLaw .voteCast none ∅ [.graph voteFor]
      [.lexical snippet, .graph voteFor] c c') ∧ ([Evidence.graph voteFor] ≠ [] →
    ∀ inputs : VerdictInputs, inputs.claimType = .voteCast →
      StaysConfident inputs none ∅ [.graph voteFor] [.lexical snippet, .graph voteFor]) :=
  confidence_law .voteCast none ∅ [.graph voteFor] [.lexical snippet, .graph voteFor]
    (List.sublist_cons_self _ _).subperm

/-- A long snippet of the third tier. -/
def longSnippet : LexicalEvidence :=
  ⟨"s1", "d1", String.ofList (List.replicate 200 'a'), 3, ∅⟩

/-- **Without any evidence** the verdict abstains, but not for low confidence; the first snippet
found changes that. -/
theorem no_evidence_not_low : ¬∀ evidences evidences' : List Evidence,
    evidences.Subperm evidences' → StaysConfident votedFor none ∅ evidences evidences' := by
  intro hlaw
  have hstays := hlaw [] [.lexical longSnippet] (List.nil_sublist _).subperm
  obtain ⟨c, hc, -⟩ := computeConfidence_rerank [] votedFor.claimType none ∅
  obtain ⟨c', hc', hover⟩ :=
    computeConfidence_rerank [.lexical longSnippet] votedFor.claimType none ∅
  have hbelow : round4 (weightedSum
      (bestAxes (rerank [.lexical longSnippet] votedFor.claimType none ∅))) < abstainOverall := by
    decide +kernel
  refine hstays ?_ ?_
  · intro hlow
    exact ((abstainsLow_iff (votedFor.withEvidence [] none ∅) hc).1 hlow).2.1 rfl
  · refine (abstainsLow_iff (votedFor.withEvidence [.lexical longSnippet] none ∅) hc').2
      ⟨rfl, mt rerank_eq_nil.1 (List.cons_ne_nil _ _), hover ▸ hbelow⟩

end CivicProof
