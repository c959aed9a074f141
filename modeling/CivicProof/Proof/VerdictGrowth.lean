import CivicProof.Proof.MoreEvidence
import CivicProof.Proof.RowLimits

/-!
# Verdicts while evidence comes in

The pipeline is asked again about a claim as the graph and the index grow. Every further item can
only move the outcome up a short scale, which the claim type fixes: a record that fits overrides
those that do not, conflicting votes stay mixed, and what raised once raises until the expected
vote turns up.

* `compare_grows`: more rows and more snippets move a comparison up the scale.
* `verdict_grows`: more evidence moves the verdict up.
* `verdict_settles`: however the evidence comes in, the verdict changes a bounded number of times.
-/

namespace CivicProof

/-! ## Changes along a run -/

section Changes

variable {α : Type} [DecidableEq α] {f : ℕ → α} {level : α → ℕ} {n : ℕ}

/-- How often `f` changes among its first `n` steps. -/
def changes (f : ℕ → α) (n : ℕ) : ℕ := (List.range n).countP fun k => f k ≠ f (k + 1)

/-- Every change climbs by a level at least. -/
theorem changes_le_level (h : ∀ k, f k = f (k + 1) ∨ level (f k) < level (f (k + 1))) (n : ℕ) :
    changes f n + level (f 0) ≤ level (f n) := by
  induction n with
  | zero => simp [changes]
  | succ n ih =>
    have hsucc : changes f (n + 1) = changes f n + if f n ≠ f (n + 1) then 1 else 0 := by
      simp [changes, List.range_succ, List.countP_append, List.countP_cons]
    rw [hsucc]
    rcases h n with heq | hlt
    · rw [if_neg (not_not.2 heq), ← heq]
      exact ih
    · split_ifs <;> omega

end Changes

/-! ## The scale -/

/-- What the engine answers: a status, or an exception. -/
abbrev Answered := Except PyError Status

/-- How far evidence of a claim type has moved an answer. -/
def Answered.level (ct : ClaimType) : Answered → ℕ
  | .ok .nonCheckable => 0
  | .ok .insufficientEvidence => 0
  | .ok .contradicted => 1
  | .ok .mixed => if ct = .voteCast then 3 else 1
  | .ok .supported =>
    if ct = .electionResult ∨ ct = .governmentDecision ∨ ct = .committeeAttendance ∨
      ct = .statementAboutFormalAction then 2 else 1
  -- only votes raise, where the recorded values do not sort
  | .error _ => 2

/-- The top of the scale of a claim type. -/
def ClaimType.topLevel : ClaimType → ℕ
  | .voteCast => 3
  | .electionResult => 2
  | .governmentDecision => 2
  | .committeeAttendance => 2
  | .statementAboutFormalAction => 2
  | .billSponsorship => 1
  | .officeHeld => 1
  | .committeeMembership => 1

/-- The answer stays, or moves up the scale. -/
def Grows (ct : ClaimType) (a b : Answered) : Prop := a = b ∨ a.level ct < b.level ct

namespace Grows

variable {ct : ClaimType} {a b c : Answered}

theorem refl (a : Answered) : Grows ct a a := Or.inl rfl

theorem trans (hab : Grows ct a b) (hbc : Grows ct b c) : Grows ct a c := by
  rcases hab with rfl | hab
  · exact hbc
  rcases hbc with rfl | hbc
  · exact Or.inr hab
  · exact Or.inr (hab.trans hbc)

/-- An abstention is the bottom of the scale. -/
theorem of_abstained (hb : b ≠ .ok .nonCheckable) : Grows ct (.ok .insufficientEvidence) b := by
  unfold Grows
  rcases b with e | s
  · exact Or.inr (Nat.zero_lt_succ 1)
  cases s with
  | nonCheckable => exact absurd rfl hb
  | insufficientEvidence => exact Or.inl rfl
  | contradicted => exact Or.inr Nat.zero_lt_one
  | supported =>
    refine Or.inr ?_
    change 0 < if _ then 2 else 1
    split_ifs <;> omega
  | mixed =>
    refine Or.inr ?_
    change 0 < if _ then 3 else 1
    split_ifs <;> omega

end Grows

/-- The status of a comparison, or that it raises. -/
def comparedStatus (inputs : VerdictInputs) (hits : List GraphEvidence) (lexHits : ℕ) : Answered :=
  (compare inputs hits lexHits).map Prod.fst

/-- No comparison calls a claim not checkable. -/
theorem comparedStatus_checkable (inputs : VerdictInputs) (hits : List GraphEvidence)
    (lexHits : ℕ) : comparedStatus inputs hits lexHits ≠ .ok .nonCheckable := by
  unfold comparedStatus
  cases hr : compare inputs hits lexHits with
  | error e => exact nofun
  | ok r =>
    intro h
    have hs : r.1 = .nonCheckable := Except.ok.inj h
    rcases compare_cases hr with ⟨h', -⟩ | ⟨h', -⟩ | ⟨h', -⟩ | ⟨h', -⟩ <;> rw [h'] at hs <;> cases hs

/-! ## Votes -/

section Votes

variable {hits hits' : List GraphEvidence}

theorem mixesKinds_mono (hsub : hits ⊆ hits') (h : MixesKinds (recordedValues hits)) :
    MixesKinds (recordedValues hits') := by
  rw [mixesKinds_iff] at h ⊢
  obtain ⟨⟨g, hg, htext⟩, g', hg', hnumber⟩ := h
  exact ⟨⟨g, hsub hg, htext⟩, g', hsub hg', hnumber⟩

/-- More rows move a vote comparison up the scale. -/
theorem compareVoteCast_grows (expected : Option String) (hne : hits ≠ []) (hsub : hits ⊆ hits') :
    Grows .voteCast ((compareVoteCast expected hits).map Prod.fst)
      ((compareVoteCast expected hits').map Prod.fst) := by
  have hne' : hits' ≠ [] := fun h => hne (List.subset_nil.1 (h ▸ hsub))
  cases expected with
  | none =>
    refine Or.inl ?_
    unfold compareVoteCast
    rw [if_neg hne, if_neg hne']
  | some v =>
    have hmono : ∀ p : GraphEvidence → Bool, (∃ g ∈ hits, p g = true) → ∃ g ∈ hits', p g = true :=
      fun p ⟨g, hg, hp⟩ => ⟨g, hsub hg, hp⟩
    have hother : ¬(∃ g ∈ hits, recordsVote v g = true) → ∃ g ∈ hits, recordsOther v g = true := by
      intro hnone
      obtain ⟨g, hg⟩ := List.exists_mem_of_ne_nil hits hne
      refine ⟨g, hg, decide_eq_true fun hv => hnone ⟨g, hg, decide_eq_true hv⟩⟩
    rw [compareVoteCast_status hne, compareVoteCast_status hne']
    unfold voteStatus
    by_cases hv : ∃ g ∈ hits, recordsVote v g = true
    · rw [if_pos hv, if_pos (hmono _ hv)]
      by_cases ho : ∃ g ∈ hits, recordsOther v g = true
      · rw [if_pos ho, if_pos (hmono _ ho)]
        exact Grows.refl _
      · rw [if_neg ho]
        split_ifs
        · exact Or.inr (by decide)
        · exact Grows.refl _
    rw [if_neg hv]
    by_cases hv' : ∃ g ∈ hits', recordsVote v g = true
    · -- the rows that disagree are still there
      rw [if_pos hv', if_pos (hmono _ (hother hv))]
      split_ifs <;> exact Or.inr (by decide)
    rw [if_neg hv']
    by_cases hmix : MixesKinds (recordedValues hits)
    · rw [if_pos hmix, if_pos (mixesKinds_mono hsub hmix)]
      exact Grows.refl _
    · rw [if_neg hmix]
      split_ifs
      · exact Or.inr (by decide)
      · exact Grows.refl _

end Votes

/-! ## Any claim type -/

section Compared

variable {hits hits' : List GraphEvidence} {lexHits lexHits' : ℕ}

/-- A row that fits is not lost among others. -/
theorem rowStatus_grows {ok : GraphEvidence → Bool} (hne : hits ≠ []) (hsub : hits ⊆ hits') :
    rowStatus ok hits = rowStatus ok hits' ∨
      rowStatus ok hits = .contradicted ∧ rowStatus ok hits' = .supported := by
  have hne' : hits' ≠ [] := fun h => hne (List.subset_nil.1 (h ▸ hsub))
  rcases @rowStatus_cases ok hits with ⟨ha, g, hg, hok⟩ | ⟨-, hnil⟩ | ⟨ha, -, -⟩ <;>
    rcases @rowStatus_cases ok hits' with ⟨hb, -⟩ | ⟨-, hnil'⟩ | ⟨hb, -, hnone⟩
  · exact Or.inl (ha.trans hb.symm)
  · exact absurd hnil' hne'
  · exact absurd ⟨g, hsub hg, hok⟩ hnone
  · exact absurd hnil hne
  · exact absurd hnil hne
  · exact absurd hnil hne
  · exact Or.inr ⟨ha, hb⟩
  · exact absurd hnil' hne'
  · exact Or.inl (ha.trans hb.symm)

theorem compareRecordOrText_relevant (h : hits ≠ [] ∨ lexHits ≠ 0) :
    (compareRecordOrText hits lexHits).1 = .supported := by
  unfold compareRecordOrText
  split_ifs with h1 h2
  · rfl
  · rfl
  · exact absurd h (not_or.2 ⟨h1, h2⟩)

theorem compareStatement_grows (hpos : lexHits ≠ 0) (hle : lexHits ≤ lexHits') :
    (compareStatement lexHits).1 = (compareStatement lexHits').1 ∨
      (compareStatement lexHits).1 = .mixed ∧ (compareStatement lexHits').1 = .supported := by
  unfold compareStatement
  split_ifs <;> first | omega | simp

/-- **More rows and more snippets move a comparison up the scale.** -/
theorem compare_grows {inputs : VerdictInputs} (hsub : hits ⊆ hits') (hle : lexHits ≤ lexHits') :
    Grows inputs.claimType (comparedStatus inputs hits lexHits)
      (comparedStatus inputs hits' lexHits') := by
  by_cases hrel : Relevant inputs.claimType hits lexHits
  swap
  · -- nothing bore on the claim so far
    obtain ⟨r, hr⟩ : ∃ r, compare inputs hits lexHits = .ok r := compare_isOk (Or.inr hrel)
    have ha : comparedStatus inputs hits lexHits = .ok .insufficientEvidence := by
      unfold comparedStatus
      rw [hr, ← (compare_insufficient hr).2 hrel]
      rfl
    rw [ha]
    exact Grows.of_abstained (comparedStatus_checkable _ _ _)
  have hok : ∀ {c c' : Comparison}, c.1 = c'.1 ∨ Answered.level inputs.claimType (.ok c.1) <
      Answered.level inputs.claimType (.ok c'.1) →
        Grows inputs.claimType ((Except.ok c : Except PyError Comparison).map Prod.fst)
          ((Except.ok c').map Prod.fst) :=
    fun h => h.imp (congrArg Except.ok) id
  unfold comparedStatus compare
  unfold Relevant at hrel
  cases hct : inputs.claimType <;> rw [hct] at hrel hok <;> dsimp only at hrel ⊢
  case voteCast => exact compareVoteCast_grows _ hrel hsub
  case electionResult =>
    refine hok ?_
    rw [compareElectionResult_status, compareElectionResult_status]
    exact (rowStatus_grows hrel hsub).imp id fun ⟨ha, hb⟩ => by rw [ha, hb]; decide
  case governmentDecision =>
    refine hok ?_
    rw [compareGovernmentDecision_status, compareGovernmentDecision_status]
    exact (rowStatus_grows hrel hsub).imp id fun ⟨ha, hb⟩ => by rw [ha, hb]; decide
  case committeeAttendance =>
    refine hok ?_
    rw [compareAttendance_status, compareAttendance_status]
    exact (rowStatus_grows hrel hsub).imp id fun ⟨ha, hb⟩ => by rw [ha, hb]; decide
  case statementAboutFormalAction =>
    refine hok ?_
    exact (compareStatement_grows hrel hle).imp id fun ⟨ha, hb⟩ => by rw [ha, hb]; decide
  all_goals
    refine hok (Or.inl ?_)
    have hrel' : hits' ≠ [] ∨ lexHits' ≠ 0 :=
      hrel.imp (fun h hnil => h (List.subset_nil.1 (hnil ▸ hsub))) (by omega)
    rw [compareRecordOrText_relevant hrel, compareRecordOrText_relevant hrel']

end Compared

/-! ## The verdict -/

section

variable {evidences evidences' : List Evidence} {inputs : VerdictInputs} {scope : Option TimeScope}
  {ids : Dict String}

theorem graphHits_mono (h : evidences.Subperm evidences') :
    graphHits inputs.claimType (rerank evidences inputs.claimType scope ids) ⊆
      graphHits inputs.claimType (rerank evidences' inputs.claimType scope ids) := by
  intro g hg
  have hg' := (graphHits_rerank _ _ _).subset hg
  refine (graphHits_rerank _ _ _).symm.subset ?_
  exact List.filter_subset _ (List.filterMap_subset _ h.subset) hg'

/-- Past the threshold, more evidence is past it too. -/
theorem passesThreshold_mono (h : evidences.Subperm evidences') {c : Confidence}
    (hp : PassesThreshold (inputs.withEvidence evidences scope ids) c) :
    ∃ c', PassesThreshold (inputs.withEvidence evidences' scope ids) c' := by
  obtain ⟨c', hc', -⟩ := computeConfidence_rerank evidences' inputs.claimType scope ids
  have hne : evidences ≠ [] := mt rerank_eq_nil.2 hp.nonempty
  have hne' : evidences' ≠ [] := fun hnil => hne (List.subset_nil.1 (hnil ▸ h.subset))
  refine ⟨c', hc', mt rerank_eq_nil.1 hne', hp.overall.trans ?_⟩
  exact (confidence_mono h hp.computed hc').2

theorem verdictStatus_unchecked (hc : inputs.checkability ≠ .checkable)
    (evidences : List Evidence) (scope : Option TimeScope) (ids : Dict String) :
    verdictStatus (inputs.withEvidence evidences scope ids) = .ok .nonCheckable := by
  have hc' : (inputs.withEvidence evidences scope ids).checkability ≠ .checkable := hc
  unfold verdictStatus decideVerdict
  rw [if_pos hc']
  rfl

/-- **More evidence moves the verdict up the scale.** -/
theorem verdict_grows (h : evidences.Subperm evidences') :
    Grows inputs.claimType (verdictStatus (inputs.withEvidence evidences scope ids))
      (verdictStatus (inputs.withEvidence evidences' scope ids)) := by
  by_cases hc : inputs.checkability = .checkable
  swap
  · rw [verdictStatus_unchecked hc, verdictStatus_unchecked hc]
    exact Grows.refl _
  have hc₁ : (inputs.withEvidence evidences scope ids).checkability = .checkable := hc
  have hc₂ : (inputs.withEvidence evidences' scope ids).checkability = .checkable := hc
  obtain ⟨c, hconf, -⟩ := computeConfidence_rerank evidences inputs.claimType scope ids
  by_cases hp : PassesThreshold (inputs.withEvidence evidences scope ids) c
  · obtain ⟨c', hp'⟩ := passesThreshold_mono h hp
    rw [verdictStatus_passes hc₁ hp, verdictStatus_passes hc₂ hp']
    have hlex : lexCorroborations (rerank evidences inputs.claimType scope ids) ≤
        lexCorroborations (rerank evidences' inputs.claimType scope ids) := by
      rw [lexCorroborations_rerank, lexCorroborations_rerank]
      exact h.countP_le _
    exact compare_grows (graphHits_mono h) hlex
  · rw [verdictStatus_below hc₁ hconf hp]
    refine Grows.of_abstained ?_
    rcases verdictStatus_withEvidence hc evidences' scope ids with hb | hb <;> rw [hb]
    · exact nofun
    · exact comparedStatus_checkable inputs _ _

theorem level_le_top (ct : ClaimType) {a : Answered} (h : ct ≠ .voteCast → ∀ e, a ≠ .error e) :
    a.level ct ≤ ct.topLevel := by
  rcases a with e | s
  · have hct : ct = .voteCast := by
      by_contra hct
      exact h hct e rfl
    rw [hct]
    exact Nat.le_succ 2
  · cases s <;> cases ct <;> decide

/-- Only votes raise. -/
theorem verdictStatus_isOk (hct : inputs.claimType ≠ .voteCast) (e : PyError) :
    verdictStatus (inputs.withEvidence evidences scope ids) ≠ .error e := by
  by_cases hc : inputs.checkability = .checkable
  · rcases verdictStatus_withEvidence hc evidences scope ids with hb | hb <;> rw [hb]
    · exact nofun
    · unfold compare
      cases hct' : inputs.claimType <;> first | exact absurd hct' hct | exact nofun
  · rw [verdictStatus_unchecked hc]
    exact nofun

end

/-- **The verdict of a claim while evidence comes in.** Between any two moments the answer stays or
moves up the scale of the claim type, so it changes a bounded number of times: thrice for a vote,
twice where a fitting record overrides the others, once for the types that any support settles. -/
theorem verdict_settles (inputs : VerdictInputs) (scope : Option TimeScope) (ids : Dict String)
    (found : ℕ → List Evidence) (hfound : ∀ k, (found k).Subperm (found (k + 1))) :
    (∀ m n, m ≤ n → Grows inputs.claimType
        (verdictStatus (inputs.withEvidence (found m) scope ids))
        (verdictStatus (inputs.withEvidence (found n) scope ids))) ∧
      ∀ n, changes (fun k => verdictStatus (inputs.withEvidence (found k) scope ids)) n ≤
        inputs.claimType.topLevel := by
  constructor
  · intro m n hmn
    refine verdict_grows ?_
    induction n, hmn using Nat.le_induction with
    | base => exact List.Subperm.refl _
    | succ n _ ih => exact ih.trans (hfound n)
  · intro n
    let answer : ℕ → Answered := fun k => verdictStatus (inputs.withEvidence (found k) scope ids)
    have hclimb : changes answer n + (answer 0).level _ ≤ (answer n).level inputs.claimType :=
      changes_le_level (fun k => verdict_grows (hfound k)) n
    have htop : (answer n).level inputs.claimType ≤ inputs.claimType.topLevel :=
      level_le_top inputs.claimType fun hct e => verdictStatus_isOk hct e
    exact (Nat.le_add_right _ _).trans (hclimb.trans htop)

/-- The same vote found again and again. -/
theorem verdict_settles_votes : (∀ m n, m ≤ n → Grows votedFor.claimType
      (verdictStatus (votedFor.withEvidence (List.replicate m (.graph voteFor)) none ∅))
      (verdictStatus (votedFor.withEvidence (List.replicate n (.graph voteFor)) none ∅))) ∧
    ∀ n, changes (fun k =>
      verdictStatus (votedFor.withEvidence (List.replicate k (.graph voteFor)) none ∅)) n ≤
        votedFor.claimType.topLevel :=
  verdict_settles votedFor none ∅ (fun k => List.replicate k (.graph voteFor)) fun k =>
    (List.sublist_cons_self (Evidence.graph voteFor) (List.replicate k (.graph voteFor))).subperm

end CivicProof
