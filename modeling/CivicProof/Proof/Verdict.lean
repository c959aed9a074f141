import CivicProof.Proof.Confidence

/-!
# When each status comes about

The comparison rules of the engine, read as conditions on the evidence: which evidence
supports a claim, which bears on it at all, and what a comparison does not look at.

* `compare_cases`: the four outcomes of a comparison, with the evidence behind each.
* `compare_supported`: a comparison supports a claim iff the evidence does.
* `compare_insufficient`: it abstains iff no evidence of the right kind is there.
* `compare_status_perm`: for record-based claims its status is a function of the set of graph
  rows.
-/

namespace CivicProof

def voteValue (g : GraphEvidence) : Value := g.properties.prop "vote_value"

/-- **The evidence supports the claim.** -/
def Supports (inputs : VerdictInputs) (hits : List GraphEvidence) (lexHits : ℕ) : Prop :=
  match inputs.claimType with
  | .voteCast =>
    hits ≠ [] ∧ ∀ v, inputs.expectedVoteValue = some v → ∀ g ∈ hits, voteValue g = .str v
  | .electionResult =>
    ∃ g ∈ hits, electionRowOk inputs.expectedSeats inputs.expectPassedThreshold g = true
  | .governmentDecision => ∃ g ∈ hits, decisionRowOk inputs.governmentDecisionId g = true
  | .billSponsorship => hits ≠ [] ∨ lexHits ≠ 0
  | .officeHeld => hits ≠ [] ∨ lexHits ≠ 0
  | .committeeMembership => hits ≠ [] ∨ lexHits ≠ 0
  | .committeeAttendance => ∃ g ∈ hits, isPresent g = true
  | .statementAboutFormalAction => 2 ≤ lexHits

/-- **Some evidence bears on the claim**: a graph row of its type, or a snippet where the
claim type admits text. -/
def Relevant (ct : ClaimType) (hits : List GraphEvidence) (lexHits : ℕ) : Prop :=
  match ct with
  | .voteCast => hits ≠ []
  | .electionResult => hits ≠ []
  | .governmentDecision => hits ≠ []
  | .committeeAttendance => hits ≠ []
  | .billSponsorship => hits ≠ [] ∨ lexHits ≠ 0
  | .officeHeld => hits ≠ [] ∨ lexHits ≠ 0
  | .committeeMembership => hits ≠ [] ∨ lexHits ≠ 0
  | .statementAboutFormalAction => lexHits ≠ 0

/-! ## Recorded vote values -/

section VoteCast

variable {hits hits' : List GraphEvidence} {v : String}

theorem Value.key_eq_str {x : Value} : x.key = .str v ↔ x = .str v := by
  cases x <;> simp [Value.key]

theorem str_mem_recordedValues :
    .str v ∈ recordedValues hits ↔ ∃ g ∈ hits, voteValue g = .str v := by
  unfold recordedValues
  rw [List.mem_dedup, List.mem_map]
  exact exists_congr fun g => and_congr_right fun _ => Value.key_eq_str

theorem recordedValues_perm (h : hits.Perm hits') :
    (recordedValues hits).Perm (recordedValues hits') :=
  (h.map _).dedup

/-- The recorded set is the singleton of the expected value iff there are rows and all of
them record it. -/
theorem recordedValues_singleton :
    recordedValues hits = [.str v] ↔ hits ≠ [] ∧ ∀ g ∈ hits, voteValue g = .str v := by
  constructor
  · intro h
    constructor
    · rintro rfl
      cases h
    · intro g hg
      have hmem : (voteValue g).key ∈ recordedValues hits :=
        List.mem_dedup.2 (List.mem_map.2 ⟨g, hg, rfl⟩)
      rw [h, List.mem_singleton] at hmem
      exact Value.key_eq_str.1 hmem
  · rintro ⟨hne, hall⟩
    have hrep : hits.map (fun g => (voteValue g).key) = List.replicate hits.length (.str v) := by
      refine List.eq_replicate_iff.2 ⟨List.length_map _, fun x hx => ?_⟩
      obtain ⟨g, hg, rfl⟩ := List.mem_map.1 hx
      exact Value.key_eq_str.2 (hall g hg)
    change (hits.map fun g => (voteValue g).key).dedup = _
    rw [hrep]
    exact List.replicate_dedup (by rwa [ne_eq, List.length_eq_zero_iff])

theorem perm_eq_nil {α : Type} {l l' : List α} (h : l.Perm l') : l = [] ↔ l' = [] := by
  rw [← List.length_eq_zero_iff, h.length_eq, List.length_eq_zero_iff]

theorem sortedTruthy_perm {l l' : List Value} (h : l.Perm l') :
    (sortedTruthy l).map (fun _ => ()) = (sortedTruthy l').map fun _ => () := by
  have htexts := perm_eq_nil ((h.filter Value.truthy).filterMap Value.text?)
  have hnumbers := perm_eq_nil
    (((h.filter Value.truthy).filter fun v => v.text? = none).filterMap Value.toInt)
  have hiff := and_congr (not_congr htexts) (not_congr hnumbers)
  unfold sortedTruthy
  dsimp only
  split_ifs with h1 h2 h2
  · rfl
  · exact absurd (hiff.1 h1) h2
  · exact absurd (hiff.2 h2) h1
  · rfl

theorem compareVoteCast_perm (expected : Option String) (h : hits.Perm hits') :
    (compareVoteCast expected hits).map Prod.fst = (compareVoteCast expected hits').map Prod.fst := by
  have hrec := recordedValues_perm h
  unfold compareVoteCast
  by_cases hnil : hits = []
  · rw [if_pos hnil, if_pos ((perm_eq_nil h).1 hnil)]
  rw [if_neg hnil, if_neg (mt (perm_eq_nil h).2 hnil)]
  cases expected with
  | none => rfl
  | some v =>
    dsimp only
    have hone : recordedValues hits = [.str v] ↔ recordedValues hits' = [.str v] :=
      ⟨fun hs => List.perm_singleton.1 (hs ▸ hrec).symm, fun hs => List.perm_singleton.1 (hs ▸ hrec)⟩
    by_cases hs : recordedValues hits = [.str v]
    · rw [if_pos hs, if_pos (hone.1 hs)]
    rw [if_neg hs, if_neg (mt hone.2 hs)]
    have htwo : .str v ∈ recordedValues hits ∧ 1 < (recordedValues hits).length ↔
        .str v ∈ recordedValues hits' ∧ 1 < (recordedValues hits').length := by
      rw [hrec.mem_iff, hrec.length_eq]
    by_cases hm : .str v ∈ recordedValues hits ∧ 1 < (recordedValues hits).length
    · rw [if_pos hm, if_pos (htwo.1 hm)]
      rfl
    rw [if_neg hm, if_neg (mt htwo.2 hm)]
    -- the comparison contradicts, unless its trace cannot be sorted
    have hsort := sortedTruthy_perm hrec
    cases hl : sortedTruthy (recordedValues hits) with
    | error e =>
      rw [hl] at hsort
      cases hl' : sortedTruthy (recordedValues hits') with
      | error e' =>
        rw [hl'] at hsort
        cases hsort
        rfl
      | ok r' =>
        rw [hl'] at hsort
        cases hsort
    | ok r =>
      rw [hl] at hsort
      cases hl' : sortedTruthy (recordedValues hits') with
      | error e' =>
        rw [hl'] at hsort
        cases hsort
      | ok r' => rfl

theorem one_lt_recordedValues (hmem : .str v ∈ recordedValues hits)
    (hs : recordedValues hits ≠ [.str v]) : 1 < (recordedValues hits).length := by
  by_contra hle
  have hpos := List.length_pos_of_mem hmem
  obtain ⟨x, hx⟩ := List.length_eq_one_iff.1 (le_antisymm (not_lt.1 hle) hpos)
  rw [hx, List.mem_singleton] at hmem
  exact hs (hmem ▸ hx)

theorem compareVoteCast_isOk {expected : Option String}
    (h : ∀ w, expected = some w → ∃ g ∈ hits, voteValue g = .str w) :
    ∃ r, compareVoteCast expected hits = .ok r := by
  unfold compareVoteCast
  by_cases hnil : hits = []
  · rw [if_pos hnil]
    exact ⟨_, rfl⟩
  rw [if_neg hnil]
  cases expected with
  | none => exact ⟨_, rfl⟩
  | some w =>
    have hmem := str_mem_recordedValues.2 (h w rfl)
    dsimp only
    by_cases hs : recordedValues hits = [.str w]
    · rw [if_pos hs]
      exact ⟨_, rfl⟩
    · rw [if_neg hs, if_pos ⟨hmem, one_lt_recordedValues hmem hs⟩]
      exact ⟨_, rfl⟩

/-- The statuses of a vote comparison. -/
theorem compareVoteCast_cases {expected : Option String} {r : Comparison}
    (h : compareVoteCast expected hits = .ok r) :
    (hits = [] ∧ r.1 = .insufficientEvidence) ∨
      (hits ≠ [] ∧ (∀ v, expected = some v → ∀ g ∈ hits, voteValue g = .str v) ∧
        r.1 = .supported) ∨
      (hits ≠ [] ∧ (∃ v, expected = some v ∧ (∃ g ∈ hits, voteValue g = .str v) ∧
        ∃ g ∈ hits, voteValue g ≠ .str v) ∧ r.1 = .mixed) ∨
      (hits ≠ [] ∧ (∃ v, expected = some v ∧ ∀ g ∈ hits, voteValue g ≠ .str v) ∧
        r.1 = .contradicted) := by
  unfold compareVoteCast at h
  by_cases hnil : hits = []
  · rw [if_pos hnil] at h
    cases h
    exact Or.inl ⟨hnil, rfl⟩
  rw [if_neg hnil] at h
  refine Or.inr ?_
  cases expected with
  | none =>
    cases h
    exact Or.inl ⟨hnil, fun v hv => (Option.some_ne_none v hv.symm).elim, rfl⟩
  | some v =>
    dsimp only at h
    by_cases hs : recordedValues hits = [.str v]
    · rw [if_pos hs] at h
      cases h
      refine Or.inl ⟨hnil, fun w hw => ?_, rfl⟩
      cases hw
      exact (recordedValues_singleton.1 hs).2
    rw [if_neg hs] at h
    -- some row disagrees; the set of values tells whether another agrees
    have hother : ∃ g ∈ hits, voteValue g ≠ .str v := by
      by_contra hall
      push Not at hall
      exact hs (recordedValues_singleton.2 ⟨hnil, hall⟩)
    by_cases hm : .str v ∈ recordedValues hits ∧ 1 < (recordedValues hits).length
    · rw [if_pos hm] at h
      cases h
      exact Or.inr (Or.inl ⟨hnil, ⟨v, rfl, str_mem_recordedValues.1 hm.1, hother⟩, rfl⟩)
    rw [if_neg hm] at h
    have hnone : ∀ g ∈ hits, voteValue g ≠ .str v := by
      intro g hg hv
      have hmem := str_mem_recordedValues.2 ⟨g, hg, hv⟩
      exact hm ⟨hmem, one_lt_recordedValues hmem hs⟩
    cases hsort : sortedTruthy (recordedValues hits) with
    | error e =>
      rw [hsort] at h
      cases h
    | ok values =>
      rw [hsort] at h
      cases h
      exact Or.inr (Or.inr ⟨hnil, ⟨v, rfl, hnone⟩, rfl⟩)

end VoteCast

/-! ## Row by row comparisons -/

/-- The status of a comparison that looks for one row that passes a test. -/
def rowStatus (ok : GraphEvidence → Bool) (hits : List GraphEvidence) : Status :=
  if hits = [] then .insufficientEvidence
  else if ∃ g ∈ hits, ok g = true then .supported else .contradicted

section Rows

variable {ok : GraphEvidence → Bool} {hits hits' : List GraphEvidence}

theorem rowStatus_cases :
    (rowStatus ok hits = .supported ∧ ∃ g ∈ hits, ok g = true) ∨
      (rowStatus ok hits = .insufficientEvidence ∧ hits = []) ∨
      (rowStatus ok hits = .contradicted ∧ hits ≠ [] ∧ ¬∃ g ∈ hits, ok g = true) := by
  unfold rowStatus
  split_ifs with hnil h
  · exact Or.inr (Or.inl ⟨rfl, hnil⟩)
  · exact Or.inl ⟨rfl, h⟩
  · exact Or.inr (Or.inr ⟨rfl, hnil, h⟩)

theorem rowStatus_perm (h : hits.Perm hits') : rowStatus ok hits = rowStatus ok hits' := by
  have hex : (∃ g ∈ hits, ok g = true) ↔ ∃ g ∈ hits', ok g = true :=
    exists_congr fun g => by rw [h.mem_iff]
  unfold rowStatus
  simp only [perm_eq_nil h, hex]

theorem find?_rows {r₁ : GraphEvidence → Comparison} {r₂ : Comparison} (hnil : hits ≠ [])
    (h1 : ∀ g, (r₁ g).1 = .supported) (h2 : r₂.1 = .contradicted) :
    (match hits.find? ok with | some g => r₁ g | none => r₂).1 = rowStatus ok hits := by
  unfold rowStatus
  rw [if_neg hnil]
  cases hf : hits.find? ok with
  | none =>
    have hnone := List.find?_eq_none.1 hf
    rw [if_neg (by push Not; exact hnone)]
    exact h2
  | some g =>
    rw [if_pos ⟨g, List.mem_of_find?_eq_some hf, List.find?_some hf⟩]
    exact h1 g

theorem compareElectionResult_status (seats : Option ℤ) (passed : Option Bool) :
    (compareElectionResult seats passed hits).1 = rowStatus (electionRowOk seats passed) hits := by
  unfold compareElectionResult
  by_cases hnil : hits = []
  · rw [if_pos hnil, rowStatus, if_pos hnil]
  · rw [if_neg hnil]
    exact find?_rows hnil (fun _ => rfl) rfl

theorem compareGovernmentDecision_status (id : Option String) :
    (compareGovernmentDecision id hits).1 = rowStatus (decisionRowOk id) hits := by
  unfold compareGovernmentDecision
  by_cases hnil : hits = []
  · rw [if_pos hnil, rowStatus, if_pos hnil]
  · rw [if_neg hnil]
    exact find?_rows hnil (fun _ => rfl) rfl

theorem compareAttendance_status : (compareAttendance hits).1 = rowStatus isPresent hits := by
  unfold compareAttendance rowStatus
  have hex : hits.filter isPresent ≠ [] ↔ ∃ g ∈ hits, isPresent g = true := by
    rw [ne_eq, List.filter_eq_nil_iff]
    push Not
    rfl
  simp only [hex]
  split_ifs <;> rfl

end Rows

/-! ## Any claim type -/

section Compare

variable {inputs : VerdictInputs} {hits hits' : List GraphEvidence} {lexHits lexHits' : ℕ}
  {r : Comparison}

theorem Supports.relevant (h : Supports inputs hits lexHits) :
    Relevant inputs.claimType hits lexHits := by
  unfold Supports at h
  unfold Relevant
  cases hct : inputs.claimType <;> rw [hct] at h <;> dsimp only at h ⊢
  case voteCast => exact h.1
  case electionResult | governmentDecision | committeeAttendance =>
    obtain ⟨g, hg, -⟩ := h
    exact List.ne_nil_of_mem hg
  case statementAboutFormalAction => omega
  all_goals exact h

/-- **The four outcomes of a comparison**, and the evidence behind each. -/
theorem compare_cases (h : compare inputs hits lexHits = .ok r) :
    (r.1 = .supported ∧ Supports inputs hits lexHits) ∨
      (r.1 = .insufficientEvidence ∧ ¬Relevant inputs.claimType hits lexHits) ∨
      (r.1 = .mixed ∧ Relevant inputs.claimType hits lexHits ∧ ¬Supports inputs hits lexHits) ∨
      (r.1 = .contradicted ∧ hits ≠ [] ∧ Relevant inputs.claimType hits lexHits ∧
        ¬Supports inputs hits lexHits) := by
  unfold compare at h
  unfold Supports Relevant
  cases hct : inputs.claimType <;> rw [hct] at h <;> dsimp only at h ⊢
  case voteCast =>
    rcases compareVoteCast_cases h with ⟨hnil, hr⟩ | ⟨hnil, hall, hr⟩ |
      ⟨hnil, ⟨v, hv, -, g, hg, hne⟩, hr⟩ | ⟨hnil, ⟨v, hv, hnone⟩, hr⟩
    · exact Or.inr (Or.inl ⟨hr, not_not.2 hnil⟩)
    · exact Or.inl ⟨hr, hnil, hall⟩
    · exact Or.inr (Or.inr (Or.inl ⟨hr, hnil, fun hs => hne (hs.2 v hv g hg)⟩))
    · refine Or.inr (Or.inr (Or.inr ⟨hr, hnil, hnil, fun hs => ?_⟩))
      obtain ⟨g, hg⟩ := List.exists_mem_of_ne_nil hits hnil
      exact hnone g hg (hs.2 v hv g hg)
  case statementAboutFormalAction =>
    cases h
    unfold compareStatement
    split_ifs with h2 h1
    · exact Or.inl ⟨rfl, h2⟩
    · exact Or.inr (Or.inr (Or.inl ⟨rfl, by omega, h2⟩))
    · exact Or.inr (Or.inl ⟨rfl, by omega⟩)
  case electionResult | governmentDecision | committeeAttendance =>
    cases h
    simp only [compareElectionResult_status, compareGovernmentDecision_status,
      compareAttendance_status]
    rcases rowStatus_cases with ⟨hr, hs⟩ | ⟨hr, hnil⟩ | ⟨hr, hne, hs⟩
    · exact Or.inl ⟨hr, hs⟩
    · exact Or.inr (Or.inl ⟨hr, not_not.2 hnil⟩)
    · exact Or.inr (Or.inr (Or.inr ⟨hr, hne, hne, hs⟩))
  all_goals
    cases h
    unfold compareRecordOrText
    split_ifs with h1 h2
    · exact Or.inl ⟨rfl, Or.inl h1⟩
    · exact Or.inl ⟨rfl, Or.inr h2⟩
    · exact Or.inr (Or.inl ⟨rfl, not_or.2 ⟨h1, h2⟩⟩)

/-- **A comparison supports a claim iff the evidence does.** -/
theorem compare_supported (h : compare inputs hits lexHits = .ok r) :
    r.1 = .supported ↔ Supports inputs hits lexHits := by
  rcases compare_cases h with ⟨hr, hs⟩ | ⟨hr, hn⟩ | ⟨hr, -, hs⟩ | ⟨hr, -, -, hs⟩
  · exact iff_of_true hr hs
  · exact iff_of_false (by rw [hr]; decide) fun hs => hn hs.relevant
  · exact iff_of_false (by rw [hr]; decide) hs
  · exact iff_of_false (by rw [hr]; decide) hs

/-- **It abstains iff nothing there bears on the claim.** -/
theorem compare_insufficient (h : compare inputs hits lexHits = .ok r) :
    r.1 = .insufficientEvidence ↔ ¬Relevant inputs.claimType hits lexHits := by
  rcases compare_cases h with ⟨hr, hs⟩ | ⟨hr, hn⟩ | ⟨hr, hrel, -⟩ | ⟨hr, -, hrel, -⟩
  · exact iff_of_false (by rw [hr]; decide) (not_not.2 hs.relevant)
  · exact iff_of_true hr hn
  · exact iff_of_false (by rw [hr]; decide) (not_not.2 hrel)
  · exact iff_of_false (by rw [hr]; decide) (not_not.2 hrel)

/-- Evidence that supports a claim, and evidence that does not bear on it, never make the
comparison raise. -/
theorem compare_isOk (h : Supports inputs hits lexHits ∨ ¬Relevant inputs.claimType hits lexHits) :
    ∃ r, compare inputs hits lexHits = .ok r := by
  unfold Supports Relevant at h
  unfold compare
  cases hct : inputs.claimType <;> rw [hct] at h <;> dsimp only at h ⊢
  case voteCast =>
    rcases h with ⟨hne, hall⟩ | hnil
    · obtain ⟨g, hg⟩ := List.exists_mem_of_ne_nil hits hne
      exact compareVoteCast_isOk fun w hw => ⟨g, hg, hall w hw g hg⟩
    · unfold compareVoteCast
      rw [if_pos (not_not.1 hnil)]
      exact ⟨_, rfl⟩
  all_goals exact ⟨_, rfl⟩

/-- The claim types whose verdict rests on formal records alone. -/
def RecordBased (ct : ClaimType) : Prop :=
  ct = .voteCast ∨ ct = .electionResult ∨ ct = .governmentDecision ∨ ct = .committeeAttendance

theorem compareRecordOrText_perm (h : hits.Perm hits') :
    (compareRecordOrText hits lexHits).1 = (compareRecordOrText hits' lexHits).1 := by
  unfold compareRecordOrText
  by_cases hnil : hits = []
  · rw [if_neg (not_not.2 hnil), if_neg (not_not.2 ((perm_eq_nil h).1 hnil))]
  · rw [if_pos hnil, if_pos (mt (perm_eq_nil h).2 hnil)]

/-- **The status depends on the set of graph rows only**, not on their order, and for
record-based claims not on the number of snippets either. -/
theorem compare_status_perm (hlex : RecordBased inputs.claimType ∨ lexHits = lexHits')
    (h : hits.Perm hits') :
    (compare inputs hits lexHits).map Prod.fst = (compare inputs hits' lexHits').map Prod.fst := by
  have hok : ∀ {c c' : Comparison}, c.1 = c'.1 →
      (Except.ok c : Except PyError Comparison).map Prod.fst = (Except.ok c').map Prod.fst :=
    fun hcc => congrArg Except.ok hcc
  have htext : ¬RecordBased inputs.claimType → lexHits = lexHits' := fun hn => hlex.resolve_left hn
  unfold compare
  cases hct : inputs.claimType <;> dsimp only
  case voteCast => exact compareVoteCast_perm _ h
  case electionResult =>
    refine hok ?_
    rw [compareElectionResult_status, compareElectionResult_status, rowStatus_perm h]
  case governmentDecision =>
    refine hok ?_
    rw [compareGovernmentDecision_status, compareGovernmentDecision_status, rowStatus_perm h]
  case committeeAttendance =>
    refine hok ?_
    rw [compareAttendance_status, compareAttendance_status, rowStatus_perm h]
  all_goals rw [htext (by rw [hct]; unfold RecordBased; decide)]
  all_goals exact hok (compareRecordOrText_perm h)

end Compare

end CivicProof
