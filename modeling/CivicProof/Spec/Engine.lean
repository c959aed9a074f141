import CivicProof.Spec.Evidence

/-!
# The verdict engine

`decideVerdict`: checkability first, then the confidence threshold, then the comparison
rule of the claim type, then the review flag. Every verdict carries its trace (`reasons`).

* `decideVerdict_ok`: the three ways a verdict comes about.
-/

namespace CivicProof

/-! ## Reasons -/

/-- A value of the decision trace. -/
inductive Json where
  | null
  | bool (b : Bool)
  | int (n : ℤ)
  | num (q : ℚ)
  | str (s : String)
  | list (l : List Json)
  | obj (fields : List (String × Json))

/-- One entry of the decision trace. -/
abbrev Reason := List (String × Json)

/-- A property value in the trace. -/
def Value.toJson : Value → Json
  | .null => .null
  | .bool b => .bool b
  | .int n => .int n
  | .str s => .str s

/-- The named properties of a row, as a JSON object. -/
def observed (fields : List String) (g : GraphEvidence) : Json :=
  .obj (fields.map fun f => (f, (g.properties.prop f).toJson))

/-! ## Inputs and outcome -/

/-- The status of a verdict. -/
inductive Status where
  | supported
  | contradicted
  | mixed
  | insufficientEvidence
  | nonCheckable
  deriving DecidableEq, Repr

/-- `VerdictInputs`. Its `claim_time_scope` is never read. -/
structure VerdictInputs where
  claimId : String
  claimType : ClaimType
  checkability : Checkability
  rankedEvidence : List RerankScore := []
  expectedVoteValue : Option String := none
  expectedSeats : Option ℤ := none
  expectPassedThreshold : Option Bool := none
  governmentDecisionId : Option String := none

/-- `VerdictOutcome`. -/
structure VerdictOutcome where
  status : Status
  confidence : Confidence
  needsHumanReview : Bool
  reasons : List Reason := []

/-- `ABSTAIN_OVERALL`. -/
def abstainOverall : ℚ := 45 / 100

/-- `HUMAN_REVIEW_OVERALL`. -/
def humanReviewOverall : ℚ := 62 / 100

/-- `_zero_confidence`. -/
def zeroConfidence : Confidence := ⟨0, 0, 0, 0, 0, 0, by decide⟩

/-- The graph rows of a claim type among ranked evidence (`graph_hits`). -/
def graphHits (ct : ClaimType) (ranked : List RerankScore) : List GraphEvidence :=
  (ranked.filterMap fun r => r.evidence.graph?).filter fun g => g.claimType = ct

/-- `_lex_corroborations`. -/
def lexCorroborations (ranked : List RerankScore) : ℕ :=
  ranked.countP fun r => r.evidence.isLexical

/-- Whether some row among the hits is Tier 1 (`tier1_graph`). -/
def tier1Graph (hits : List GraphEvidence) : Bool := hits.any fun g => g.sourceTier = 1

/-! ## The comparison rules -/

/-- The result of a comparison: its status and the trace entry it leaves. -/
abbrev Comparison := Status × Reason

/-- A value up to the equality sets use: truth values are the numbers they equal. -/
def Value.key : Value → Value
  | .bool b => .int (if b then 1 else 0)
  | v => v

/-- The text of a value that is one. -/
def Value.text? : Value → Option String
  | .str s => some s
  | _ => none

/-- `sorted(filter(None, values))`: a text and a number do not compare. -/
def sortedTruthy (values : List Value) : Except PyError (List Json) :=
  let kept := values.filter Value.truthy
  let texts := kept.filterMap Value.text?
  let numbers := (kept.filter fun v => v.text? = none).filterMap Value.toInt
  if texts ≠ [] ∧ numbers ≠ [] then .error .typeError
  else .ok ((sortedStrings texts).map .str ++ (numbers.insertionSort (· ≤ ·)).map .int)

/-- The set of recorded vote values, each listed once. -/
def recordedValues (hits : List GraphEvidence) : List Value :=
  (hits.map fun g => (g.properties.prop "vote_value").key).dedup

/-- `_vote_cast`. -/
def compareVoteCast (expectedVoteValue : Option String) (hits : List GraphEvidence) :
    Except PyError Comparison :=
  if hits = [] then
    .ok (.insufficientEvidence, [("kind", .str "abstain"), ("reason", .str "no_graph_vote_record")])
  else
    let recorded := recordedValues hits
    match expectedVoteValue with
    -- without an expected value any record supports the claim, also conflicting ones
    | none => .ok (.supported, [("kind", .str "support"), ("reason", .str "any_vote_recorded")])
    | some expected =>
      if recorded = [.str expected] then
        .ok (.supported, [("kind", .str "support"), ("detail", .str ("matches " ++ expected))])
      else if .str expected ∈ recorded ∧ 1 < recorded.length then
        .ok (.mixed, [("kind", .str "mixed"), ("detail", .list (recorded.map Value.toJson))])
      else do
        let values ← sortedTruthy recorded
        return (.contradicted,
          [("kind", .str "contradict"), ("expected", .str expected), ("observed", .list values)])

/-- `seats_ok`: no expectation, or an equal number of seats. -/
def seatsOk (expected : Option ℤ) (seats : Value) : Bool :=
  match expected with
  | none => true
  | some n => seats.toInt = some n

/-- `passed_ok`: no expectation, or a recorded flag that agrees. -/
def passedOk (expected : Option Bool) (passed : Value) : Bool :=
  match expected with
  | none => true
  | some b => passed ≠ .null ∧ passed.truthy = b

/-- Whether a row bears out an election claim. -/
def electionRowOk (expectedSeats : Option ℤ) (expectPassedThreshold : Option Bool)
    (g : GraphEvidence) : Bool :=
  seatsOk expectedSeats (g.properties.prop "seats_won") &&
    passedOk expectPassedThreshold (g.properties.prop "passed_threshold")

/-- An optional number in the trace. -/
def optInt (n : Option ℤ) : Json := n.elim .null .int

/-- `_election_result`. -/
def compareElectionResult (expectedSeats : Option ℤ) (expectPassedThreshold : Option Bool)
    (hits : List GraphEvidence) : Comparison :=
  if hits = [] then
    (.insufficientEvidence, [("kind", .str "abstain"), ("reason", .str "no_election_graph_hit")])
  else match hits.find? (electionRowOk expectedSeats expectPassedThreshold) with
    -- the first row that fits decides; the others are not read
    | some g =>
      (.supported,
        [("kind", .str "support"), ("source", .str "graph"),
          ("seats_won", (g.properties.prop "seats_won").toJson),
          ("passed_threshold", (g.properties.prop "passed_threshold").toJson)])
    | none =>
      (.contradicted,
        [("kind", .str "contradict"), ("expected_seats", optInt expectedSeats),
          ("expect_passed_threshold", expectPassedThreshold.elim .null .bool),
          ("observed",
            .list (hits.map (observed ["seats_won", "passed_threshold", "knesset_number"])))])

/-- The decision id a row carries: in its node ids, else in its properties. -/
def rowDecisionId (g : GraphEvidence) : Value :=
  match orNone (g.nodeIds.lookup "government_decision_id") with
  | some id => .str id
  | none => g.properties.prop "government_decision_id"

/-- Whether a row passes the identity check of a government decision claim. -/
def decisionRowOk (governmentDecisionId : Option String) (g : GraphEvidence) : Bool :=
  match governmentDecisionId with
  -- only the id is compared, never the decision's number
  | none => true
  | some expected => (rowDecisionId g).pyStr = expected

/-- `_government_decision`. -/
def compareGovernmentDecision (governmentDecisionId : Option String)
    (hits : List GraphEvidence) : Comparison :=
  if hits = [] then
    (.insufficientEvidence,
      [("kind", .str "abstain"), ("reason", .str "no_gov_decision_graph_hit")])
  else match hits.find? (decisionRowOk governmentDecisionId) with
    | some g =>
      (.supported,
        [("kind", .str "support"), ("source", .str "graph"),
          ("decision_number", (g.properties.prop "decision_number").toJson),
          ("government_number", (g.properties.prop "government_number").toJson),
          ("title", (g.properties.prop "title").toJson)])
    | none =>
      (.contradicted,
        [("kind", .str "contradict"), ("reason", .str "decision_id_mismatch"),
          ("expected_id", governmentDecisionId.elim .null .str),
          ("observed", .list (hits.map (observed ["decision_number", "government_number"])))])

/-- The branch of `_compare` for sponsorships, offices and memberships. -/
def compareRecordOrText (hits : List GraphEvidence) (lexHits : ℕ) : Comparison :=
  if hits ≠ [] then
    (.supported, [("kind", .str "support"), ("source", .str "graph"), ("count", .int hits.length)])
  else if lexHits ≠ 0 then
    (.supported, [("kind", .str "support"), ("source", .str "lexical"), ("count", .int lexHits)])
  else
    (.insufficientEvidence,
      [("kind", .str "abstain"), ("reason", .str "no_graph_or_lex_support")])

/-- Whether an attendance row says the speaker was there. -/
def isPresent (g : GraphEvidence) : Bool := g.properties.prop "presence" = .str "present"

/-- The branch of `_compare` for attendance. -/
def compareAttendance (hits : List GraphEvidence) : Comparison :=
  if hits = [] then
    (.insufficientEvidence,
      [("kind", .str "abstain"), ("reason", .str "no_attendance_graph_hit")])
  else if hits.filter isPresent ≠ [] then
    (.supported, [("kind", .str "support"), ("count", .int (hits.filter isPresent).length)])
  else (.contradicted, [("kind", .str "contradict"), ("reason", .str "only_absent_sessions")])

/-- The last branch of `_compare`: statements about a formal action. -/
def compareStatement (lexHits : ℕ) : Comparison :=
  if 2 ≤ lexHits then
    (.supported, [("kind", .str "support"), ("source", .str "lexical_multi")])
  else if lexHits = 1 then
    (.mixed, [("kind", .str "mixed"), ("source", .str "lexical_single")])
  else
    (.insufficientEvidence, [("kind", .str "abstain"), ("reason", .str "no_corroboration")])

/-- `_compare`. It raises only where the contradicting vote values do not compare. -/
def compare (inputs : VerdictInputs) (hits : List GraphEvidence) (lexHits : ℕ) :
    Except PyError Comparison :=
  match inputs.claimType with
  | .voteCast => compareVoteCast inputs.expectedVoteValue hits
  | .electionResult =>
    .ok (compareElectionResult inputs.expectedSeats inputs.expectPassedThreshold hits)
  | .governmentDecision => .ok (compareGovernmentDecision inputs.governmentDecisionId hits)
  | .billSponsorship => .ok (compareRecordOrText hits lexHits)
  | .officeHeld => .ok (compareRecordOrText hits lexHits)
  | .committeeMembership => .ok (compareRecordOrText hits lexHits)
  | .committeeAttendance => .ok (compareAttendance hits)
  | .statementAboutFormalAction => .ok (compareStatement lexHits)

/-! ## The verdict -/

/-- The review flag of a comparison. -/
def reviewFlag (overall : ℚ) (status : Status) (hits : List GraphEvidence) : Bool :=
  overall < humanReviewOverall || status = .mixed ||
    (status = .contradicted && hits ≠ [] && !tier1Graph hits)

/-- The verdict of a comparison. -/
def comparisonOutcome (confidence : Confidence) (hits : List GraphEvidence)
    (result : Comparison) : VerdictOutcome where
  status := result.1
  confidence := confidence
  needsHumanReview := reviewFlag confidence.overall result.1 hits
  reasons := [result.2]

/-- The verdict of an abstention before any comparison. -/
def abstention (confidence : Confidence) (reason : Reason) : VerdictOutcome where
  status := .insufficientEvidence
  confidence := confidence
  needsHumanReview := true
  reasons := [("kind", .str "abstain") :: reason]

/-- `decide_verdict`. -/
def decideVerdict (inputs : VerdictInputs) : Except PyError VerdictOutcome :=
  if inputs.checkability ≠ .checkable then
    .ok
      { status := .nonCheckable
        confidence := zeroConfidence
        needsHumanReview := inputs.checkability = .insufficientEntityResolution
        reasons :=
          [[("kind", .str "abstain"), ("reason", .str "checkability"),
            ("detail", .str inputs.checkability.name)]] }
  else if inputs.rankedEvidence = [] then
    .ok (abstention zeroConfidence [("reason", .str "no_evidence")])
  else do
    let confidence ← computeConfidence inputs.rankedEvidence
    -- the rounded overall value is compared
    if confidence.overall < abstainOverall then
      return abstention confidence
        [("reason", .str "low_confidence"), ("overall", .num confidence.overall)]
    let hits := graphHits inputs.claimType inputs.rankedEvidence
    let result ← compare inputs hits (lexCorroborations inputs.rankedEvidence)
    return comparisonOutcome confidence hits result

/-! ## What a verdict is -/

/-- The evidence is there and its confidence reaches the threshold. -/
structure PassesThreshold (inputs : VerdictInputs) (confidence : Confidence) : Prop where
  computed : computeConfidence inputs.rankedEvidence = .ok confidence
  nonempty : inputs.rankedEvidence ≠ []
  overall : abstainOverall ≤ confidence.overall

/-- **The verdict of a checkable claim**: an abstention before any comparison, or the
outcome of the comparison rule. -/
theorem decideVerdict_ok {inputs : VerdictInputs} {o : VerdictOutcome}
    (hc : inputs.checkability = .checkable) (h : decideVerdict inputs = .ok o) :
    (o.status = .insufficientEvidence ∧ o.needsHumanReview = true ∧
        ¬∃ confidence, PassesThreshold inputs confidence) ∨
      ∃ confidence result, PassesThreshold inputs confidence ∧
        compare inputs (graphHits inputs.claimType inputs.rankedEvidence)
          (lexCorroborations inputs.rankedEvidence) = .ok result ∧
        o = comparisonOutcome confidence (graphHits inputs.claimType inputs.rankedEvidence)
          result := by
  unfold decideVerdict at h
  rw [if_neg (not_not.2 hc)] at h
  by_cases hne : inputs.rankedEvidence = []
  · rw [if_pos hne] at h
    cases h
    exact Or.inl ⟨rfl, rfl, fun ⟨_, hp⟩ => hp.nonempty hne⟩
  rw [if_neg hne] at h
  cases hconf : computeConfidence inputs.rankedEvidence with
  | error e =>
    rw [hconf] at h
    cases h
  | ok confidence =>
    rw [hconf] at h
    change (if confidence.overall < abstainOverall then _ else _) = _ at h
    by_cases hlow : confidence.overall < abstainOverall
    · rw [if_pos hlow] at h
      cases h
      refine Or.inl ⟨rfl, rfl, fun ⟨c', hp⟩ => ?_⟩
      have hc' := hp.computed
      rw [hconf] at hc'
      cases hc'
      exact absurd hlow (not_lt.2 hp.overall)
    · rw [if_neg hlow] at h
      cases hcmp : compare inputs (graphHits inputs.claimType inputs.rankedEvidence)
          (lexCorroborations inputs.rankedEvidence) with
      | error e =>
        rw [hcmp] at h
        cases h
      | ok result =>
        rw [hcmp] at h
        cases h
        exact Or.inr ⟨confidence, result, ⟨hconf, hne, not_lt.1 hlow⟩, rfl, rfl⟩

/-- Above the threshold the verdict is the comparison's. -/
theorem decideVerdict_passes {inputs : VerdictInputs} {confidence : Confidence}
    (hc : inputs.checkability = .checkable) (hp : PassesThreshold inputs confidence) :
    decideVerdict inputs =
      (compare inputs (graphHits inputs.claimType inputs.rankedEvidence)
        (lexCorroborations inputs.rankedEvidence)).map
        (comparisonOutcome confidence (graphHits inputs.claimType inputs.rankedEvidence)) := by
  unfold decideVerdict
  rw [if_neg (not_not.2 hc), if_neg hp.nonempty, hp.computed]
  change (if confidence.overall < abstainOverall then _ else _) = _
  rw [if_neg (not_lt.2 hp.overall)]
  cases compare inputs (graphHits inputs.claimType inputs.rankedEvidence)
    (lexCorroborations inputs.rankedEvidence) <;> rfl

/-- Below the threshold, or without evidence, the verdict is an abstention. -/
theorem decideVerdict_below {inputs : VerdictInputs} {confidence : Confidence}
    (hc : inputs.checkability = .checkable)
    (hconf : computeConfidence inputs.rankedEvidence = .ok confidence)
    (hp : ¬PassesThreshold inputs confidence) :
    ∃ o, decideVerdict inputs = .ok o ∧ o.status = .insufficientEvidence ∧
      o.needsHumanReview = true := by
  unfold decideVerdict
  rw [if_neg (not_not.2 hc)]
  by_cases hne : inputs.rankedEvidence = []
  · rw [if_pos hne]
    exact ⟨_, rfl, rfl, rfl⟩
  · have hlow : confidence.overall < abstainOverall := by
      by_contra h
      exact hp ⟨hconf, hne, not_lt.1 h⟩
    rw [if_neg hne, hconf]
    change ∃ o, (if confidence.overall < abstainOverall then _ else _) = _ ∧ _
    rw [if_pos hlow]
    exact ⟨_, rfl, rfl, rfl⟩

/-- **A definite verdict comes from a checkable claim.** -/
theorem decideVerdict_nonCheckable {inputs : VerdictInputs} {o : VerdictOutcome}
    (h : decideVerdict inputs = .ok o) (hc : inputs.checkability ≠ .checkable) :
    o.status = .nonCheckable := by
  unfold decideVerdict at h
  rw [if_pos hc] at h
  cases h
  rfl

end CivicProof
