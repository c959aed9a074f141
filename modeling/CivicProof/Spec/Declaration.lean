import CivicProof.Spec.Pipeline
import CivicProof.Spec.Review
import Mathlib.Data.List.Infix

/-!
# Declarations

An utterance as a declaration with derived claims (`declarationDecompose`), the judgment of each
claim's relation to the record (`buildAttributionEdge`), and `DeclarationVerifier.verify`, which
verifies the utterance again and hands a declaration to review.
-/

namespace CivicProof

/-! ## Decomposition -/

/-- `ClaimFamily`. -/
inductive ClaimFamily where
  | formalAction
  | positionClaim
  | electoralClaim
  | policyClaim
  | rhetorical
  | unknown
  deriving DecidableEq, Repr

/-- `DeclarationCheckability`. -/
inductive DeclarationCheckability where
  | checkableFormalAction
  | partiallyCheckable
  | notCheckable
  | insufficientTimeScope
  | insufficientEntityResolution
  deriving DecidableEq, Repr

/-- `_classify_from_types`. -/
def classifyFamily (types : List ClaimType) : ClaimFamily :=
  if types.any (· ∈ [ClaimType.voteCast, .billSponsorship, .committeeAttendance]) then .formalAction
  else if types.any (· ∈ [ClaimType.officeHeld, .committeeMembership]) then .positionClaim
  else if types.any (· ∈ [ClaimType.electionResult]) then .electoralClaim
  else .unknown

/-- `classify_declaration_checkability`. -/
def classifyDeclarationCheckability (checks : List Checkability) : DeclarationCheckability :=
  if checks = [] then .notCheckable
  else if 0 < checks.count .checkable then .checkableFormalAction
  else if checks.count .insufficientTimeScope = checks.length then .insufficientTimeScope
  else if checks.count .insufficientEntityResolution = checks.length then
    .insufficientEntityResolution
  else if checks.count .nonCheckable = checks.length then .notCheckable
  else if 0 < checks.count .insufficientTimeScope ∨
      0 < checks.count .insufficientEntityResolution then .partiallyCheckable
  else .notCheckable

/-- `Declaration`, by the fields that verification and review read. -/
structure Declaration where
  declarationId : String
  utteranceText : String
  utteranceLanguage : Language
  claimFamily : ClaimFamily
  checkability : DeclarationCheckability
  derivedAtomicClaimIds : List String

/-- `DeclarationDecompositionResult`. -/
structure DeclarationDecompositionResult where
  declaration : Declaration
  claims : List DecomposedClaim
  decomposition : DecompositionResult
  family : ClaimFamily
  checkability : DeclarationCheckability

/-- `_time_granularity`. -/
def timeGranularity (env : Env) (timePhrase : Option String) : Granularity :=
  match orNone timePhrase with
  | none => .unknown
  | some phrase => (normalizeTimeScope env.unicode env.today (some phrase)).granularity

/-- The checkability of a derived claim, with no resolver at hand. -/
def offlineCheckability (env : Env) (claim : DecomposedClaim) : Checkability :=
  classify
    { claimType := claim.claimType
      slots := claim.slots
      slotResolverStatus := fun _ => none
      timeGranularity := timeGranularity env claim.timePhrase }

/-- `DeclarationDecomposer.decompose`. -/
def declarationDecompose (env : Env) (declarationId : String) (llm : Option LLMProvider)
    (utteranceText : String) (language : Language) : DeclarationDecompositionResult :=
  let decomp := decompose env.uuid4 llm (strip utteranceText) language
  let family := classifyFamily (decomp.claims.map (·.claimType))
  let checkability :=
    classifyDeclarationCheckability (decomp.claims.map (offlineCheckability env))
  { declaration :=
      { declarationId := declarationId
        utteranceText := utteranceText
        utteranceLanguage := language
        claimFamily := family
        checkability := checkability
        derivedAtomicClaimIds := decomp.claims.map (·.claimId) }
    claims := decomp.claims
    decomposition := decomp
    family := family
    checkability := checkability }

/-! ## Relations -/

/-- `RelationType`. -/
inductive RelationType where
  | supportedBy
  | contradictedBy
  | overstates
  | underspecifies
  | timeScopeMismatch
  | entityAmbiguous
  | notCheckableAgainstRecord
  deriving DecidableEq, Repr

/-- The wire name of a relation. -/
def RelationType.name : RelationType → String
  | .supportedBy => "supported_by"
  | .contradictedBy => "contradicted_by"
  | .overstates => "overstates"
  | .underspecifies => "underspecifies"
  | .timeScopeMismatch => "time_scope_mismatch"
  | .entityAmbiguous => "entity_ambiguous"
  | .notCheckableAgainstRecord => "not_checkable_against_record"

/-- `RELATION_PRIORITY`, the worst first. -/
def relationPriority : List RelationType :=
  [.contradictedBy, .entityAmbiguous, .timeScopeMismatch, .notCheckableAgainstRecord, .overstates,
    .underspecifies, .supportedBy]

/-- `_REVIEW_TRIGGER_RELATIONS`. -/
def reviewTriggerRelations : List RelationType :=
  [.overstates, .underspecifies, .timeScopeMismatch, .entityAmbiguous, .contradictedBy]

/-- `_VERDICT_TO_RELATION`. -/
def verdictToRelation : Status → RelationType
  | .supported => .supportedBy
  | .contradicted => .contradictedBy
  | .mixed => .overstates
  | .insufficientEvidence => .notCheckableAgainstRecord
  | .nonCheckable => .notCheckableAgainstRecord

/-- Whether the text under `reason` speaks of a time scope. -/
def mentionsTimeScope (reason : Reason) : Bool :=
  match reason.lookup "reason" with
  | some (.str r) => decide ("time_scope".toList <:+: r.toList)
  | _ => false

/-- `determine_relation`. -/
def determineRelation (status : Status) (checkability : Checkability) (reasons : List Reason)
    (lexicalHits : ℕ) : RelationType :=
  if status = .nonCheckable ∧ checkability = .insufficientEntityResolution then .entityAmbiguous
  else if status = .nonCheckable ∧ checkability = .insufficientTimeScope then .timeScopeMismatch
  else if status = .contradicted ∧ reasons.any mentionsTimeScope then .timeScopeMismatch
  else if status = .mixed ∧ lexicalHits = 1 then .underspecifies
  else verdictToRelation status

/-- The loop of `worst_relation`: the first of those with the smallest index. -/
def worseOf (chosen : Option RelationType) (r : RelationType) : Option RelationType :=
  if r ∉ relationPriority then chosen
  else match chosen with
    | none => some r
    | some c => if relationPriority.idxOf r < relationPriority.idxOf c then some r else some c

/-- `worst_relation`. -/
def worstRelation (relations : List RelationType) : RelationType :=
  (relations.foldl worseOf none).getD .notCheckableAgainstRecord

/-- `ConfidenceBand`. -/
inductive ConfidenceBand where
  | high
  | medium
  | low
  | uncertain
  deriving DecidableEq, Repr

/-- The wire name of a confidence band. -/
def ConfidenceBand.name : ConfidenceBand → String
  | .high => "high"
  | .medium => "medium"
  | .low => "low"
  | .uncertain => "uncertain"

/-- `determine_confidence_band`. -/
def determineConfidenceBand (overall : ℚ) : ConfidenceBand :=
  if 80 / 100 ≤ overall then .high
  else if 60 / 100 ≤ overall then .medium
  else if 45 / 100 ≤ overall then .low else .uncertain

/-! ## Attribution edges -/

/-- `_CLAIM_TYPE_TO_OBJECT_TYPE`, by wire name. -/
def determineToObjectType : ClaimType → String
  | .voteCast => "VoteEvent"
  | .billSponsorship => "Bill"
  | .officeHeld => "PositionTerm"
  | .electionResult => "ElectionResult"
  | .committeeMembership => "AtomicClaim"
  | .committeeAttendance => "AtomicClaim"
  | .statementAboutFormalAction => "AtomicClaim"
  | .governmentDecision => "AtomicClaim"

/-- The node ids that name the record a claim refers to. -/
def recordKeys : ClaimType → List String
  | .voteCast => ["vote_event_id"]
  | .billSponsorship => ["bill_id"]
  | .officeHeld => ["position_term_id", "office_id"]
  | .electionResult => ["election_result_id"]
  | _ => []

/-- `extract_to_object_id`: the first node id that spells a UUID, else the claim's own. -/
def extractToObjectId (claimType : ClaimType) (topEvidence : List Evidence)
    (fallbackClaimId : String) : String :=
  let ids := topEvidence.flatMap fun e => match e with
    | .lexical _ => []
    | .graph g =>
      if g.claimType ≠ claimType then []
      else (recordKeys claimType).filterMap fun key =>
        (orNone (g.nodeIds.lookup key)).bind Uuid.parse
  (ids.head?.map Uuid.str).getD fallbackClaimId

/-- `extract_evidence_span_ids`. -/
def extractEvidenceSpanIds (topEvidence : List Evidence) : List Uuid :=
  let spans := topEvidence.flatMap fun e => match e with
    | .graph g => ["span_id", "span_ids"].filterMap fun key => g.nodeIds.lookup key
    | .lexical l => [l.spanId]
  -- each id once, where it comes first
  (spans.filterMap Uuid.parse).foldl (fun out u => if u ∈ out then out else out ++ [u]) []

/-- `AttributionEdge`. Its review status is pending unless a human has to look at it. -/
structure AttributionEdge where
  attributionId : String
  fromDeclarationId : String
  toObjectId : String
  toObjectType : String
  relationType : RelationType
  evidenceSpanIds : List Uuid
  confidenceBand : ConfidenceBand
  needsHumanReview : Bool
  deriving DecidableEq

/-- `model_dump` of an edge. -/
def AttributionEdge.toJson (e : AttributionEdge) : Json :=
  .obj
    [("attribution_id", .str e.attributionId), ("from_declaration_id", .str e.fromDeclarationId),
      ("to_object_id", .str e.toObjectId), ("to_object_type", .str e.toObjectType),
      ("relation_type", .str e.relationType.name),
      ("evidence_span_ids", .list (e.evidenceSpanIds.map fun u => .str u.str)),
      ("confidence_band", .str e.confidenceBand.name),
      ("review_status", .str (if e.needsHumanReview then "needs_human_review" else "pending"))]

/-- The edge of a claim and a bundle: the body of the loop of `verify`, with
`build_attribution_edge`. -/
def buildAttributionEdge (attributionId declarationId : String) (claim : DecomposedClaim)
    (bundle : Bundle) : AttributionEdge :=
  let topEvidence := bundle.topEvidence.map (·.evidence)
  { attributionId := attributionId
    fromDeclarationId := declarationId
    toObjectId := extractToObjectId claim.claimType topEvidence claim.claimId
    toObjectType := determineToObjectType claim.claimType
    relationType := determineRelation bundle.outcome.status bundle.checkability
      bundle.outcome.reasons (topEvidence.countP (·.isLexical))
    evidenceSpanIds := extractEvidenceSpanIds topEvidence
    confidenceBand := determineConfidenceBand bundle.outcome.confidence.overall
    needsHumanReview := bundle.outcome.needsHumanReview }

/-! ## Verification -/

/-- The arguments of `open_review_task`. -/
structure NewTask where
  kind : TaskKind
  payload : Dict Json
  priority : ℤ := 0

/-- `DeclarationVerifier`, over the `verify` of its pipeline. -/
structure DeclarationVerifier (σ : Type) where
  pipeline : String → Language → Eff σ (List Bundle)
  reviewConnection : Option (NewTask → Eff σ Unit) := none

/-- `DeclarationVerificationResult`. -/
structure DeclarationVerificationResult where
  declaration : Declaration
  claims : List DecomposedClaim
  claimVerdicts : List Bundle
  attributionEdges : List AttributionEdge
  overallRelation : RelationType

/-- `_build_review_payload`. -/
def buildReviewPayload (d : Declaration) (overallRelation : RelationType)
    (attributionEdges : List AttributionEdge) : Dict Json :=
  Dict.ofList
    [("declaration_id", .str d.declarationId), ("overall_relation", .str overallRelation.name),
      ("attribution_edges", .list (attributionEdges.map (·.toJson))),
      ("derived_claim_ids", .list (d.derivedAtomicClaimIds.map .str)),
      ("utterance_text", .str (String.ofList (d.utteranceText.toList.take 500)))]

namespace DeclarationVerifier

variable {σ : Type}

/-- The result for a list of bundles, each paired with the claim at its position. -/
def judge (uuid4 : ℕ → String) (decomp : DeclarationDecompositionResult) (bundles : List Bundle) :
    DeclarationVerificationResult :=
  let pairs := decomp.claims.zip bundles
  let edges := pairs.zipIdx.map fun (p, i) =>
    buildAttributionEdge (uuid4 i) decomp.declaration.declarationId p.1 p.2
  { declaration := decomp.declaration
    claims := decomp.claims
    claimVerdicts := pairs.map (·.2)
    attributionEdges := edges
    overallRelation := worstRelation (edges.map (·.relationType)) }

/-- The review task of a result, if its overall relation asks for one. -/
def reviewTask (r : DeclarationVerificationResult) : Option NewTask :=
  if r.overallRelation ∈ reviewTriggerRelations then
    some
      { kind := .declaration
        payload := buildReviewPayload r.declaration r.overallRelation r.attributionEdges
        priority := 1 }
  else none

/-- The last step of `verify`: the review task. -/
def enqueue (V : DeclarationVerifier σ) (r : DeclarationVerificationResult) : Eff σ Unit :=
  match V.reviewConnection, reviewTask r with
  -- whatever the queue raises is logged and dropped
  | some conn, some task => Eff.orElse (conn task) (pure ())
  | _, _ => pure ()

/-- `verify`. `uuid4` is the stream of the edges' ids. -/
def verify (V : DeclarationVerifier σ) (uuid4 : ℕ → String)
    (decomp : DeclarationDecompositionResult) (language : Language) :
    Eff σ DeclarationVerificationResult := do
  let bundles ← V.pipeline decomp.declaration.utteranceText language
  let result := judge uuid4 decomp bundles
  V.enqueue result
  return result

end DeclarationVerifier

end CivicProof
