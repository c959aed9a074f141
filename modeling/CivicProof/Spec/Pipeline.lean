import CivicProof.Spec.Engine
import CivicProof.Spec.Resolve
import CivicProof.Spec.Retrieval

/-!
# The verify pipeline

`VerifyPipeline.verify`: decompose, resolve, normalize the time phrase, classify, retrieve
and rerank, decide, open a conflict task, bundle. Collaborators are optional; the
exceptions of the resolver and of the retrievers are caught where the source catches them.

* `verifyClaim`: the run of one claim, in the order of the source.
* `verify`: the loop over the claims that `decompose` emits.
-/

namespace CivicProof

/-- `_parse_int_slot`. -/
def parseIntSlot (value : Option String) : Option ℤ := (orNone value).bind fun s => parseInt (strip s)

/-- `_parse_expect_passed_threshold`. -/
def parseExpectPassedThreshold (value : Option String) : Option Bool :=
  (orNone value).bind fun s =>
    let s := lower (strip s)
    if s ∈ ["true", "1", "yes"] then some true
    else if s ∈ ["false", "0", "no"] then some false else none

/-- A review task as the pipeline opens it (`open_review_task` with kind `conflict`). -/
structure ConflictTask where
  claimId : String
  outcome : VerdictOutcome
  priority : ℕ

/-- `VerifyPipeline`. -/
structure VerifyPipeline (σ : Type) where
  graph : Option (ClaimType → Params → Eff σ (List GraphEvidence)) := none
  lexical : Option (String → Eff σ (List LexicalEvidence)) := none
  resolver : Option (DecomposedClaim → Eff σ ResolutionResult) := none
  defaultLanguage : Language := .he
  reviewConnection : Option (ConflictTask → Eff σ Unit) := none

/-- What a call reads from its surroundings: the Unicode database, the date of today and
the stream of fresh claim ids. -/
structure Env where
  unicode : Unicode
  today : CivilDate
  uuid4 : ℕ → String

/-- `ProvenanceBundle` with the claim payload. The pipeline configures no summarizer, so the
uncertainty note is always empty. -/
structure Bundle where
  outcome : VerdictOutcome
  topEvidence : List RerankScore
  claim : DecomposedClaim
  timeScope : TimeScope
  checkability : Checkability

/-- `list(ranked)[:top_k]`: a negative `top_k` counts from the end. -/
def topRanked (topK : ℤ) (ranked : List RerankScore) : List RerankScore :=
  if 0 ≤ topK then ranked.take topK.toNat else ranked.take (ranked.length - topK.natAbs)

/-- `bundle_provenance`, at its default `top_k`. -/
def bundleProvenance (outcome : VerdictOutcome) (ranked : List RerankScore)
    (claim : DecomposedClaim) (timeScope : TimeScope) (checkability : Checkability) : Bundle :=
  ⟨outcome, ranked.take 5, claim, timeScope, checkability⟩

variable {σ : Type}

/-- `maybe_open_conflict_task`. -/
def maybeOpenConflictTask (openReviewTask : ConflictTask → Eff σ Unit) (claimId : String)
    (outcome : VerdictOutcome) (ranked : List RerankScore) : Eff σ Unit :=
  if outcome.status ≠ .mixed then pure ()
  else if ranked.countP (fun r => r.evidence.sourceTier = 1) < 1 then pure ()
  else openReviewTask ⟨claimId, outcome, 10⟩

namespace VerifyPipeline

/-- `_resolve`. -/
def resolveClaim (P : VerifyPipeline σ) (claim : DecomposedClaim) : Eff σ ResolutionResult :=
  match P.resolver with
  | none =>
    -- without a resolver every slot that is present counts as resolved
    pure
      { slotStatuses := fun s => (claim.slots s).map fun _ => .resolved
        resolvedSlots := claim.slots }
  -- an exception leaves the raw slots and no status at all
  | some resolve => Eff.orElse (resolve claim) (pure { resolvedSlots := claim.slots })

/-- The ids the reranker compares with: the slots that are not empty. -/
def resolvedIds (slots : Slots) : Dict String :=
  Dict.ofList (Slot.keys.filterMap fun s => (orNone (slots s)).map fun v => (s.name, v))

/-- The call of an optional retriever: nothing without one, nothing when it raises. -/
def orEmpty {α : Type} : Option (Eff σ (List α)) → Eff σ (List α)
  | none => pure []
  | some call => Eff.orElse call (pure [])

/-- `_retrieve`. -/
def retrieve (P : VerifyPipeline σ) (claim : DecomposedClaim) (resolvedSlots : Slots)
    (scope : TimeScope) : Eff σ (List RerankScore) := do
  -- each retriever is caught on its own: one that raises does not empty the other
  let graphHits ← orEmpty (P.graph.map fun g => g claim.claimType (graphParams resolvedSlots scope))
  let lexHits ← orEmpty (P.lexical.map fun l => l claim.normalizedText)
  return rerank (graphHits.map .graph ++ lexHits.map .lexical) claim.claimType (some scope)
    (resolvedIds resolvedSlots)

/-- The checkability `verify` computes for a claim. -/
def checkabilityOf (claim : DecomposedClaim) (resolution : ResolutionResult) (scope : TimeScope) :
    Checkability :=
  classify
    { claimType := claim.claimType
      slots := claim.slots
      slotResolverStatus := resolution.slotStatuses
      timeGranularity := scope.granularity }

/-- The inputs `verify` hands to the verdict engine. -/
def verdictInputs (claim : DecomposedClaim) (resolution : ResolutionResult)
    (checkability : Checkability) (ranked : List RerankScore) : VerdictInputs where
  claimId := claim.claimId
  claimType := claim.claimType
  checkability := checkability
  rankedEvidence := ranked
  expectedVoteValue := claim.slots .voteValue
  expectedSeats := parseIntSlot (claim.slots .expectedSeats)
  expectPassedThreshold := parseExpectPassedThreshold (claim.slots .expectPassedThreshold)
  -- without a resolved id the raw number takes its place
  governmentDecisionId :=
    (orNone (resolution.resolvedSlots .governmentDecisionId)).or
      (claim.slots .governmentDecisionId)

/-- The body of the loop of `verify`. -/
def verifyClaim (P : VerifyPipeline σ) (env : Env) (claim : DecomposedClaim) : Eff σ Bundle := do
  let resolution ← P.resolveClaim claim
  let scope := normalizeTimeScope env.unicode env.today claim.timePhrase
  let checkability := checkabilityOf claim resolution scope
  -- evidence is retrieved for claims that are not checkable as well
  let ranked ← P.retrieve claim resolution.resolvedSlots scope
  let outcome ← Eff.lift (decideVerdict (verdictInputs claim resolution checkability ranked))
  match P.reviewConnection with
  | some conn => maybeOpenConflictTask conn claim.claimId outcome ranked
  | none => pure ()
  return bundleProvenance outcome ranked claim scope checkability

/-- `verify`. -/
def verify (P : VerifyPipeline σ) (env : Env) (statement : String) (language : Option Language) :
    Eff σ (List Bundle) :=
  Eff.forList (fun bundles claim => do return bundles ++ [← P.verifyClaim env claim]) []
    (decompose env.uuid4 none statement (language.getD P.defaultLanguage)).claims

end VerifyPipeline

end CivicProof
