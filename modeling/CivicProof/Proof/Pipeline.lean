import CivicProof.Proof.Escalation
import CivicProof.Proof.Resolver
import CivicProof.Spec.Pipeline

/-!
# Runs of the pipeline

Resolution and retrieval never raise out of the pipeline, so a claim's run is resolve,
classify, retrieve, decide, in that order.

* `verifyClaim_ok`: what a run that ends normally consists of.
* `verifyClaim_run`: the run from its pieces.
* `verifyClaim_finds`: what its turn finds, and the verdict on that.
* `verify_turns`: the bundles of `verify` are the runs of its claims, turn by turn.
-/

namespace CivicProof

variable {σ : Type}

namespace VerifyPipeline

variable {P : VerifyPipeline σ} {env : Env} {claim : DecomposedClaim}

theorem orElse_pure {α : Type} (x : Eff σ α) (d : α) (s : σ) :
    ∃ a s', Eff.orElse x (pure d) s = (.ok a, s') := by
  unfold Eff.orElse
  rcases x s with ⟨_ | a, s'⟩
  · exact ⟨d, s', rfl⟩
  · exact ⟨a, s', rfl⟩

/-- **Resolution never raises out of the pipeline.** -/
theorem resolveClaim_total (P : VerifyPipeline σ) (claim : DecomposedClaim) (s : σ) :
    ∃ r s', P.resolveClaim claim s = (.ok r, s') := by
  unfold resolveClaim
  cases P.resolver with
  | none => exact ⟨_, s, rfl⟩
  | some resolve => exact orElse_pure _ _ s

theorem resolveClaim_ok {resolve : DecomposedClaim → Eff σ ResolutionResult}
    {r : ResolutionResult} {s s' : σ} (hR : P.resolver = some resolve)
    (h : resolve claim s = (.ok r, s')) : P.resolveClaim claim s = (.ok r, s') := by
  unfold resolveClaim Eff.orElse
  rw [hR]
  dsimp only
  rw [h]

/-- **A resolver that raises leaves no status behind**, and the raw slots. -/
theorem resolveClaim_error {resolve : DecomposedClaim → Eff σ ResolutionResult} {e : PyError}
    {s s' : σ} (hR : P.resolver = some resolve) (h : resolve claim s = (.error e, s')) :
    P.resolveClaim claim s = (.ok { resolvedSlots := claim.slots }, s') := by
  unfold resolveClaim Eff.orElse
  rw [hR]
  dsimp only
  rw [h]
  rfl

theorem orEmpty_total {α : Type} (call : Option (Eff σ (List α))) (s : σ) :
    ∃ l s', orEmpty call s = (.ok l, s') := by
  unfold orEmpty
  cases call with
  | none => exact ⟨[], s, rfl⟩
  | some call => exact orElse_pure _ _ s

theorem orEmpty_ok {α : Type} {call : Eff σ (List α)} {l : List α} {s s' : σ}
    (h : call s = (.ok l, s')) : orEmpty (some call) s = (.ok l, s') := by
  unfold orEmpty Eff.orElse
  dsimp only
  rw [h]

/-- **Retrieval always returns a reranked list**, of what the two retrievers returned. -/
theorem retrieve_total (P : VerifyPipeline σ) (claim : DecomposedClaim) (slots : Slots)
    (scope : TimeScope) (s : σ) :
    ∃ G L s₁ s₂,
      orEmpty (P.graph.map fun g => g claim.claimType (graphParams slots scope)) s = (.ok G, s₁) ∧
      orEmpty (P.lexical.map fun l => l claim.normalizedText) s₁ = (.ok L, s₂) ∧
      P.retrieve claim slots scope s =
        (.ok (rerank (G.map .graph ++ L.map .lexical) claim.claimType (some scope)
          (resolvedIds slots)), s₂) := by
  obtain ⟨G, s₁, hG⟩ :=
    orEmpty_total (P.graph.map fun g => g claim.claimType (graphParams slots scope)) s
  obtain ⟨L, s₂, hL⟩ := orEmpty_total (P.lexical.map fun l => l claim.normalizedText) s₁
  refine ⟨G, L, s₁, s₂, hG, hL, ?_⟩
  unfold retrieve
  rw [Eff.bind_of_ok hG, Eff.bind_of_ok hL]
  rfl

/-- The time scope of a claim. -/
abbrev scopeOf (env : Env) (claim : DecomposedClaim) : TimeScope :=
  normalizeTimeScope env.unicode env.today claim.timePhrase

/-- The inputs of the verdict of a claim, from its resolution and its evidence. -/
abbrev inputsOf (env : Env) (claim : DecomposedClaim) (r : ResolutionResult)
    (ranked : List RerankScore) : VerdictInputs :=
  verdictInputs claim r (checkabilityOf claim r (scopeOf env claim)) ranked

/-- **What a run of a claim consists of.** -/
theorem verifyClaim_ok {b : Bundle} {s s' : σ} (h : P.verifyClaim env claim s = (.ok b, s')) :
    ∃ r s₁ ranked s₂ outcome, P.resolveClaim claim s = (.ok r, s₁) ∧
      P.retrieve claim r.resolvedSlots (scopeOf env claim) s₁ = (.ok ranked, s₂) ∧
      decideVerdict (inputsOf env claim r ranked) = .ok outcome ∧
      b = bundleProvenance outcome ranked claim (scopeOf env claim)
        (checkabilityOf claim r (scopeOf env claim)) := by
  unfold verifyClaim at h
  rw [Eff.bind_ok] at h
  obtain ⟨r, s₁, hr, h⟩ := h
  dsimp only at h
  rw [Eff.bind_ok] at h
  obtain ⟨ranked, s₂, hranked, h⟩ := h
  rw [Eff.bind_ok] at h
  obtain ⟨outcome, s₃, hout, h⟩ := h
  have hdec : decideVerdict (inputsOf env claim r ranked) = .ok outcome := (Prod.mk.inj hout).1
  refine ⟨r, s₁, ranked, s₂, outcome, hr, hranked, hdec, ?_⟩
  cases hconn : P.reviewConnection with
  | none =>
    rw [hconn] at h
    cases h
    rfl
  | some conn =>
    rw [hconn] at h
    dsimp only at h
    rw [Eff.bind_ok] at h
    obtain ⟨_, s₄, -, h⟩ := h
    cases h
    rfl

theorem verifyClaim_claim {b : Bundle} {s s' : σ} (h : P.verifyClaim env claim s = (.ok b, s')) :
    b.claim = claim := by
  obtain ⟨_, _, _, _, _, -, -, -, rfl⟩ := verifyClaim_ok h
  rfl

/-- **The run from its pieces**, when there is no conflict task to open. -/
theorem verifyClaim_run {r : ResolutionResult} {ranked : List RerankScore}
    {outcome : VerdictOutcome} {s s₁ s₂ : σ} (hr : P.resolveClaim claim s = (.ok r, s₁))
    (hranked : P.retrieve claim r.resolvedSlots (scopeOf env claim) s₁ = (.ok ranked, s₂))
    (hout : decideVerdict (inputsOf env claim r ranked) = .ok outcome)
    (hreview : outcome.status ≠ .mixed) :
    P.verifyClaim env claim s =
      (.ok (bundleProvenance outcome ranked claim (scopeOf env claim)
        (checkabilityOf claim r (scopeOf env claim))), s₂) := by
  unfold verifyClaim
  rw [Eff.bind_of_ok hr]
  dsimp only
  rw [Eff.bind_of_ok hranked]
  have hlift : (Eff.lift (decideVerdict (inputsOf env claim r ranked)) : Eff σ VerdictOutcome) s₂ =
      (.ok outcome, s₂) := by
    unfold Eff.lift
    rw [hout]
  rw [Eff.bind_of_ok hlift]
  cases P.reviewConnection with
  | none => rfl
  | some conn =>
    dsimp only
    unfold maybeOpenConflictTask
    rw [if_pos hreview]
    rfl

/-- The reranked evidence of a claim. -/
abbrev rankedOf (env : Env) (claim : DecomposedClaim) (r : ResolutionResult)
    (rows : List GraphEvidence) (found : List LexicalEvidence) : List RerankScore :=
  rerank (rows.map .graph ++ found.map .lexical) claim.claimType (some (scopeOf env claim))
    (resolvedIds r.resolvedSlots)

/-- What the turn of a claim finds that comes in the world `u`: a resolution, which leaves the world
`w`; there the rows of its query; and the snippets of its text, which leave the world `w'`. -/
structure Finds (P : VerifyPipeline σ) (env : Env) (claim : DecomposedClaim) (u : σ)
    (r : ResolutionResult) (w : σ) (rows : List GraphEvidence) (found : List LexicalEvidence)
    (w' : σ) : Prop where
  resolved : P.resolveClaim claim u = (.ok r, w)
  retrieved : ∃ v, orEmpty (P.graph.map fun g => g claim.claimType
      (graphParams r.resolvedSlots (scopeOf env claim))) w = (.ok rows, v) ∧
    orEmpty (P.lexical.map fun l => l claim.normalizedText) v = (.ok found, w')

theorem exists_finds (P : VerifyPipeline σ) (env : Env) (claim : DecomposedClaim) (u : σ) :
    ∃ r w rows found w', P.Finds env claim u r w rows found w' := by
  obtain ⟨r, w, hr⟩ := resolveClaim_total P claim u
  obtain ⟨rows, found, v, w', hrows, hfound, -⟩ :=
    retrieve_total P claim r.resolvedSlots (scopeOf env claim) w
  exact ⟨r, w, rows, found, w', hr, v, hrows, hfound⟩

theorem Finds.ranked {r : ResolutionResult} {rows : List GraphEvidence}
    {found : List LexicalEvidence} {u w w' : σ} (h : P.Finds env claim u r w rows found w') :
    P.retrieve claim r.resolvedSlots (scopeOf env claim) w =
      (.ok (rankedOf env claim r rows found), w') := by
  obtain ⟨v, hrows, hfound⟩ := h.retrieved
  unfold retrieve
  rw [Eff.bind_of_ok hrows, Eff.bind_of_ok hfound]
  rfl

/-- **The bundle of a turn** is the verdict on what the turn finds. -/
theorem verifyClaim_finds {b : Bundle} {u u' : σ} (h : P.verifyClaim env claim u = (.ok b, u')) :
    ∃ r w rows found w' outcome, P.Finds env claim u r w rows found w' ∧
      decideVerdict (inputsOf env claim r (rankedOf env claim r rows found)) = .ok outcome ∧
      b = bundleProvenance outcome (rankedOf env claim r rows found) claim (scopeOf env claim)
        (checkabilityOf claim r (scopeOf env claim)) := by
  obtain ⟨r, w, rows, found, w', hfinds⟩ := exists_finds P env claim u
  obtain ⟨r', w₁, ranked, w₂, outcome, hr, hranked, hdec, rfl⟩ := verifyClaim_ok h
  obtain ⟨hrr, rfl⟩ := Prod.mk.inj (hr.symm.trans hfinds.resolved)
  obtain rfl := Except.ok.inj hrr
  obtain rfl := Except.ok.inj (Prod.mk.inj (hranked.symm.trans hfinds.ranked)).1
  exact ⟨r', w₁, rows, found, w', outcome, hfinds, hdec, rfl⟩

theorem verify_eq (P : VerifyPipeline σ) (env : Env) (statement : String)
    (language : Option Language) : P.verify env statement language =
      Eff.collect (P.verifyClaim env) []
        (decompose env.uuid4 none statement (language.getD P.defaultLanguage)).claims := rfl

/-- The claims of a run, each with the world in which its turn comes. -/
def claimTurns (P : VerifyPipeline σ) (env : Env) (statement : String) (language : Option Language)
    (s : σ) : List (DecomposedClaim × σ) :=
  Eff.turns (P.verifyClaim env)
    (decompose env.uuid4 none statement (language.getD P.defaultLanguage)).claims s

/-- **The bundles of `verify` are the runs of its claims**, turn by turn. -/
theorem verify_turns {statement : String} {language : Option Language} {bundles : List Bundle}
    {s s' : σ} (h : P.verify env statement language s = (.ok bundles, s')) :
    List.Forall₂ (fun turn b => ∃ u, P.verifyClaim env turn.1 turn.2 = (.ok b, u))
      (P.claimTurns env statement language s) bundles := by
  rw [verify_eq] at h
  obtain ⟨new, rfl, hnew⟩ := Eff.collect_forall₂ h
  exact hnew

theorem verify_single {statement : String} {language : Option Language} {b : Bundle} {s s' : σ}
    (hclaims : (decompose env.uuid4 none statement (language.getD P.defaultLanguage)).claims =
      [claim]) (h : P.verifyClaim env claim s = (.ok b, s')) :
    P.verify env statement language s = (.ok [b], s') := by
  have hround : (do return [] ++ [← P.verifyClaim env claim] : Eff σ (List Bundle)) s =
      (.ok [b], s') := by
    rw [Eff.bind_of_ok h]
    rfl
  unfold verify
  rw [hclaims, Eff.forList, Eff.bind_of_ok hround]
  rfl

end VerifyPipeline

def plainEnv : Env := ⟨⟨id, lower, Char.isAlphanum⟩, ⟨2024, 1, 1⟩, fun n => toString n⟩

end CivicProof
