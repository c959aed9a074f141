import CivicProof.Proof.Decompose
import CivicProof.Proof.Degrade

/-!
# Which claims the edges of a declaration are about

`DeclarationVerifier.verify` decomposes the utterance a second time, without a provider and in the
language of the request, and pairs the two lists by position.

* `DeclarationVerifier.verify_run`: the run of a verification.
* `judge_aligned_iff`: pairing by position is right exactly if the derived claims are, up to their
  ids, the first of the verified ones.
* `declaration_aligned_iff`: for which languages, providers and runs the edges are about the right
  claims.
-/

namespace CivicProof

variable {σ : Type}

/-! ## The run of a verification -/

namespace DeclarationVerifier

variable {V : DeclarationVerifier σ} {uuid4 : ℕ → String} {d : DeclarationDecompositionResult}
  {language : Language} {s s₁ : σ} {bundles : List Bundle}

/-- Whatever the queue does, the review step ends normally. -/
theorem enqueue_total (V : DeclarationVerifier σ) (r : DeclarationVerificationResult) (s : σ) :
    (V.enqueue r s).1 = .ok () := by
  unfold enqueue
  cases V.reviewConnection with
  | none => rfl
  | some conn =>
    cases reviewTask r with
    | none => rfl
    | some task =>
      obtain ⟨a, t', h⟩ := VerifyPipeline.orElse_pure (conn task) () s
      exact congrArg Prod.fst h

/-- **The run of a verification**, once the pipeline has ended normally. -/
theorem verify_run (h : V.pipeline d.declaration.utteranceText language s = (.ok bundles, s₁)) :
    V.verify uuid4 d language s =
      (.ok (judge uuid4 d bundles), (V.enqueue (judge uuid4 d bundles) s₁).2) := by
  unfold verify
  rw [Eff.bind_of_ok h]
  exact Eff.bind_of_ok (Prod.ext (enqueue_total V _ s₁) rfl)

theorem verify_ok_iff (V : DeclarationVerifier σ) (uuid4 : ℕ → String)
    (d : DeclarationDecompositionResult) (language : Language) (s : σ)
    (r : DeclarationVerificationResult) :
    (∃ s', V.verify uuid4 d language s = (.ok r, s')) ↔ ∃ bundles s₁,
      V.pipeline d.declaration.utteranceText language s = (.ok bundles, s₁) ∧
        r = judge uuid4 d bundles := by
  constructor
  · rintro ⟨s', h⟩
    obtain ⟨bundles, s₁, hpipe, -⟩ : ∃ bundles s₁,
        V.pipeline d.declaration.utteranceText language s = (.ok bundles, s₁) ∧ _ := Eff.bind_ok.1 h
    rw [verify_run hpipe] at h
    cases h
    exact ⟨bundles, s₁, hpipe, rfl⟩
  · rintro ⟨bundles, s₁, hpipe, rfl⟩
    exact ⟨_, verify_run hpipe⟩

end DeclarationVerifier

/-! ## Pairing by position -/

/-- A verification is about the claims of the declaration: it has one edge and one verdict for each,
the `i`-th verdict is on a claim that says what the `i`-th one says, and the `i`-th edge is made of
the two. -/
structure Aligned (uuid4 : ℕ → String) (d : DeclarationDecompositionResult)
    (r : DeclarationVerificationResult) : Prop where
  edges : r.attributionEdges.length = d.claims.length
  verdicts : r.claimVerdicts.length = d.claims.length
  same : ∀ (i : ℕ) (c : DecomposedClaim), d.claims[i]? = some c → ∃ b,
    r.claimVerdicts[i]? = some b ∧ b.claim.key = c.key ∧
      r.attributionEdges[i]? =
        some (buildAttributionEdge (uuid4 i) d.declaration.declarationId c b)

/-- **Pairing by position is right** exactly if the derived claims are the first of the verified
ones, up to their ids. -/
theorem judge_aligned_iff {uuid4 : ℕ → String} {d : DeclarationDecompositionResult}
    {bundles : List Bundle} : Aligned uuid4 d (DeclarationVerifier.judge uuid4 d bundles) ↔
      d.claims.map (·.key) <+: (bundles.map (·.claim)).map (·.key) := by
  have hverdict : ∀ {i : ℕ} {b : Bundle},
      (DeclarationVerifier.judge uuid4 d bundles).claimVerdicts[i]? = some b →
        bundles[i]? = some b := by
    intro i b h
    obtain ⟨p, hp, rfl⟩ := Option.map_eq_some_iff.1 (List.getElem?_map.symm.trans h)
    exact (List.getElem?_zip_eq_some.1 hp).2
  constructor
  · intro h
    rw [List.prefix_iff_getElem?]
    intro i hi
    rw [List.length_map] at hi
    obtain ⟨b, hb, hkey, -⟩ := h.same i d.claims[i] (List.getElem?_eq_getElem hi)
    rw [List.getElem?_map, List.getElem?_map, hverdict hb, List.getElem_map, ← hkey]
    rfl
  · intro h
    have hlen : d.claims.length ≤ bundles.length := by simpa using h.length_le
    have hpair : ∀ {i : ℕ} {c : DecomposedClaim}, d.claims[i]? = some c → ∃ b,
        (d.claims.zip bundles)[i]? = some (c, b) ∧ b.claim.key = c.key := by
      intro i c hc
      obtain ⟨hi, rfl⟩ := List.getElem?_eq_some_iff.1 hc
      have hib := Nat.lt_of_lt_of_le hi hlen
      refine ⟨bundles[i], List.getElem?_zip_eq_some.2 ⟨hc, List.getElem?_eq_getElem hib⟩, ?_⟩
      have hkey := List.prefix_iff_getElem?.1 h i (by rwa [List.length_map])
      rw [List.getElem?_map, List.getElem?_map, List.getElem?_eq_getElem hib, List.getElem_map] at hkey
      exact Option.some.inj hkey
    refine ⟨?_, ?_, fun i c hc => ?_⟩
    · simpa [DeclarationVerifier.judge] using hlen
    · simpa [DeclarationVerifier.judge] using hlen
    · obtain ⟨b, hb, hkey⟩ := hpair hc
      refine ⟨b, ?_, hkey, ?_⟩
      · simp [DeclarationVerifier.judge, hb]
      · simp [DeclarationVerifier.judge, List.getElem?_zipIdx, hb]

/-! ## Two decompositions of an utterance -/

/-- The claims derived from an utterance are found again in the language of the request: there are
none; or the rules have found them, in that language; or a provider has proposed what the rules of
the other language find. -/
def FoundAgain (env' : Env) (text : String) (language language' : Language)
    (d : DeclarationDecompositionResult) : Prop :=
  d.claims = [] ∨
    (d.decomposition.llmInvoked = false ∧ language = language') ∨
    (d.decomposition.llmInvoked = true ∧ language ≠ language' ∧ d.claims.map (·.key) <+:
      (ruleClaims env'.uuid4 (strip text).toList language').map (·.key))

theorem declarationDecompose_llmInvoked {env : Env} {declarationId : String}
    {llm : Option LLMProvider} {text : String} {language : Language} :
    (declarationDecompose env declarationId llm text language).decomposition.llmInvoked =
      (decompose env.uuid4 llm text language).llmInvoked := by
  unfold declarationDecompose
  dsimp only
  rw [decompose_strip]

/-- The derived claims are the first that the rules find for the request, exactly if they are found
again. -/
theorem foundAgain_iff (env env' : Env) (declarationId : String) (llm : Option LLMProvider)
    (text : String) (language language' : Language) :
    FoundAgain env' text language language'
        (declarationDecompose env declarationId llm text language) ↔
      (declarationDecompose env declarationId llm text language).claims.map (·.key) <+:
        (ruleClaims env'.uuid4 (strip text).toList language').map (·.key) := by
  unfold FoundAgain
  rw [declarationDecompose_llmInvoked, declarationDecompose_claims]
  have hcases := decompose_cases env.uuid4 llm text language
  generalize decompose env.uuid4 llm text language = r at hcases ⊢
  constructor
  · rintro (hnil | ⟨hi, rfl⟩ | ⟨-, -, hfirst⟩)
    · rw [hnil]
      exact List.nil_prefix
    · rcases hcases with ⟨-, hclaims, -⟩ | ⟨hinv, -⟩
      · rw [hclaims, ruleClaims_key env.uuid4 env'.uuid4]
      · rw [hi] at hinv
        cases hinv
    · exact hfirst
  · intro hfirst
    by_cases hnil : r.claims = []
    · exact Or.inl hnil
    obtain ⟨c, hc⟩ := List.exists_mem_of_ne_nil _ hnil
    -- the first claim is one of those found for the request
    obtain ⟨c', hc', hkey⟩ := List.mem_map.1 (hfirst.subset (List.mem_map_of_mem hc))
    rcases hcases with ⟨hi, hclaims, -⟩ | ⟨hi, -, hrules, -⟩
    · refine Or.inr (Or.inl ⟨hi, ?_⟩)
      by_contra hl
      rw [hclaims] at hc
      exact ruleClaims_disjoint hl hc hc' hkey.symm
    · refine Or.inr (Or.inr ⟨hi, ?_, hfirst⟩)
      rintro rfl
      -- a provider is asked only where the rules find nothing
      have hnone := ruleClaims_key env.uuid4 env'.uuid4 (strip text).toList language
      rw [hrules, List.map_nil, eq_comm, List.map_eq_nil_iff] at hnone
      rw [hnone] at hc'
      cases hc'

/-- The declaration verifier over a pipeline. -/
def VerifyPipeline.declarations (P : VerifyPipeline σ) (env : Env)
    (reviewConnection : Option (NewTask → Eff σ Unit)) : DeclarationVerifier σ where
  pipeline text language := P.verify env text (some language)
  reviewConnection := reviewConnection

theorem VerifyPipeline.declarations_pipeline (P : VerifyPipeline σ) (env : Env)
    (reviewConnection : Option (NewTask → Eff σ Unit)) (text : String) (language : Language) :
    (P.declarations env reviewConnection).pipeline text language =
      P.verify env text (some language) := by
  rw [VerifyPipeline.declarations]

/-- A verification over a pipeline is about the claims of the declaration exactly if nothing
uncaught raises, and the rules find those claims first in the language of the request. -/
theorem verify_aligned_iff (P : VerifyPipeline σ)
    (reviewConnection : Option (NewTask → Eff σ Unit)) (env : Env)
    (d : DeclarationDecompositionResult) (language : Language) (uuid4 : ℕ → String) (s : σ) :
    (∃ r s', (P.declarations env reviewConnection).verify uuid4 d language s = (.ok r, s') ∧
        Aligned uuid4 d r) ↔
      (∀ t ∈ P.turns env d.declaration.utteranceText (some language) s, P.Clean env t.1 t.2) ∧
        d.claims.map (·.key) <+: (ruleClaims env.uuid4
          (strip d.declaration.utteranceText).toList language).map (·.key) := by
  rw [← VerifyPipeline.verify_ok_iff]
  have hfound : ∀ {bundles s₁},
      P.verify env d.declaration.utteranceText (some language) s = (.ok bundles, s₁) →
      (Aligned uuid4 d (DeclarationVerifier.judge uuid4 d bundles) ↔
        d.claims.map (·.key) <+: (ruleClaims env.uuid4
          (strip d.declaration.utteranceText).toList language).map (·.key)) := by
    intro bundles s₁ hrun
    rw [judge_aligned_iff, VerifyPipeline.verify_claims hrun, decompose_none]
    rfl
  constructor
  · rintro ⟨r, s', hrun, haligned⟩
    obtain ⟨bundles, s₁, hpipe, rfl⟩ :=
      (DeclarationVerifier.verify_ok_iff (P.declarations env reviewConnection) uuid4 d language s r).1
        ⟨s', hrun⟩
    rw [VerifyPipeline.declarations_pipeline] at hpipe
    exact ⟨⟨bundles, s₁, hpipe⟩, (hfound hpipe).1 haligned⟩
  · rintro ⟨⟨bundles, s₁, hpipe⟩, hfirst⟩
    have hpipe' := hpipe
    rw [← VerifyPipeline.declarations_pipeline P env reviewConnection] at hpipe'
    obtain ⟨s', hrun⟩ := (DeclarationVerifier.verify_ok_iff (P.declarations env reviewConnection)
      uuid4 d language s _).2 ⟨bundles, s₁, hpipe', rfl⟩
    exact ⟨_, s', hrun, (hfound hpipe).2 hfirst⟩

/-- **The edges of a declaration are about its claims** exactly if nothing uncaught raises in the
pipeline's run and the request finds the derived claims again. -/
theorem declaration_aligned_iff (P : VerifyPipeline σ)
    (reviewConnection : Option (NewTask → Eff σ Unit)) (env env' : Env) (declarationId : String)
    (llm : Option LLMProvider) (text : String) (language language' : Language) (uuid4 : ℕ → String)
    (s : σ) :
    let d := declarationDecompose env declarationId llm text language
    (∃ r s', (P.declarations env' reviewConnection).verify uuid4 d language' s = (.ok r, s') ∧
        Aligned uuid4 d r) ↔
      (∀ t ∈ P.turns env' text (some language') s, P.Clean env' t.1 t.2) ∧
        FoundAgain env' text language language' d := by
  intro d
  rw [foundAgain_iff]
  exact verify_aligned_iff P reviewConnection env' d language' uuid4 s

/-- An English declaration, verified in Hebrew: its claim gets no edge. -/
theorem declaration_other_language :
    ¬∃ r s', (({} : VerifyPipeline Unit).declarations plainEnv none).verify (fun _ => "edge")
        (declarationDecompose plainEnv "declaration" none
          "Likud won 32 seats" .en) .he () = (.ok r, s') ∧
      Aligned (fun _ => "edge") (declarationDecompose plainEnv "declaration" none
        "Likud won 32 seats" .en) r := by
  have hclaims : (declarationDecompose plainEnv "declaration" none
      "Likud won 32 seats" .en).claims.length = 1 := by decide
  have hrun : ((({} : VerifyPipeline Unit).declarations plainEnv none).verify (fun _ => "edge")
      (declarationDecompose plainEnv "declaration" none
        "Likud won 32 seats" .en) .he ()).1.map
      (fun r => r.attributionEdges.length) = .ok 0 := by decide
  rintro ⟨r, s', h, haligned⟩
  rw [h] at hrun
  have hzero : r.attributionEdges.length = 0 := Except.ok.inj hrun
  have hone := haligned.edges.trans hclaims
  omega

end CivicProof
