import CivicProof.Proof.Scripts
import CivicProof.Spec.Declaration

/-!
# What the decomposer returns

* `decompose_cases`: the rule claims, or the claims of the provider where no rule claim is left.
* `ruleClaims_key`: rule claims, up to their ids, depend on the statement and the language only.
* `offlineCheckability_eq`: what stands in the way of a derived claim is its time scope alone.
* `decomposer_invariant`: validity, method and provider call of a decomposition, and the
  checkability of a declaration.
-/

namespace CivicProof

variable {uuid4 uuid4' : ℕ → String} {llm : Option LLMProvider} {statement : String}
  {language language' : Language}

/-- The claims that the rules find in a stripped statement and the validator accepts. -/
def ruleClaims (uuid4 : ℕ → String) (statement : List Char) (language : Language) :
    List DecomposedClaim :=
  ((selectMatches ((iterMatches statement language).insertionSort matchLE)).zipIdx.map fun (m, i) =>
    ruleMatchToClaim (uuid4 i) m statement).filter fun c => validateSlots c.claimType c.slots = []

/-- The claims that a provider's raw claims make, from the `n`-th id on. -/
def llmClaims (uuid4 : ℕ → String) (n : ℕ) (statement : String) (raws : List RawClaim) :
    List DecomposedClaim :=
  (raws.zipIdx.map fun (raw, i) => llmRawToClaim (uuid4 (n + i)) statement raw).filterMap id

/-! ## The decomposer in closed form -/

theorem ruleClaims_nil : ruleClaims uuid4 [] language = [] := by
  have hnone : (iterMatches [] language).isEmpty = true := by cases language <;> decide
  unfold ruleClaims
  rw [List.isEmpty_iff.1 hnone]
  rfl

/-- A provider's claim keeps the id it is given. -/
theorem llmRawToClaim_fields {claimId : String} {raw : RawClaim} {c : DecomposedClaim}
    (h : llmRawToClaim claimId statement raw = some c) : c.method = .llm ∧ c.claimId = claimId := by
  unfold llmRawToClaim at h
  rw [Option.bind_eq_some_iff] at h
  obtain ⟨ct, -, h⟩ := h
  split at h
  · cases h
    exact ⟨rfl, rfl⟩
  · cases h

theorem mem_llmClaims {n : ℕ} {raws : List RawClaim} {c : DecomposedClaim} :
    c ∈ llmClaims uuid4 n statement raws ↔
      ∃ x ∈ raws.zipIdx, llmRawToClaim (uuid4 (n + x.2)) statement x.1 = some c := by
  unfold llmClaims
  simp only [List.mem_filterMap, List.mem_map, id, exists_exists_and_eq_and]

theorem ruleClaims_method {statement : List Char} {c : DecomposedClaim}
    (hc : c ∈ ruleClaims uuid4 statement language) : c.method = .rules := by
  obtain ⟨⟨m, i⟩, -, rfl⟩ := List.mem_map.1 (List.mem_of_mem_filter hc)
  rfl

/-- **The two ways of a decomposition**: what the rules find, or what the provider proposes for a
statement that is not blank and has no valid rule claim. -/
theorem decompose_cases (uuid4 : ℕ → String) (llm : Option LLMProvider) (statement : String)
    (language : Language) :
    ((decompose uuid4 llm statement language).llmInvoked = false ∧
      (decompose uuid4 llm statement language).claims =
        ruleClaims uuid4 (strip statement).toList language ∧
      (llm = none ∨ strip statement = "" ∨
        ruleClaims uuid4 (strip statement).toList language ≠ [])) ∨
    ((decompose uuid4 llm statement language).llmInvoked = true ∧
      strip statement ≠ "" ∧ ruleClaims uuid4 (strip statement).toList language = [] ∧
      ∃ provider n, llm = some provider ∧ (decompose uuid4 llm statement language).claims =
        llmClaims uuid4 n (strip statement) (provider (strip statement) language)) := by
  unfold decompose
  dsimp only
  split
  · rename_i hblank
    rw [hblank]
    exact Or.inl ⟨rfl, ruleClaims_nil.symm, Or.inr (Or.inl (String.toList_inj.1 hblank))⟩
  rename_i hblank
  have hne : strip statement ≠ "" := fun h => hblank (by rw [h]; rfl)
  split
  · rename_i provider hrules
    let n := (selectMatches ((iterMatches (strip statement).toList language).insertionSort
      matchLE)).length
    refine Or.inr ⟨rfl, hne, hrules, provider, n, rfl, ?_⟩
    rw [String.ofList_toList]
    rfl
  · rename_i llm _ _ hother
    refine Or.inl ⟨rfl, rfl, ?_⟩
    cases llm with
    | none => exact Or.inl rfl
    | some provider => exact Or.inr (Or.inr fun h => hother provider h rfl)

/-- **When the provider is asked.** -/
theorem decompose_llmInvoked : (decompose uuid4 llm statement language).llmInvoked = true ↔
    llm ≠ none ∧ strip statement ≠ "" ∧ ruleClaims uuid4 (strip statement).toList language = [] := by
  rcases decompose_cases uuid4 llm statement language with ⟨hi, -, hwhy⟩ | ⟨hi, hne, hrules, hllm⟩
  · rw [hi]
    refine iff_of_false Bool.false_ne_true ?_
    rintro ⟨hllm, hne, hrules⟩
    rcases hwhy with h | h | h
    · exact hllm h
    · exact hne h
    · exact h hrules
  · obtain ⟨provider, -, rfl, -⟩ := hllm
    exact iff_of_true hi ⟨Option.some_ne_none provider, hne, hrules⟩

theorem decompose_of_not_invoked (h : (decompose uuid4 llm statement language).llmInvoked = false) :
    (decompose uuid4 llm statement language).claims =
      ruleClaims uuid4 (strip statement).toList language := by
  rcases decompose_cases uuid4 llm statement language with ⟨-, hc, -⟩ | ⟨hi, -⟩
  · exact hc
  · rw [hi] at h
    cases h

theorem decompose_none : (decompose uuid4 none statement language).claims =
    ruleClaims uuid4 (strip statement).toList language := by
  apply decompose_of_not_invoked
  rw [← Bool.not_eq_true, decompose_llmInvoked]
  exact fun h => h.1 rfl

/-- All claims of a decomposition come the same way. -/
theorem decompose_method {c : DecomposedClaim}
    (hc : c ∈ (decompose uuid4 llm statement language).claims) :
    c.method = if (decompose uuid4 llm statement language).llmInvoked then .llm else .rules := by
  rcases decompose_cases uuid4 llm statement language with ⟨hi, hclaims, -⟩ | ⟨hi, -, -, _, n, -, hclaims⟩
  · rw [hi]
    rw [hclaims] at hc
    exact ruleClaims_method hc
  · rw [hi]
    rw [hclaims] at hc
    obtain ⟨x, -, hx⟩ := mem_llmClaims.1 hc
    exact (llmRawToClaim_fields hx).1

/-- **The claims of a decomposition have ids of their own**, if the ids drawn are distinct. -/
theorem decompose_claimIds (hfresh : Function.Injective uuid4) :
    ((decompose uuid4 llm statement language).claims.map (·.claimId)).Nodup := by
  -- the elements of a numbered list have numbers of their own
  have hnumbers : ∀ {α : Type} (l : List α), l.zipIdx.Pairwise fun x y => x.2 ≠ y.2 := by
    intro α l
    have hrange : (l.zipIdx.map Prod.snd).Nodup := by
      rw [List.zipIdx_map_snd]
      exact List.nodup_range'
    exact List.pairwise_map.1 hrange
  rw [List.Nodup, List.pairwise_map]
  rcases decompose_cases uuid4 llm statement language with ⟨-, hclaims, -⟩ | ⟨-, -, -, _, n, -, hclaims⟩
  · rw [hclaims]
    refine List.Pairwise.filter _ (List.pairwise_map.2 ((hnumbers _).imp ?_))
    exact fun hne heq => hne (hfresh heq)
  · rw [hclaims]
    unfold llmClaims
    rw [List.pairwise_filterMap, List.pairwise_map]
    refine (hnumbers _).imp fun hne c hc c' hc' heq => hne ?_
    rw [(llmRawToClaim_fields hc).2, (llmRawToClaim_fields hc').2] at heq
    exact Nat.add_left_cancel (hfresh heq)

/-- Stripping the statement beforehand changes nothing. -/
theorem decompose_strip :
    decompose uuid4 llm (strip statement) language = decompose uuid4 llm statement language := by
  unfold decompose
  rw [strip_strip]

/-! ## Claims up to their ids -/

/-- What a claim says: its type and its text. -/
def DecomposedClaim.key (c : DecomposedClaim) : ClaimType × String := (c.claimType, c.normalizedText)

/-- **Rule claims depend on the statement and the language**, apart from their ids. -/
theorem ruleClaims_key (uuid4 uuid4' : ℕ → String) (statement : List Char) (language : Language) :
    (ruleClaims uuid4 statement language).map (·.key) =
      (ruleClaims uuid4' statement language).map (·.key) := by
  unfold ruleClaims
  generalize selectMatches _ = ms
  -- by induction on the selected matches, wherever the numbering begins
  have key : ∀ n, (((ms.zipIdx n).map fun (m, i) => ruleMatchToClaim (uuid4 i) m statement).filter
      fun c => validateSlots c.claimType c.slots = []).map (·.key) =
      (((ms.zipIdx n).map fun (m, i) => ruleMatchToClaim (uuid4' i) m statement).filter
      fun c => validateSlots c.claimType c.slots = []).map (·.key) := by
    induction ms with
    | nil => exact fun _ => rfl
    | cons m ms ih =>
      intro n
      rw [List.zipIdx_cons, List.map_cons, List.map_cons, List.filter_cons, List.filter_cons]
      have hslots : (ruleMatchToClaim (uuid4 n) m statement).slots =
          (ruleMatchToClaim (uuid4' n) m statement).slots := rfl
      have htype : (ruleMatchToClaim (uuid4 n) m statement).claimType =
          (ruleMatchToClaim (uuid4' n) m statement).claimType := rfl
      dsimp only
      rw [hslots, htype]
      split
      · rw [List.map_cons, List.map_cons, ih (n + 1)]
        rfl
      · exact ih (n + 1)
  exact key 0

/-- A rule claim has a text with Hebrew characters exactly if the rules are the Hebrew ones. -/
theorem ruleClaims_hebrew {statement : List Char} {c : DecomposedClaim}
    (hc : c ∈ ruleClaims uuid4 statement language) :
    (∃ x ∈ c.normalizedText.toList, Hebrew x) ↔ language = .he := by
  obtain ⟨⟨m, i⟩, hm, rfl⟩ := List.mem_map.1 (List.mem_of_mem_filter hc)
  have hsel := mem_of_mem_selectMatches (List.fst_mem_of_mem_zipIdx hm)
  exact normalizedText_hebrew ((List.mem_insertionSort matchLE).1 hsel) (uuid4 i)

/-- The rules of the two languages find no claim in common. -/
theorem ruleClaims_disjoint {statement statement' : List Char} {c c' : DecomposedClaim}
    (hl : language ≠ language') (hc : c ∈ ruleClaims uuid4 statement language)
    (hc' : c' ∈ ruleClaims uuid4' statement' language') : c.key ≠ c'.key := by
  intro hkey
  have htext : c.normalizedText = c'.normalizedText := congrArg Prod.snd hkey
  have hsame : language = .he ↔ language' = .he := by
    rw [← ruleClaims_hebrew hc, ← ruleClaims_hebrew hc', htext]
  cases language <;> cases language'
  · exact hl rfl
  · exact absurd (hsame.1 rfl) (by decide)
  · exact absurd (hsame.2 rfl) (by decide)
  · exact hl rfl

/-! ## Checkability of a declaration -/

/-- The time scope stands in the way of a claim. -/
def NeedsTime (env : Env) (c : DecomposedClaim) : Prop :=
  c.claimType ∈ timeRequiredClaimTypes ∧ timeGranularity env c.timePhrase = .unknown

instance {env : Env} {c : DecomposedClaim} : Decidable (NeedsTime env c) :=
  inferInstanceAs (Decidable (_ ∧ _))

/-- Of a claim with valid slots, only the time scope can be insufficient. -/
theorem offlineCheckability_eq {env : Env} {c : DecomposedClaim}
    (h : validateSlots c.claimType c.slots = []) :
    offlineCheckability env c = if NeedsTime env c then .insufficientTimeScope else .checkable := by
  have hstatus : statusBlocks
      { claimType := c.claimType
        slots := c.slots
        slotResolverStatus := fun _ => none
        timeGranularity := timeGranularity env c.timePhrase } = false :=
    statusBlocks_false.2 fun _ _ _ h => absurd h (Option.some_ne_none _).symm
  unfold offlineCheckability classify
  rw [if_neg (not_not.2 h), if_neg (by rw [hstatus]; exact Bool.false_ne_true)]
  rfl

/-- The aggregate of claims that are checkable or have an insufficient time scope. -/
theorem classifyDeclarationCheckability_eq {checks : List Checkability}
    (h : ∀ x ∈ checks, x = .checkable ∨ x = .insufficientTimeScope) :
    classifyDeclarationCheckability checks =
      if checks = [] then .notCheckable
      else if ∀ x ∈ checks, x = .insufficientTimeScope then .insufficientTimeScope
      else .checkableFormalAction := by
  unfold classifyDeclarationCheckability
  split
  · rfl
  have hcount : 0 < checks.count .checkable ↔ ¬∀ x ∈ checks, x = .insufficientTimeScope := by
    rw [List.count_pos_iff]
    constructor
    · exact fun hmem hall => absurd (hall _ hmem) (by decide)
    · intro hnot
      by_contra hmem
      exact hnot fun x hx => (h x hx).resolve_left fun hc => hmem (hc ▸ hx)
  by_cases hall : ∀ x ∈ checks, x = .insufficientTimeScope
  · have hlen : checks.count .insufficientTimeScope = checks.length :=
      List.count_eq_length.2 fun x hx => (hall x hx).symm
    rw [if_neg (fun hc => hcount.1 hc hall), if_pos hlen, if_pos hall]
  · rw [if_pos (hcount.2 hall), if_neg hall]

section

variable {env : Env} {declarationId : String} {text : String}

theorem declarationDecompose_claims :
    (declarationDecompose env declarationId llm text language).claims =
      (decompose env.uuid4 llm text language).claims := by
  unfold declarationDecompose
  dsimp only
  rw [decompose_strip]

theorem declarationDecompose_ids :
    (declarationDecompose env declarationId llm text language).declaration.derivedAtomicClaimIds =
      (decompose env.uuid4 llm text language).claims.map (·.claimId) := by
  unfold declarationDecompose
  dsimp only
  rw [decompose_strip]

theorem declarationDecompose_checks :
    (declarationDecompose env declarationId llm text language).declaration.checkability =
      classifyDeclarationCheckability
        ((decompose env.uuid4 llm text language).claims.map (offlineCheckability env)) := by
  unfold declarationDecompose
  dsimp only
  rw [decompose_strip]

/-- The checkability of a declaration, from its claims. -/
theorem declarationDecompose_checkability :
    (declarationDecompose env declarationId llm text language).declaration.checkability =
      if (decompose env.uuid4 llm text language).claims = [] then .notCheckable
      else if ∀ c ∈ (decompose env.uuid4 llm text language).claims, NeedsTime env c then
        .insufficientTimeScope
      else .checkableFormalAction := by
  rw [declarationDecompose_checks]
  have hvalid : ∀ c ∈ (decompose env.uuid4 llm text language).claims,
      validateSlots c.claimType c.slots = [] := fun c => decompose_validate
  generalize (decompose env.uuid4 llm text language).claims = claims at hvalid
  have heq : ∀ c ∈ claims, offlineCheckability env c =
      if NeedsTime env c then .insufficientTimeScope else .checkable :=
    fun c hc => offlineCheckability_eq (hvalid c hc)
  rw [classifyDeclarationCheckability_eq]
  · have hall : (∀ c ∈ claims, offlineCheckability env c = .insufficientTimeScope) ↔
        ∀ c ∈ claims, NeedsTime env c := by
      refine forall₂_congr fun c hc => ?_
      rw [heq c hc]
      split
      · exact iff_of_true rfl ‹_›
      · exact iff_of_false (by decide) ‹_›
    simp only [List.map_eq_nil_iff, List.forall_mem_map, hall]
  · rw [List.forall_mem_map]
    intro c hc
    rw [heq c hc]
    split
    · exact Or.inr rfl
    · exact Or.inl rfl

end

/-- **The invariant of a decomposition.** Every claim passes the validator, all come the same way,
the provider is asked for the statements that are not blank and have no valid rule claim; and the
declaration lists its claims, with one of three kinds of checkability. -/
theorem decomposer_invariant (env : Env) (declarationId : String) (llm : LLMProvider)
    (statement : String) (language : Language) :
    let r := decompose env.uuid4 (some llm) statement language
    let d := (declarationDecompose env declarationId (some llm) statement language).declaration
    (∀ c ∈ r.claims, validateSlots c.claimType c.slots = []) ∧
    (∃ method, ∀ c ∈ r.claims, c.method = method) ∧
    (r.llmInvoked = true ↔
      strip statement ≠ "" ∧ ruleClaims env.uuid4 (strip statement).toList language = []) ∧
    (d.checkability = .notCheckable ↔ r.claims = []) ∧
    (d.checkability = .insufficientTimeScope ↔ r.claims ≠ [] ∧ ∀ c ∈ r.claims, NeedsTime env c) ∧
    (d.checkability = .checkableFormalAction ↔
      r.claims ≠ [] ∧ ¬∀ c ∈ r.claims, NeedsTime env c) ∧
    d.derivedAtomicClaimIds = r.claims.map (·.claimId) := by
  intro r d
  refine ⟨fun c => decompose_validate, ⟨_, fun c => decompose_method⟩, ?_, ?_⟩
  · rw [decompose_llmInvoked]
    exact and_iff_right (Option.some_ne_none llm)
  have hcheck : d.checkability = if r.claims = [] then .notCheckable
      else if ∀ c ∈ r.claims, NeedsTime env c then .insufficientTimeScope
      else .checkableFormalAction := declarationDecompose_checkability
  have hids : d.derivedAtomicClaimIds = r.claims.map (·.claimId) := declarationDecompose_ids
  rw [hcheck, hids]
  generalize r.claims = claims
  by_cases hnil : claims = []
  · rw [if_pos hnil]
    exact ⟨iff_of_true rfl hnil, iff_of_false (by decide) fun h => h.1 hnil,
      iff_of_false (by decide) fun h => h.1 hnil, rfl⟩
  rw [if_neg hnil]
  by_cases hall : ∀ c ∈ claims, NeedsTime env c
  · rw [if_pos hall]
    exact ⟨iff_of_false (by decide) hnil, iff_of_true rfl ⟨hnil, hall⟩,
      iff_of_false (by decide) fun h => h.2 hall, rfl⟩
  · rw [if_neg hall]
    exact ⟨iff_of_false (by decide) hnil, iff_of_false (by decide) fun h => hall h.2,
      iff_of_true rfl ⟨hnil, hall⟩, rfl⟩

/-- A blank statement has no valid rule claim, and yet the provider is not asked. -/
theorem blank_not_invoked :
    ¬((decompose (fun _ => "") (some fun _ _ => []) " " .he).llmInvoked = true ↔
      ruleClaims (fun _ => "") (strip " ").toList .he = []) :=
  fun h => Bool.false_ne_true (h.2 ruleClaims_nil)

end CivicProof
