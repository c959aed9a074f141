import CivicProof.Spec.Rules

/-!
# Decomposition and checkability

`decompose`: rules first, the optional LLM provider when no rule claim survives, every
candidate through the slot validator. `classify`: the checkability of a claim from its
slots, the resolver's statuses and the granularity of its time scope.

* `decompose_validate`: every claim emitted has a valid slot dictionary.
* `decompose_rules`: without a provider, every claim emitted comes from a rule match.
-/

namespace CivicProof

/-- `Method`. -/
inductive Method where
  | rules
  | llm
  deriving DecidableEq, Repr

/-- `DecomposedClaim`: a candidate claim before resolution. -/
structure DecomposedClaim where
  claimId : String
  rawText : String
  normalizedText : String
  claimType : ClaimType
  slots : Slots
  timePhrase : Option String
  method : Method
  sourceRule : Option String

/-- `_normalize_vote_value`. -/
def normalizeVoteValue (raw : Option String) : Option String :=
  raw.bind fun r =>
    let val := lower (strip r)
    if val ∈ ["בעד", "for", "in favor of", "in favour of"] then some "for"
    else if val ∈ ["נגד", "against", "opposed"] then some "against"
    else if val ∈ ["נמנע", "נמנעה", "abstained", "to abstain"] then some "abstain"
    else none

/-- `_rule_match_to_claim`. The decision number stands in for the decision's id until
resolution; `claimId` is the fresh id the source draws. -/
def ruleMatchToClaim (claimId : String) (m : RuleMatch) (statement : List Char) :
    DecomposedClaim where
  claimId := claimId
  rawText := String.ofList statement
  normalizedText := strip (String.ofList ((statement.take m.stop).drop m.start))
  claimType := m.template.claimType
  slots
    -- a group that took no part, or is blank, gives a null slot
    | .speakerPersonId => orNone ((m.groups .subject).map strip)
    | .targetPersonId => none
    | .billId => orNone ((m.groups .bill).map strip)
    | .committeeId => orNone ((m.groups .committee).map strip)
    | .officeId => orNone ((m.groups .office).map strip)
    | .voteValue => normalizeVoteValue (m.groups .voteValue)
    | .partyId => orNone ((m.groups .party).map strip)
    | .expectedSeats => orNone ((m.groups .seats).map strip)
    | .expectPassedThreshold => if m.template.electionThresholdBelow then some "false" else none
    | .governmentDecisionId => orNone ((m.groups .decisionNumber).map strip)
    | .governmentNumber => orNone ((m.groups .governmentNumber).map strip)
  timePhrase := m.groups .time
  method := .rules
  sourceRule := some m.template.description

/-- `_overlaps`, on the spans of two matches. -/
def overlaps (a b : RuleMatch) : Bool := !(a.stop ≤ b.start || b.stop ≤ a.start)

/-- The sort key of the overlap resolution: longer spans first, then earlier ones. -/
def matchLE (a b : RuleMatch) : Prop :=
  b.stop - b.start < a.stop - a.start ∨
    (a.stop - a.start = b.stop - b.start ∧ a.start ≤ b.start)

instance : DecidableRel matchLE := fun _ _ => inferInstanceAs (Decidable (_ ∨ _))

/-- The selection loop: keep a match that overlaps none of those kept so far. -/
def selectMatches (ms : List RuleMatch) : List RuleMatch :=
  ms.foldl (fun selected m => if selected.any (overlaps m) then selected else selected ++ [m]) []

/-- A raw slot dictionary of an LLM provider, by wire name. -/
abbrev RawClaim := String → Option String

/-- `LLMProvider`. -/
abbrev LLMProvider := String → Language → List RawClaim

/-- The claim type a wire name stands for. -/
def ClaimType.ofName? (s : String) : Option ClaimType :=
  [ClaimType.voteCast, .billSponsorship, .officeHeld, .committeeMembership,
    .committeeAttendance, .statementAboutFormalAction, .electionResult,
    .governmentDecision].find? (·.name = s)

/-- The slot dictionary of a raw LLM claim. -/
def rawSlots (raw : RawClaim) : Slots := fun s =>
  if s = .voteValue then normalizeVoteValue (raw s.name) else raw s.name

/-- `_llm_raw_to_claim`. -/
def llmRawToClaim (claimId : String) (statement : String) (raw : RawClaim) :
    Option DecomposedClaim :=
  ((raw "claim_type").bind ClaimType.ofName?).bind fun ct =>
    if validateSlots ct (rawSlots raw) = [] then
      some
        { claimId := claimId
          rawText := statement
          normalizedText := strip ((orNone (raw "normalized_text")).getD statement)
          claimType := ct
          slots := rawSlots raw
          timePhrase := raw "time_phrase"
          method := .llm
          sourceRule := none }
    else none

/-- `DecompositionResult`. -/
structure DecompositionResult where
  claims : List DecomposedClaim := []
  ruleMatches : ℕ := 0
  llmInvoked : Bool := false
  validationErrors : List String := []

/-- `decompose`. `uuid4` is the stream of fresh claim ids. -/
def decompose (uuid4 : ℕ → String) (llm : Option LLMProvider) (statement : String)
    (language : Language) : DecompositionResult :=
  let statement := (strip statement).toList
  if statement = [] then {} else
  let selected := selectMatches ((iterMatches statement language).insertionSort matchLE)
  let candidates := selected.zipIdx.map fun (m, i) => ruleMatchToClaim (uuid4 i) m statement
  let claims := candidates.filter fun c => validateSlots c.claimType c.slots = []
  let errors := candidates.flatMap fun c => validateSlots c.claimType c.slots
  match claims, llm with
  -- the provider is asked only when no rule claim passes the validator
  | [], some provider =>
    let raws := provider (String.ofList statement) language
    let boxed := raws.zipIdx.map fun (raw, i) =>
      llmRawToClaim (uuid4 (selected.length + i)) (String.ofList statement) raw
    { claims := boxed.filterMap id
      ruleMatches := selected.length
      llmInvoked := true
      validationErrors := errors ++ (boxed.filter (·.isNone)).map fun _ =>
        "llm output rejected by slot validator" }
  | _, _ =>
    { claims := claims
      ruleMatches := selected.length
      llmInvoked := false
      validationErrors := errors }

theorem llmRawToClaim_validate {claimId statement : String} {raw : RawClaim}
    {c : DecomposedClaim} (h : llmRawToClaim claimId statement raw = some c) :
    validateSlots c.claimType c.slots = [] := by
  unfold llmRawToClaim at h
  rw [Option.bind_eq_some_iff] at h
  obtain ⟨ct, -, h⟩ := h
  split at h
  · rename_i hv
    cases h
    exact hv
  · cases h

/-- **Every claim emitted has a valid slot dictionary**, whoever proposed it. -/
theorem decompose_validate {uuid4 : ℕ → String} {llm : Option LLMProvider} {statement : String}
    {language : Language} {c : DecomposedClaim}
    (hc : c ∈ (decompose uuid4 llm statement language).claims) :
    validateSlots c.claimType c.slots = [] := by
  unfold decompose at hc
  dsimp only at hc
  split at hc
  · exact absurd hc List.not_mem_nil
  split at hc
  · simp only [List.mem_filterMap, List.mem_map, id] at hc
    obtain ⟨_, ⟨⟨raw, i⟩, -, rfl⟩, h⟩ := hc
    exact llmRawToClaim_validate h
  · have := List.of_mem_filter hc
    simpa using this

/-- The selection keeps only matches it was given. -/
theorem mem_of_mem_selectMatches {ms : List RuleMatch} {m : RuleMatch}
    (hm : m ∈ selectMatches ms) : m ∈ ms := by
  have key : ∀ (l sel : List RuleMatch), m ∈ l.foldl (fun selected m =>
      if selected.any (overlaps m) then selected else selected ++ [m]) sel → m ∈ sel ∨ m ∈ l := by
    intro l
    -- by induction on the list, for every selection made so far
    induction l with
    | nil => intro sel h; exact Or.inl h
    | cons a l ih =>
      intro sel h
      rw [List.foldl_cons] at h
      rcases ih _ h with h | h
      · split at h
        · exact Or.inl h
        · rcases List.mem_append.1 h with h | h
          · exact Or.inl h
          · exact Or.inr (List.mem_cons.2 (Or.inl (List.mem_singleton.1 h)))
      · exact Or.inr (List.mem_cons_of_mem _ h)
  exact (key ms [] hm).resolve_left List.not_mem_nil

theorem iterMatches_template {statement : List Char} {language : Language} {m : RuleMatch}
    (hm : m ∈ iterMatches statement language) :
    m.template ∈ ruleTemplates ∧ m.template.language = language := by
  unfold iterMatches at hm
  obtain ⟨tmpl, ht, hm⟩ := List.mem_flatMap.1 hm
  obtain ⟨_, -, rfl⟩ := List.mem_map.1 hm
  have ht := List.mem_filter.1 ht
  exact ⟨ht.1, by simpa using ht.2⟩

/-- **Without a provider every claim is a rule claim**: it is built from a match of some
template of the language. -/
theorem decompose_rules {uuid4 : ℕ → String} {statement : String} {language : Language}
    {c : DecomposedClaim} (hc : c ∈ (decompose uuid4 none statement language).claims) :
    ∃ claimId m, m ∈ iterMatches (strip statement).toList language ∧
      m.template ∈ ruleTemplates ∧ m.template.language = language ∧
      c = ruleMatchToClaim claimId m (strip statement).toList := by
  unfold decompose at hc
  dsimp only at hc
  split at hc
  · exact absurd hc List.not_mem_nil
  split at hc
  · rename_i h
    cases h
  · have hc := List.mem_of_mem_filter hc
    rw [List.mem_map] at hc
    obtain ⟨⟨m, i⟩, hm, rfl⟩ := hc
    have hsel := mem_of_mem_selectMatches (List.fst_mem_of_mem_zipIdx hm)
    have hiter := (List.mem_insertionSort matchLE).1 hsel
    obtain ⟨htmpl, hlang⟩ := iterMatches_template hiter
    exact ⟨_, m, hiter, htmpl, hlang, rfl⟩

/-! ## Checkability -/

/-- The status of a slot in the resolver's answer. -/
inductive ResolverStatus where
  | resolved
  | ambiguous
  | unresolved
  | notApplicable
  deriving DecidableEq, Repr

/-- `TIME_REQUIRED_CLAIM_TYPES`. -/
def timeRequiredClaimTypes : List ClaimType := [.voteCast, .committeeAttendance]

/-- `CheckabilityInputs`. -/
structure CheckabilityInputs where
  claimType : ClaimType
  slots : Slots
  slotResolverStatus : Slot → Option ResolverStatus
  timeGranularity : Granularity

/-- The status loop of `classify`: some required slot has a status other than resolved or
not applicable. A slot without a status counts as not applicable. -/
def statusBlocks (inputs : CheckabilityInputs) : Bool :=
  (slotTemplates inputs.claimType).required.any fun slot =>
    (inputs.slotResolverStatus slot).getD .notApplicable ∉ [ResolverStatus.resolved, .notApplicable]

/-- `classify`. The source's first test (an unsupported claim type) cannot fire on a
`ClaimType`. -/
def classify (inputs : CheckabilityInputs) : Checkability :=
  if validateSlots inputs.claimType inputs.slots ≠ [] then .insufficientEntityResolution
  else if statusBlocks inputs then .insufficientEntityResolution
  else if inputs.claimType ∈ timeRequiredClaimTypes ∧ inputs.timeGranularity = .unknown then
    .insufficientTimeScope
  else .checkable

theorem statusBlocks_false {inputs : CheckabilityInputs} :
    statusBlocks inputs = false ↔ ∀ slot ∈ (slotTemplates inputs.claimType).required, ∀ st,
      inputs.slotResolverStatus slot = some st → st = .resolved ∨ st = .notApplicable := by
  unfold statusBlocks
  rw [List.any_eq_false]
  refine forall₂_congr fun slot _ => ?_
  cases inputs.slotResolverStatus slot with
  | none => simp
  | some st => cases st <;> simp

/-- **When a claim is checkable.** A missing status does not stand in the way. -/
theorem classify_checkable {inputs : CheckabilityInputs} :
    classify inputs = .checkable ↔
      validateSlots inputs.claimType inputs.slots = [] ∧
        (∀ slot ∈ (slotTemplates inputs.claimType).required, ∀ st,
          inputs.slotResolverStatus slot = some st → st = .resolved ∨ st = .notApplicable) ∧
        ¬(inputs.claimType ∈ timeRequiredClaimTypes ∧ inputs.timeGranularity = .unknown) := by
  rw [← statusBlocks_false]
  unfold classify
  split_ifs with h1 h2 h3
  · simp [h1]
  · simp [h2]
  · simp [h3]
  · rw [ne_eq, not_not] at h1
    rw [Bool.not_eq_true] at h2
    exact iff_of_true rfl ⟨h1, h2, h3⟩

end CivicProof
