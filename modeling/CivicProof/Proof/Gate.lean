import CivicProof.Proof.Pipeline

/-!
# The resolution gate

A definite verdict should mean that every required entity slot was resolved. The gate is
the checkability test on the resolver's statuses; it opens when there are none, which is
what a resolver that raises leaves behind.

* `resolution_gate`: exactly when the gate holds for a claim.
* `governmentDecision_raisesUnresolved`: the resolver raises on every government decision
  claim.
-/

namespace CivicProof

variable {σ : Type}

/-- The required slots of a claim type that name an entity. -/
def requiredEntitySlots (ct : ClaimType) : List Slot :=
  (slotTemplates ct).required.filter fun slot => slot ∈ slotToKind.map Prod.fst

/-- The pipeline resolves with a live resolver. -/
def VerifyPipeline.Resolves (P : VerifyPipeline σ) (R : LiveEntityResolver σ) : Prop :=
  P.resolver = some fun claim => R.resolve claim.slots

/-- **The gate**: whatever the retrievers return, a definite verdict on the claim means that
every required entity slot was resolved in the call. -/
def Gate (env : Env) (R : LiveEntityResolver σ) (claim : DecomposedClaim) (s : σ) : Prop :=
  ∀ P : VerifyPipeline σ, P.Resolves R → ∀ b s', P.verifyClaim env claim s = (.ok b, s') →
    Definite b.outcome.status →
    ∀ slot ∈ requiredEntitySlots claim.claimType, R.ResolvedInCall claim.slots s slot

/-- The resolver raises while a required entity slot has no id yet. -/
def RaisesUnresolved (R : LiveEntityResolver σ) (claim : DecomposedClaim) (s : σ) : Prop :=
  (∃ e s', R.resolve claim.slots s = (.error e, s')) ∧
    ∃ slot ∈ requiredEntitySlots claim.claimType, ¬R.ResolvedInCall claim.slots s slot

/-- The claim needs a time scope and its phrase gives none. -/
def TimeBlocked (env : Env) (claim : DecomposedClaim) : Prop :=
  claim.claimType ∈ timeRequiredClaimTypes ∧
    (VerifyPipeline.scopeOf env claim).granularity = .unknown

theorem mem_requiredEntitySlots {ct : ClaimType} {slot : Slot} :
    slot ∈ requiredEntitySlots ct ↔
      slot ∈ (slotTemplates ct).required ∧ slot ∈ slotToKind.map Prod.fst := by
  unfold requiredEntitySlots
  rw [List.mem_filter, decide_eq_true_eq]

theorem definite_checkable {inputs : VerdictInputs} {o : VerdictOutcome}
    (h : decideVerdict inputs = .ok o) (hdef : Definite o.status) :
    inputs.checkability = .checkable := by
  by_contra hc
  rw [decideVerdict_nonCheckable h hc] at hdef
  rcases hdef with hd | hd | hd <;> cases hd

/-! ## Evidence that supports any claim -/

/-- A Tier-1 row that bears out the inputs it is made from. -/
def supportingRow (inputs : VerdictInputs) : GraphEvidence where
  claimType := inputs.claimType
  nodeIds := ∅
  properties := Dict.ofList
    [("vote_value", .ofText inputs.expectedVoteValue), ("seats_won", .ofInt inputs.expectedSeats),
      ("passed_threshold", inputs.expectPassedThreshold.elim .null .bool),
      ("government_decision_id", .ofText inputs.governmentDecisionId),
      ("presence", .str "present")]

def anySnippet : LexicalEvidence := ⟨"s1", "d1", "text", 1, ∅⟩

theorem supportingRow_supports (inputs : VerdictInputs) {lexHits : ℕ} (hlex : 2 ≤ lexHits) :
    Supports inputs [supportingRow inputs] lexHits := by
  have hself := List.mem_singleton.2 (rfl : supportingRow inputs = supportingRow inputs)
  unfold Supports
  cases hct : inputs.claimType <;> dsimp only
  case voteCast =>
    refine ⟨List.cons_ne_nil _ _, fun v hv g hg => ?_⟩
    rw [List.mem_singleton.1 hg]
    change Value.ofText inputs.expectedVoteValue = _
    rw [hv]
    rfl
  case electionResult =>
    refine ⟨_, hself, ?_⟩
    change (seatsOk inputs.expectedSeats (.ofInt inputs.expectedSeats) &&
      passedOk inputs.expectPassedThreshold (inputs.expectPassedThreshold.elim .null .bool)) = true
    rw [Bool.and_eq_true]
    constructor
    · cases inputs.expectedSeats with
      | none => rfl
      | some n => exact decide_eq_true rfl
    · cases inputs.expectPassedThreshold with
      | none => rfl
      | some b => cases b <;> rfl
  case governmentDecision =>
    refine ⟨_, hself, ?_⟩
    unfold decisionRowOk
    cases hid : inputs.governmentDecisionId with
    | none => rfl
    | some id =>
      have hrow : rowDecisionId (supportingRow inputs) = .ofText inputs.governmentDecisionId := rfl
      dsimp only
      rw [hrow, hid]
      exact decide_eq_true rfl
  case committeeAttendance => exact ⟨_, hself, rfl⟩
  case statementAboutFormalAction => exact hlex
  all_goals exact Or.inl (List.cons_ne_nil _ _)

/-! ## The gate -/

section

variable {env : Env} {R : LiveEntityResolver σ} {claim : DecomposedClaim} {s : σ}

/-- The pipeline whose retrievers return supporting evidence for a claim whose resolver raised. -/
def supportingPipeline (env : Env) (R : LiveEntityResolver σ) (claim : DecomposedClaim) :
    VerifyPipeline σ where
  graph := some fun _ _ => pure
    [supportingRow (VerifyPipeline.inputsOf env claim { resolvedSlots := claim.slots } [])]
  lexical := some fun _ => pure [anySnippet, anySnippet]
  resolver := some fun claim => R.resolve claim.slots

/-- **The open gate**: after an exception the claim is checkable on its raw slots, and evidence
can make its verdict definite. -/
theorem supportingPipeline_definite {e : PyError} {s' : σ}
    (hvalid : validateSlots claim.claimType claim.slots = []) (htime : ¬TimeBlocked env claim)
    (hraise : R.resolve claim.slots s = (.error e, s')) :
    ∃ b t, (supportingPipeline env R claim).verifyClaim env claim s = (.ok b, t) ∧
      b.outcome.status = .supported := by
  set r : ResolutionResult := { resolvedSlots := claim.slots } with hr
  have hres : (supportingPipeline env R claim).resolveClaim claim s = (.ok r, s') :=
    VerifyPipeline.resolveClaim_error rfl hraise
  have hcheck : VerifyPipeline.checkabilityOf claim r (VerifyPipeline.scopeOf env claim) =
      .checkable :=
    classify_checkable.2 ⟨hvalid, fun _ _ _ h => absurd h (by simp [hr]), htime⟩
  obtain ⟨G, L, s₁, s₂, hG, hL, hranked⟩ := VerifyPipeline.retrieve_total
    (supportingPipeline env R claim) claim r.resolvedSlots (VerifyPipeline.scopeOf env claim) s'
  -- the row does not depend on the evidence the inputs carry
  set row := supportingRow (VerifyPipeline.inputsOf env claim r []) with hrow
  have hG' : G = [row] := by
    cases hG
    rfl
  have hL' : L = [anySnippet, anySnippet] := by
    cases hL
    rfl
  set ranked := rerank (G.map Evidence.graph ++ L.map Evidence.lexical) claim.claimType
    (some (VerifyPipeline.scopeOf env claim)) (VerifyPipeline.resolvedIds r.resolvedSlots)
  have hmem : Evidence.graph row ∈ G.map Evidence.graph ++ L.map Evidence.lexical :=
    List.mem_append_left _ (List.mem_map_of_mem (hG' ▸ List.mem_singleton.2 rfl))
  obtain ⟨confidence, hconf, hover⟩ := tier1_row_confident
    (some (VerifyPipeline.scopeOf env claim)) (VerifyPipeline.resolvedIds r.resolvedSlots)
    hmem (rfl : row.claimType = claim.claimType) rfl
  have hp : PassesThreshold (VerifyPipeline.inputsOf env claim r ranked) confidence :=
    ⟨hconf, fun hnil => List.ne_nil_of_mem hmem (rerank_eq_nil.1 hnil), hover⟩
  have hhits : graphHits claim.claimType ranked = [row] := by
    refine List.perm_singleton.1 ((graphHits_retrieved _ _ _ _ _).trans ?_)
    have hself : [row].filter (fun g => g.claimType = claim.claimType) = [row] :=
      List.filter_eq_self.2 fun g hg => by
        rw [List.mem_singleton.1 hg]
        exact decide_eq_true rfl
    rw [hG', hself]
  have hs : Supported (VerifyPipeline.inputsOf env claim r ranked) := by
    change Supports _ (graphHits claim.claimType ranked) (lexCorroborations ranked)
    rw [hhits, lexCorroborations_retrieved, hL']
    exact supportingRow_supports (VerifyPipeline.inputsOf env claim r ranked) le_rfl
  obtain ⟨o, ho, hst, -⟩ := decideVerdict_supports hcheck hp hs
  refine ⟨_, s₂, VerifyPipeline.verifyClaim_run hres hranked ho ?_, hst⟩
  rw [hst]
  decide

/-- A gated claim: after a resolver that ended normally, a definite verdict means that every
required entity slot was resolved. -/
theorem gate_of_resolved {P : VerifyPipeline σ} {b : Bundle} {s' t : σ} {r : ResolutionResult}
    (hvalid : validateSlots claim.claimType claim.slots = []) (hP : P.Resolves R)
    (hr : R.resolve claim.slots s = (.ok r, t)) (h : P.verifyClaim env claim s = (.ok b, s'))
    (hdef : Definite b.outcome.status) :
    ∀ slot ∈ requiredEntitySlots claim.claimType, R.ResolvedInCall claim.slots s slot := by
  obtain ⟨r', s₁, ranked, s₂, outcome, hr', -, hdec, rfl⟩ := VerifyPipeline.verifyClaim_ok h
  rw [VerifyPipeline.resolveClaim_ok hP hr] at hr'
  cases hr'
  have hcheck := classify_checkable.1 (definite_checkable hdec hdef)
  intro slot hslot
  obtain ⟨hreq, hkind⟩ := mem_requiredEntitySlots.1 hslot
  obtain ⟨value, hv, -⟩ := (validateSlots_nil.1 hvalid).1 slot hreq
  rcases LiveEntityResolver.liveResolve_spec hr hv hkind with ⟨-, hres⟩ | hst | hst
  · exact hres
  all_goals
    rcases hcheck.2.1 slot hreq _ hst with h | h <;> cases h

/-- A claim without the time scope it needs gets no definite verdict. -/
theorem timeBlocked_not_definite {P : VerifyPipeline σ} {b : Bundle} {s' : σ}
    (htime : TimeBlocked env claim) (h : P.verifyClaim env claim s = (.ok b, s')) :
    ¬Definite b.outcome.status := by
  intro hdef
  obtain ⟨r, s₁, ranked, s₂, outcome, -, -, hdec, rfl⟩ := VerifyPipeline.verifyClaim_ok h
  exact (classify_checkable.1 (definite_checkable hdec hdef)).2.2 htime

/-- **When the gate holds**, for every claim `decompose` emits and every state of the stores: iff
the resolver does not raise while a required entity slot is without an id, or the claim lacks
the time scope it needs. -/
theorem resolution_gate {statement : String} {language : Language}
    (hclaim : claim ∈ (decompose env.uuid4 none statement language).claims) :
    Gate env R claim s ↔ ¬RaisesUnresolved R claim s ∨ TimeBlocked env claim := by
  have hvalid := decompose_validate hclaim
  constructor
  · intro hgate
    by_contra hno
    rw [not_or, not_not] at hno
    obtain ⟨⟨⟨e, s', hraise⟩, slot, hslot, hnot⟩, htime⟩ := hno
    -- the retrievers that bear the claim out open the gate
    obtain ⟨b, t, hrun, hst⟩ := supportingPipeline_definite hvalid htime hraise
    exact hnot (hgate (supportingPipeline env R claim) rfl b t hrun (Or.inl hst) slot hslot)
  · intro h P hP b s' hrun hdef slot hslot
    rcases h with h | h
    · cases hr : R.resolve claim.slots s with
      | mk res t =>
        cases res with
        | ok r => exact gate_of_resolved hvalid hP hr hrun hdef slot hslot
        | error e =>
          by_contra hnot
          exact h ⟨⟨e, t, hr⟩, slot, hslot, hnot⟩
    · exact absurd hdef (timeBlocked_not_definite h hrun)

/-- **The resolver raises unresolved on every government decision claim**: its table lists the
kind, and the ladder rejects it. -/
theorem governmentDecision_raisesUnresolved (hct : claim.claimType = .governmentDecision)
    (hvalid : validateSlots claim.claimType claim.slots = []) : RaisesUnresolved R claim s := by
  have hreq : Slot.governmentDecisionId ∈ (slotTemplates claim.claimType).required := by
    rw [hct]
    decide
  obtain ⟨value, hv, -⟩ := (validateSlots_nil.1 hvalid).1 _ hreq
  refine ⟨LiveEntityResolver.liveResolve_governmentDecision hv s, .governmentDecisionId,
    mem_requiredEntitySlots.2 ⟨hreq, by decide⟩, fun hres => ?_⟩
  unfold LiveEntityResolver.ResolvedInCall at hres
  split at hres
  · exact hres
  · obtain ⟨id, hid⟩ := hres
    obtain ⟨kind, v, t, t', hkind, hr⟩ := LiveEntityResolver.mem_foundIds hid
    have hdecision : ∀ e ∈ slotToKind, e.1 = .governmentDecisionId → e.2 = .governmentDecision := by
      decide
    have hk : kind = .governmentDecision := hdecision _ hkind rfl
    rw [hk, LiveEntityResolver.resolveSlot_governmentDecision] at hr
    cases hr

end

/-! ## A sponsorship claim through the open gate -/

/-- A resolver over a graph with two persons of every name, whose lookup of bills fails. -/
def failingResolver : LiveEntityResolver Unit where
  unicode := plainEnv.unicode
  fuzz := none
  openSession := pure ()
  closeSession := pure ()
  session
    | .contains "Bill" _ _ => Eff.raise .external
    | _ => pure [⟨"p1", none, none, none⟩, ⟨"p2", none, none, none⟩]
  pgConn := none

def failingPipeline : VerifyPipeline Unit where
  graph := some fun ct _ => pure [{ claimType := ct, nodeIds := ∅, properties := ∅ }]
  resolver := some fun claim => failingResolver.resolve claim.slots

def sponsorship : String := "Dana Levi sponsored the water bill"

/-- The sponsor is ambiguous, the bill lookup raises, and the verdict is supported. -/
theorem sponsorship_run :
    (decompose plainEnv.uuid4 none sponsorship .en).claims.map (fun claim =>
        (((failingPipeline.verifyClaim plainEnv claim ()).1.map (·.outcome.status)),
          claim.claimType, failingResolver.foundIds claim.slots slotToKind ())) =
      [(.ok .supported, .billSponsorship, [])] := by
  decide +kernel

theorem sponsorship_claim :
    ∃ claim ∈ (decompose plainEnv.uuid4 none sponsorship .en).claims,
      (failingPipeline.verifyClaim plainEnv claim ()).1.map (·.outcome.status) = .ok .supported ∧
        claim.claimType = .billSponsorship ∧
        failingResolver.foundIds claim.slots slotToKind () = [] := by
  have hmem : (Except.ok Status.supported, ClaimType.billSponsorship, ([] : List (Slot × String))) ∈
      (decompose plainEnv.uuid4 none sponsorship .en).claims.map _ :=
    sponsorship_run ▸ List.mem_singleton.2 rfl
  obtain ⟨claim, hclaim, heq⟩ := List.mem_map.1 hmem
  obtain ⟨h1, h2, h3⟩ := Prod.mk.inj heq |>.imp_right Prod.mk.inj
  exact ⟨claim, hclaim, h1, h2, h3⟩

/-- The gate fails on it. -/
theorem resolution_gate_fails :
    ∃ claim ∈ (decompose plainEnv.uuid4 none sponsorship .en).claims,
      ¬Gate plainEnv failingResolver claim () := by
  obtain ⟨claim, hclaim, hst, hct, hfound⟩ := sponsorship_claim
  refine ⟨claim, hclaim, fun hgate => ?_⟩
  cases hrun : failingPipeline.verifyClaim plainEnv claim () with
  | mk res t =>
    rw [hrun] at hst
    cases res with
    | error e => cases hst
    | ok b =>
      have hslot : Slot.speakerPersonId ∈ requiredEntitySlots claim.claimType := by
        rw [hct]
        decide
      have hdef : b.outcome.status = .supported := Except.ok.inj hst
      obtain ⟨id, hid⟩ := hgate failingPipeline rfl b t hrun (Or.inl hdef) _ hslot
      rw [hfound] at hid
      exact absurd hid List.not_mem_nil

theorem resolution_gate_sponsorship :
    ∃ claim ∈ (decompose plainEnv.uuid4 none sponsorship .en).claims,
      (Gate plainEnv failingResolver claim () ↔
        ¬RaisesUnresolved failingResolver claim () ∨ TimeBlocked plainEnv claim) := by
  obtain ⟨claim, hclaim, -⟩ := sponsorship_claim
  exact ⟨claim, hclaim, resolution_gate hclaim⟩

end CivicProof
