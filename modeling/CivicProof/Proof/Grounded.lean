import CivicProof.Proof.Gate
import CivicProof.Proof.Retrieval
import CivicProof.Spec.GraphDriver

/-!
# Verdicts rest on the graph

A definite verdict of `verify` comes from records. For the record-based claim types there is a
record in the graph about the entities that the claim's slots were resolved to, dated within the
claim's scope, whose value is as the status says; for the others there is such a record or a snippet.

* `Grounds`: what a status rests on, by claim type.
* `verdict_grounded`: every definite verdict of `verify` is grounded in the graph that its query
  found.
-/

namespace CivicProof

open PropGraph

/-! ## What a verdict rests on -/

section Grounds

variable (T : CypherTime) (g : CivicGraph)

/-- The vote that the graph records. -/
def recordedVote (personId : String) (v : NodeKey) : Value :=
  returned (g.relProp (.castVote, (.person, personId), v) .value)

/-- The presence that the graph records. -/
def recordedPresence (personId : String) (a : NodeKey) : Value :=
  returned (g.relProp (.attended, (.person, personId), a) .presence)

/-- Whether a recorded result has the seats and the flag that the claim gives. -/
def resultFits (claim : DecomposedClaim) (e : NodeKey) : Bool :=
  seatsOk (parseIntSlot (claim.slots .expectedSeats)) (returned (g.nodeProp e .seatsWon)) &&
    passedOk (parseExpectPassedThreshold (claim.slots .expectPassedThreshold))
      (returned (g.nodeProp e .passedThreshold))

/-- **What a definite status of a claim rests on**: something in the graph about the entities
`slots`, within the scope, or some of the `texts` snippets that were found. -/
inductive Grounds (claim : DecomposedClaim) (slots : Slots) (scope : TimeScope) (texts : ℕ) :
    Status → Prop
  | voteSupported {p b : String} {lo hi : Option ℤ} {v : NodeKey} :
      claim.claimType = .voteCast → slots .speakerPersonId = some p → slots .billId = some b →
      ScopeBounds T scope lo hi → v ∈ votesCast g p b lo hi →
      (∀ e, claim.slots .voteValue = some e → recordedVote g p v = .str e) →
      Grounds claim slots scope texts .supported
  | voteContradicted {p b e : String} {lo hi : Option ℤ} {v : NodeKey} :
      claim.claimType = .voteCast → slots .speakerPersonId = some p → slots .billId = some b →
      ScopeBounds T scope lo hi → v ∈ votesCast g p b lo hi →
      claim.slots .voteValue = some e → recordedVote g p v ≠ .str e →
      Grounds claim slots scope texts .contradicted
  | voteMixed {p b e : String} {lo hi : Option ℤ} {v w : NodeKey} :
      claim.claimType = .voteCast → slots .speakerPersonId = some p → slots .billId = some b →
      ScopeBounds T scope lo hi → v ∈ votesCast g p b lo hi → w ∈ votesCast g p b lo hi →
      claim.slots .voteValue = some e → recordedVote g p v = .str e → recordedVote g p w ≠ .str e →
      Grounds claim slots scope texts .mixed
  | resultSupported {p : String} {lo hi : Option ℤ} {e : NodeKey} :
      claim.claimType = .electionResult → slots .partyId = some p → ScopeBounds T scope lo hi →
      e ∈ electionResults g p lo hi → resultFits g claim e = true →
      Grounds claim slots scope texts .supported
  | resultContradicted {p : String} {lo hi : Option ℤ} {e : NodeKey} :
      claim.claimType = .electionResult → slots .partyId = some p → ScopeBounds T scope lo hi →
      e ∈ electionResults g p lo hi → resultFits g claim e = false →
      Grounds claim slots scope texts .contradicted
  | attendanceSupported {p c : String} {lo hi : Option ℤ} {r : RelKey} :
      claim.claimType = .committeeAttendance → slots .speakerPersonId = some p →
      slots .committeeId = some c → ScopeBounds T scope lo hi → r ∈ attendedEvents g p c lo hi →
      recordedPresence g p r.2.1 = .str "present" → Grounds claim slots scope texts .supported
  | attendanceContradicted {p c : String} {lo hi : Option ℤ} {r : RelKey} :
      claim.claimType = .committeeAttendance → slots .speakerPersonId = some p →
      slots .committeeId = some c → ScopeBounds T scope lo hi → r ∈ attendedEvents g p c lo hi →
      recordedPresence g p r.2.1 ≠ .str "present" → Grounds claim slots scope texts .contradicted
  | decisionSupported {id : String} {lo hi : Option ℤ} :
      claim.claimType = .governmentDecision → slots .governmentDecisionId = some id →
      ScopeBounds T scope lo hi → (Label.governmentDecision, id) ∈ g.nodes →
      dateWithin lo hi (decisionNode g (.governmentDecision, id)) = true →
      Grounds claim slots scope texts .supported
  -- an id that is not empty is found as it was asked for
  | decisionContradicted : claim.claimType = .governmentDecision →
      slots .governmentDecisionId = some "" → (Label.governmentDecision, "") ∈ g.nodes →
      Grounds claim slots scope texts .contradicted
  | sponsored {p b : String} :
      claim.claimType = .billSponsorship → slots .speakerPersonId = some p →
      slots .billId = some b → (.sponsored, (.person, p), (.bill, b)) ∈ g.rels →
      Grounds claim slots scope texts .supported
  | heldTerm {p o : String} {lo hi : Option ℤ} {pt : NodeKey} :
      claim.claimType = .officeHeld → slots .speakerPersonId = some p →
      slots .officeId = some o → ScopeBounds T scope lo hi → pt ∈ heldTerms g p o lo hi →
      Grounds claim slots scope texts .supported
  | heldOffice {p o : String} {lo hi : Option ℤ} :
      claim.claimType = .officeHeld → slots .speakerPersonId = some p →
      slots .officeId = some o → ScopeBounds T scope lo hi → legacyHeldRows T g p o lo hi ≠ [] →
      Grounds claim slots scope texts .supported
  | member {p c : String} {lo hi : Option ℤ} :
      claim.claimType = .committeeMembership → slots .speakerPersonId = some p →
      slots .committeeId = some c → ScopeBounds T scope lo hi →
      committeeMembershipRows T g p c lo hi ≠ [] → Grounds claim slots scope texts .supported
  | snippet : claim.claimType = .billSponsorship ∨ claim.claimType = .officeHeld ∨
      claim.claimType = .committeeMembership → texts ≠ 0 → Grounds claim slots scope texts .supported
  | snippets : claim.claimType = .statementAboutFormalAction → 2 ≤ texts →
      Grounds claim slots scope texts .supported
  | oneSnippet : claim.claimType = .statementAboutFormalAction → texts = 1 →
      Grounds claim slots scope texts .mixed

end Grounds

/-! ## Evidence of a template -/

section Answers

variable {T : CypherTime} {g : CivicGraph} {out : List Record}

theorem ByIds.of_mem {x y : Option String} {answers : String → String → List Record → Prop}
    (h : ByIds x y answers out) {r : Record} (hr : r ∈ out) :
    ∃ a b, x = some a ∧ y = some b ∧ answers a b out := by
  unfold ByIds at h
  split at h
  · exact ⟨_, _, rfl, rfl, h⟩
  · rw [h] at hr
    exact absurd hr List.not_mem_nil

theorem ById.of_mem {x : Option String} {answers : String → List Record → Prop}
    (h : ById x answers out) {r : Record} (hr : r ∈ out) : ∃ a, x = some a ∧ answers a out := by
  unfold ById at h
  split at h
  · exact ⟨_, rfl, h⟩
  · rw [h] at hr
    exact absurd hr List.not_mem_nil

theorem VoteCastAnswer.of_mem {p b : String} {lo hi : Option ℤ}
    (h : VoteCastAnswer T g p b lo hi out) {r : Record} (hr : r ∈ out) :
    ∃ v ∈ votesCast g p b lo hi, r = voteCastRecord T g p b v := by
  obtain ⟨l, hl, rfl⟩ := h
  obtain ⟨v, hv, rfl⟩ := List.mem_map.1 hr
  exact ⟨v, hl.mem_rows hv, rfl⟩

theorem ElectionResultAnswer.of_mem {p : String} {lo hi : Option ℤ}
    (h : ElectionResultAnswer T g p lo hi out) {r : Record} (hr : r ∈ out) :
    ∃ e ∈ electionResults g p lo hi, r = electionResultRecord T g p e := by
  obtain ⟨l, hl, rfl⟩ := h
  obtain ⟨e, he, rfl⟩ := List.mem_map.1 hr
  exact ⟨e, hl.mem_rows he, rfl⟩

theorem CommitteeAttendanceAnswer.of_mem {p c : String} {lo hi : Option ℤ}
    (h : CommitteeAttendanceAnswer T g p c lo hi out) {r : Record} (hr : r ∈ out) :
    ∃ k ∈ attendedEvents g p c lo hi, r = attendanceRecord T g p c k.2.1 := by
  obtain ⟨l, hl, rfl⟩ := h
  obtain ⟨k, hk, rfl⟩ := List.mem_map.1 hr
  exact ⟨k, hl.mem_rows hk, rfl⟩

theorem OfficeHeldAnswer.of_mem {p o : String} {lo hi : Option ℤ}
    (h : OfficeHeldAnswer T g p o lo hi out) {r : Record} (hr : r ∈ out) :
    (∃ pt, pt ∈ heldTerms g p o lo hi) ∨ legacyHeldRows T g p o lo hi ≠ [] := by
  obtain ⟨terms, legacy, hterms, hlegacy, hunion⟩ := h
  rcases (hunion.mem_iff r).1 hr with hr | hr
  · obtain ⟨pt, hpt, -⟩ := Multiset.mem_map.1 (hterms.mem_iff.1 hr)
    exact Or.inl ⟨pt, hpt⟩
  · exact Or.inr (List.ne_nil_of_mem (Multiset.mem_coe.1 (hlegacy.mem_rows hr)))

/-- A decision is found by the id that was asked for, since no number ever is. -/
theorem GovernmentDecisionAnswer.of_mem {slots : Slots} {scope : TimeScope} {lo hi : Option ℤ}
    (h : GovernmentDecisionAnswer T g (graphParams slots scope) lo hi out) {r : Record}
    (hr : r ∈ out) :
    ∃ id, slots .governmentDecisionId = some id ∧ (Label.governmentDecision, id) ∈ g.nodes ∧
      dateWithin lo hi (decisionNode g (.governmentDecision, id)) = true ∧
      r = (decisionNode g (.governmentDecision, id)).record T := by
  obtain ⟨l, hl, rfl⟩ := h
  obtain ⟨⟨label, id⟩, hn, rfl⟩ := List.mem_map.1 hr
  have hfound := hl.mem_rows hn
  unfold decisionsFound at hfound
  rw [Finset.mem_val, Finset.mem_filter, Finmap.mem_keys] at hfound
  obtain ⟨hnode, rfl, hmatch, hdate⟩ := hfound
  refine ⟨id, ?_, hnode, hdate, rfl⟩
  unfold decisionMatches at hmatch
  rw [graphParams_slot] at hmatch
  cases hid : slots .governmentDecisionId with
  | none =>
    rw [hid] at hmatch
    cases hmatch
  | some id' =>
    rw [hid] at hmatch
    exact congrArg some (of_decide_eq_true hmatch).symm

end Answers

/-! ## From a comparison to the graph -/

section Compared

variable {T : CypherTime} {g : CivicGraph} {claim : DecomposedClaim} {slots : Slots}
  {scope : TimeScope} {texts : ℕ} {out : List Record} {hits : List GraphEvidence} {result : Comparison}

/-- The hits are records of an answer of the claim type's template. -/
structure HitsFrom (T : CypherTime) (g : CivicGraph) (ct : ClaimType) (params : Params)
    (out : List Record) (hits : List GraphEvidence) : Prop where
  answer : out ≠ [] → TemplateAnswer T g params out ct
  record : ∀ x ∈ hits, ∃ r ∈ out, x = recordToEvidence ct r

theorem HitsFrom.of_mem {ct : ClaimType} {params : Params} (h : HitsFrom T g ct params out hits)
    {x : GraphEvidence} (hx : x ∈ hits) :
    TemplateAnswer T g params out ct ∧ ∃ r ∈ out, x = recordToEvidence ct r := by
  obtain ⟨r, hr, heq⟩ := h.record x hx
  exact ⟨h.answer (List.ne_nil_of_mem hr), r, hr, heq⟩

theorem grounds_vote (hct : claim.claimType = .voteCast)
    (hfrom : HitsFrom T g .voteCast (graphParams slots scope) out hits)
    (hcmp : compareVoteCast (claim.slots .voteValue) hits = .ok result)
    (hdef : Definite result.1) : Grounds T g claim slots scope texts result.1 := by
  have hfound : ∀ x ∈ hits, ∃ p b lo hi, slots .speakerPersonId = some p ∧
      slots .billId = some b ∧ ScopeBounds T scope lo hi ∧
        ∀ y ∈ hits, ∃ v ∈ votesCast g p b lo hi, voteValue y = recordedVote g p v := by
    intro x hx
    obtain ⟨⟨lo, hi, hbounds, hids⟩, r, hr, -⟩ := hfrom.of_mem hx
    obtain ⟨p, b, hp, hb, hans⟩ := hids.of_mem hr
    refine ⟨p, b, lo, hi, hp, hb, graphParams_bounds hbounds, fun y hy => ?_⟩
    obtain ⟨r', hr', rfl⟩ := hfrom.record y hy
    obtain ⟨v, hv, rfl⟩ := hans.of_mem hr'
    exact ⟨v, hv, rfl⟩
  rcases compareVoteCast_cases hcmp with ⟨-, hr⟩ | ⟨hne, hall, hr⟩ |
    ⟨-, ⟨e, he, ⟨x, hx, hxe⟩, y, hy, hye⟩, hr⟩ | ⟨hne, ⟨e, he, hnone⟩, hr⟩ <;> rw [hr]
  · rw [hr] at hdef
    rcases hdef with h | h | h <;> cases h
  · obtain ⟨x, hx⟩ := List.exists_mem_of_ne_nil hits hne
    obtain ⟨p, b, lo, hi, hp, hb, hbounds, hvotes⟩ := hfound x hx
    obtain ⟨v, hv, hval⟩ := hvotes x hx
    exact .voteSupported hct hp hb hbounds hv fun e he => hval ▸ hall e he x hx
  · obtain ⟨p, b, lo, hi, hp, hb, hbounds, hvotes⟩ := hfound x hx
    obtain ⟨v, hv, hval⟩ := hvotes x hx
    obtain ⟨w, hw, hval'⟩ := hvotes y hy
    exact .voteMixed hct hp hb hbounds hv hw he (hval ▸ hxe) (hval' ▸ hye)
  · obtain ⟨x, hx⟩ := List.exists_mem_of_ne_nil hits hne
    obtain ⟨p, b, lo, hi, hp, hb, hbounds, hvotes⟩ := hfound x hx
    obtain ⟨v, hv, hval⟩ := hvotes x hx
    exact .voteContradicted hct hp hb hbounds hv he (hval ▸ hnone x hx)

/-- What a definite comparison of rows one by one rests on: a row, which passes the test or not. -/
theorem rowStatus_definite {ok : GraphEvidence → Bool} (hdef : Definite (rowStatus ok hits)) :
    (rowStatus ok hits = .supported ∧ ∃ x ∈ hits, ok x = true) ∨
      (rowStatus ok hits = .contradicted ∧ ∃ x ∈ hits, ok x = false) := by
  rcases @rowStatus_cases ok hits with hs | ⟨hi, -⟩ | ⟨hc, hne, hnone⟩
  · exact Or.inl hs
  · rw [hi] at hdef
    rcases hdef with h | h | h <;> cases h
  · obtain ⟨x, hx⟩ := List.exists_mem_of_ne_nil hits hne
    refine Or.inr ⟨hc, x, hx, Bool.eq_false_iff.2 fun hok => hnone ⟨x, hx, hok⟩⟩

theorem grounds_result (hct : claim.claimType = .electionResult)
    (hfrom : HitsFrom T g .electionResult (graphParams slots scope) out hits)
    (hdef : Definite (rowStatus (electionRowOk (parseIntSlot (claim.slots .expectedSeats))
      (parseExpectPassedThreshold (claim.slots .expectPassedThreshold))) hits)) :
    Grounds T g claim slots scope texts (rowStatus (electionRowOk
      (parseIntSlot (claim.slots .expectedSeats))
      (parseExpectPassedThreshold (claim.slots .expectPassedThreshold))) hits) := by
  have hfound : ∀ x ∈ hits, ∃ p lo hi e, slots .partyId = some p ∧ ScopeBounds T scope lo hi ∧
      e ∈ electionResults g p lo hi ∧ electionRowOk (parseIntSlot (claim.slots .expectedSeats))
        (parseExpectPassedThreshold (claim.slots .expectPassedThreshold)) x =
          resultFits g claim e := by
    intro x hx
    obtain ⟨⟨lo, hi, hbounds, hid⟩, r, hr, rfl⟩ := hfrom.of_mem hx
    obtain ⟨p, hp, hans⟩ := hid.of_mem hr
    obtain ⟨e, he, rfl⟩ := hans.of_mem hr
    exact ⟨p, lo, hi, e, hp, graphParams_bounds hbounds, he, rfl⟩
  rcases rowStatus_definite hdef with ⟨hs, x, hx, hok⟩ | ⟨hs, x, hx, hok⟩ <;> rw [hs] <;>
    obtain ⟨p, lo, hi, e, hp, hbounds, he, hfit⟩ := hfound x hx
  · exact .resultSupported hct hp hbounds he (hfit ▸ hok)
  · exact .resultContradicted hct hp hbounds he (hfit ▸ hok)

theorem grounds_attendance (hct : claim.claimType = .committeeAttendance)
    (hfrom : HitsFrom T g .committeeAttendance (graphParams slots scope) out hits)
    (hdef : Definite (rowStatus isPresent hits)) :
    Grounds T g claim slots scope texts (rowStatus isPresent hits) := by
  have hfound : ∀ x ∈ hits, ∃ p c lo hi k, slots .speakerPersonId = some p ∧
      slots .committeeId = some c ∧ ScopeBounds T scope lo hi ∧ k ∈ attendedEvents g p c lo hi ∧
        isPresent x = decide (recordedPresence g p k.2.1 = .str "present") := by
    intro x hx
    obtain ⟨⟨lo, hi, hbounds, hids⟩, r, hr, rfl⟩ := hfrom.of_mem hx
    obtain ⟨p, c, hp, hc, hans⟩ := hids.of_mem hr
    obtain ⟨k, hk, rfl⟩ := hans.of_mem hr
    exact ⟨p, c, lo, hi, k, hp, hc, graphParams_bounds hbounds, hk, rfl⟩
  rcases rowStatus_definite hdef with ⟨hs, x, hx, hok⟩ | ⟨hs, x, hx, hok⟩ <;> rw [hs] <;>
    obtain ⟨p, c, lo, hi, k, hp, hc, hbounds, hk, hpresent⟩ := hfound x hx <;>
    rw [hpresent] at hok
  · exact .attendanceSupported hct hp hc hbounds hk (of_decide_eq_true hok)
  · exact .attendanceContradicted hct hp hc hbounds hk (of_decide_eq_false hok)

/-- A decision that was found by an id that is not empty passes the identity check. -/
theorem decisionRowOk_found {d : GovernmentDecision} {raw : Option String}
    (h : d.governmentDecisionId ≠ "") : decisionRowOk
      ((orNone (some d.governmentDecisionId)).or raw) (decisionEvidence T d) = true := by
  rw [orNone_isSome h]
  unfold decisionRowOk
  rw [decisionEvidence_id d h]
  exact decide_eq_true rfl

theorem grounds_decision (hct : claim.claimType = .governmentDecision)
    (hfrom : HitsFrom T g .governmentDecision (graphParams slots scope) out hits)
    (hdef : Definite (rowStatus (decisionRowOk ((orNone (slots .governmentDecisionId)).or
      (claim.slots .governmentDecisionId))) hits)) :
    Grounds T g claim slots scope texts (rowStatus (decisionRowOk
      ((orNone (slots .governmentDecisionId)).or (claim.slots .governmentDecisionId))) hits) := by
  have hfound : ∀ x ∈ hits, ∃ id lo hi, slots .governmentDecisionId = some id ∧
      ScopeBounds T scope lo hi ∧ (Label.governmentDecision, id) ∈ g.nodes ∧
        dateWithin lo hi (decisionNode g (.governmentDecision, id)) = true ∧
          x = decisionEvidence T (decisionNode g (.governmentDecision, id)) := by
    intro x hx
    obtain ⟨⟨lo, hi, hbounds, hans⟩, r, hr, rfl⟩ := hfrom.of_mem hx
    obtain ⟨id, hid, hnode, hdate, rfl⟩ := hans.of_mem hr
    exact ⟨id, lo, hi, hid, graphParams_bounds hbounds, hnode, hdate, rfl⟩
  rcases rowStatus_definite hdef with ⟨hs, x, hx, hok⟩ | ⟨hs, x, hx, hok⟩ <;> rw [hs] <;>
    obtain ⟨id, lo, hi, hid, hbounds, hnode, hdate, rfl⟩ := hfound x hx
  · exact .decisionSupported hct hid hbounds hnode hdate
  · by_cases hempty : id = ""
    · subst hempty
      exact .decisionContradicted hct hid hnode
    · have hpass : decisionRowOk ((orNone (some id)).or (claim.slots .governmentDecisionId))
          (decisionEvidence T (decisionNode g (.governmentDecision, id))) = true :=
        @decisionRowOk_found T (decisionNode g (.governmentDecision, id)) _ hempty
      rw [hid, hpass] at hok
      cases hok

/-- What a definite comparison of records and texts rests on. -/
theorem recordOrText_definite {n : ℕ} (hdef : Definite (compareRecordOrText hits n).1) :
    (compareRecordOrText hits n).1 = .supported ∧ ((∃ x, x ∈ hits) ∨ n ≠ 0) := by
  unfold compareRecordOrText at hdef ⊢
  split_ifs at hdef ⊢ with h1 h2
  · exact ⟨rfl, Or.inl (List.exists_mem_of_ne_nil hits h1)⟩
  · exact ⟨rfl, Or.inr h2⟩
  · rcases hdef with h | h | h <;> cases h

theorem grounds_sponsorship (hct : claim.claimType = .billSponsorship)
    (hfrom : HitsFrom T g .billSponsorship (graphParams slots scope) out hits)
    (hdef : Definite (compareRecordOrText hits texts).1) :
    Grounds T g claim slots scope texts (compareRecordOrText hits texts).1 := by
  obtain ⟨hs, ⟨x, hx⟩ | hn⟩ := recordOrText_definite hdef <;> rw [hs]
  · obtain ⟨hans, r, hr, -⟩ := hfrom.of_mem hx
    have hids : ByIds (slots .speakerPersonId) (slots .billId)
        (fun p b out => out = billSponsorshipRows T g p b) out := hans
    obtain ⟨p, b, hp, hb, rfl⟩ := hids.of_mem hr
    refine .sponsored hct hp hb ?_
    unfold billSponsorshipRows at hr
    dsimp only at hr
    split_ifs at hr with hrel
    · exact hrel
    · exact absurd hr List.not_mem_nil
  · exact .snippet (Or.inl hct) hn

theorem grounds_office (hct : claim.claimType = .officeHeld)
    (hfrom : HitsFrom T g .officeHeld (graphParams slots scope) out hits)
    (hdef : Definite (compareRecordOrText hits texts).1) :
    Grounds T g claim slots scope texts (compareRecordOrText hits texts).1 := by
  obtain ⟨hs, ⟨x, hx⟩ | hn⟩ := recordOrText_definite hdef <;> rw [hs]
  · obtain ⟨⟨lo, hi, hbounds, hids⟩, r, hr, -⟩ := hfrom.of_mem hx
    obtain ⟨p, o, hp, ho, hans⟩ := hids.of_mem hr
    rcases hans.of_mem hr with ⟨pt, hpt⟩ | hlegacy
    · exact .heldTerm hct hp ho (graphParams_bounds hbounds) hpt
    · exact .heldOffice hct hp ho (graphParams_bounds hbounds) hlegacy
  · exact .snippet (Or.inr (Or.inl hct)) hn

theorem grounds_membership (hct : claim.claimType = .committeeMembership)
    (hfrom : HitsFrom T g .committeeMembership (graphParams slots scope) out hits)
    (hdef : Definite (compareRecordOrText hits texts).1) :
    Grounds T g claim slots scope texts (compareRecordOrText hits texts).1 := by
  obtain ⟨hs, ⟨x, hx⟩ | hn⟩ := recordOrText_definite hdef <;> rw [hs]
  · obtain ⟨⟨lo, hi, hbounds, hids⟩, r, hr, -⟩ := hfrom.of_mem hx
    obtain ⟨p, c, hp, hc, rfl⟩ := hids.of_mem hr
    exact .member hct hp hc (graphParams_bounds hbounds) (List.ne_nil_of_mem hr)
  · exact .snippet (Or.inr (Or.inr hct)) hn

theorem grounds_statement (hct : claim.claimType = .statementAboutFormalAction)
    (hdef : Definite (compareStatement texts).1) :
    Grounds T g claim slots scope texts (compareStatement texts).1 := by
  unfold compareStatement at hdef ⊢
  split_ifs at hdef ⊢ with h2 h1
  · exact .snippets hct h2
  · exact .oneSnippet hct h1
  · rcases hdef with h | h | h <;> cases h

/-- **A definite comparison is grounded** in the graph that the hits are from. -/
theorem grounds_of_compare {resolution : ResolutionResult} {checkability : Checkability}
    {ranked : List RerankScore} (hfrom : HitsFrom T g claim.claimType
      (graphParams resolution.resolvedSlots scope) out hits)
    (hcmp : compare (VerifyPipeline.verdictInputs claim resolution checkability ranked) hits texts =
      .ok result)
    (hdef : Definite result.1) : Grounds T g claim resolution.resolvedSlots scope texts result.1 := by
  unfold compare VerifyPipeline.verdictInputs at hcmp
  dsimp only at hcmp
  cases hct : claim.claimType <;> rw [hct] at hcmp hfrom <;> dsimp only at hcmp
  case voteCast => exact grounds_vote hct hfrom hcmp hdef
  all_goals cases hcmp
  case electionResult =>
    rw [compareElectionResult_status] at hdef ⊢
    exact grounds_result hct hfrom hdef
  case governmentDecision =>
    rw [compareGovernmentDecision_status] at hdef ⊢
    exact grounds_decision hct hfrom hdef
  case committeeAttendance =>
    rw [compareAttendance_status] at hdef ⊢
    exact grounds_attendance hct hfrom hdef
  case billSponsorship => exact grounds_sponsorship hct hfrom hdef
  case officeHeld => exact grounds_office hct hfrom hdef
  case committeeMembership => exact grounds_membership hct hfrom hdef
  case statementAboutFormalAction => exact grounds_statement hct hdef

end Compared

/-! ## The pipeline -/

section Pipeline

variable {σ : Type} {P : VerifyPipeline σ} {env : Env} {T : CypherTime} {driver : GraphDriver σ}
  {graphOf : σ → CivicGraph}

/-- The retrieval of a claim, whether the driver answers or raises. -/
theorem AnswersFrom.orEmpty (hdriver : AnswersFrom T driver graphOf)
    (hgraph : P.graph = some driver.retrieve) {ct : ClaimType} {params : Params} {s s' : σ}
    {rows : List GraphEvidence}
    (h : VerifyPipeline.orEmpty (P.graph.map fun g => g ct params) s = (.ok rows, s')) :
    ∃ out, (out ≠ [] → TemplateAnswer T (graphOf (driver.openSession s).2) params out ct) ∧
      rows = out.map (recordToEvidence ct) := by
  rw [hgraph] at h
  unfold VerifyPipeline.orEmpty Eff.orElse at h
  dsimp only [Option.map_some] at h
  rcases hrun : driver.retrieve ct params s with ⟨e | rows', s₁⟩
  · rw [hrun] at h
    cases h
    exact ⟨[], fun hne => absurd rfl hne, rfl⟩
  · rw [hrun] at h
    cases h
    obtain ⟨out, hans, rfl⟩ := hdriver.retrieve hrun
    exact ⟨out, fun _ => hans, rfl⟩

/-- **The evidence of a turn**: its hits are records of one answer, from the graph that the session of
its query opens on. -/
theorem AnswersFrom.hits (hdriver : AnswersFrom T driver graphOf)
    (hgraph : P.graph = some driver.retrieve) {claim : DecomposedClaim} {u w w' : σ}
    {r : ResolutionResult} {rows : List GraphEvidence} {found : List LexicalEvidence}
    (h : P.Finds env claim u r w rows found w') :
    ∃ out, HitsFrom T (graphOf (driver.openSession w).2) claim.claimType
      (graphParams r.resolvedSlots (VerifyPipeline.scopeOf env claim)) out
      (graphHits claim.claimType (VerifyPipeline.rankedOf env claim r rows found)) := by
  obtain ⟨v, hrows, -⟩ := h.retrieved
  obtain ⟨out, hans, rfl⟩ := hdriver.orEmpty hgraph hrows
  refine ⟨out, hans, fun x hx => ?_⟩
  have hx' := (graphHits_retrieved _ _ _ _ _).subset hx
  obtain ⟨record, hrecord, rfl⟩ := List.mem_map.1 (List.mem_of_mem_filter hx')
  exact ⟨record, hrecord, rfl⟩

/-- A definite verdict is the status of the comparison of the evidence. -/
theorem definite_compare {inputs : VerdictInputs} {o : VerdictOutcome}
    (h : decideVerdict inputs = .ok o) (hdef : Definite o.status) :
    inputs.checkability = .checkable ∧ ∃ result, compare inputs
      (graphHits inputs.claimType inputs.rankedEvidence)
      (lexCorroborations inputs.rankedEvidence) = .ok result ∧ o.status = result.1 := by
  have hc := definite_checkable h hdef
  refine ⟨hc, ?_⟩
  rcases decideVerdict_ok hc h with ⟨hs, -, -⟩ | ⟨confidence, result, -, hcmp, rfl⟩
  · rw [hs] at hdef
    rcases hdef with h | h | h <;> cases h
  · exact ⟨result, hcmp, rfl⟩

/-- **A definite verdict on a claim is grounded** in the graph that its query found, or in the
snippets of its text. -/
theorem VerifyPipeline.verifyClaim_grounds (hdriver : AnswersFrom T driver graphOf)
    (hgraph : P.graph = some driver.retrieve) {claim : DecomposedClaim} {u u' : σ} {b : Bundle}
    (h : P.verifyClaim env claim u = (.ok b, u')) (hdef : Definite b.outcome.status) :
    b.checkability = .checkable ∧ ∃ r w rows found w', P.Finds env claim u r w rows found w' ∧
      Grounds T (graphOf (driver.openSession w).2) claim r.resolvedSlots b.timeScope found.length
        b.outcome.status := by
  obtain ⟨r, w, rows, found, w', outcome, hfinds, hdec, rfl⟩ := VerifyPipeline.verifyClaim_finds h
  obtain ⟨hcheck, result, hcmp, hstatus⟩ := definite_compare hdec hdef
  obtain ⟨out, hfrom⟩ := hdriver.hits hgraph hfinds
  refine ⟨hcheck, r, w, rows, found, w', hfinds, ?_⟩
  change Definite outcome.status at hdef
  change Grounds _ _ _ _ _ _ outcome.status
  rw [hstatus] at hdef ⊢
  exact grounds_of_compare hfrom (lexCorroborations_retrieved rows found _ _ _ ▸ hcmp) hdef

/-- **Every definite verdict of `verify` is grounded**: each bundle is that of a turn, and if its
verdict is definite, the claim is checkable, and the graph that the session of the turn's query opens
on, or the snippets that the turn finds, have what the status says about the entities that the turn's
resolution gives, whatever the resolver, the index and the review connection do and whoever writes to
the graph meanwhile. -/
theorem verdict_grounded (hdriver : AnswersFrom T driver graphOf)
    (hgraph : P.graph = some driver.retrieve) {statement : String} {language : Option Language}
    {bundles : List Bundle} {s s' : σ}
    (h : P.verify env statement language s = (.ok bundles, s')) :
    List.Forall₂ (fun turn b => b.claim = turn.1 ∧ (Definite b.outcome.status →
      b.checkability = .checkable ∧ ∃ r w rows found w',
        P.Finds env turn.1 turn.2 r w rows found w' ∧
        Grounds T (graphOf (driver.openSession w).2) turn.1 r.resolvedSlots b.timeScope found.length
          b.outcome.status))
      (P.claimTurns env statement language s) bundles := by
  refine (VerifyPipeline.verify_turns h).imp fun turn b hrun => ?_
  obtain ⟨u, hrun⟩ := hrun
  exact ⟨VerifyPipeline.verifyClaim_claim hrun,
    VerifyPipeline.verifyClaim_grounds hdriver hgraph hrun⟩

end Pipeline

/-! ## A sponsorship that was ingested -/

/-- A calendar that knows no date. -/
def noDates : CypherTime := ⟨fun _ => none, toString⟩

/-- The graph after one row of the feed of bill initiators. -/
def sponsoredGraph : CivicGraph :=
  run (fun _ => 0) (upsertBillSponsorship { billId := "b1", personId := "p1" }) ∅

/-- A driver that answers the template of sponsorships and refuses the others. -/
def sponsorshipDriver : GraphDriver Unit where
  openSession := pure ()
  closeSession := pure ()
  run ct params :=
    if ct = .billSponsorship then
      pure <| (params.read (.slot .speakerPersonId)).elim [] fun p =>
        (params.read (.slot .billId)).elim [] (billSponsorshipRows noDates sponsoredGraph p)
    else Eff.raise .external

theorem sponsorshipDriver_answers :
    AnswersFrom noDates sponsorshipDriver fun _ => sponsoredGraph := by
  intro ct params s out s' h
  unfold sponsorshipDriver at h
  dsimp only at h
  by_cases hct : ct = .billSponsorship
  · rw [if_pos hct] at h
    cases h
    rw [hct]
    unfold TemplateAnswer ByIds
    cases params.read (.slot .speakerPersonId) <;> cases params.read (.slot .billId) <;> rfl
  · rw [if_neg hct] at h
    cases h

/-- A resolver that knows one person and one bill. -/
def sponsorshipPipeline : VerifyPipeline Unit where
  graph := some sponsorshipDriver.retrieve
  resolver := some fun _ => pure
    { slotStatuses := fun _ => some .resolved
      resolvedSlots := fun slot => match slot with
        | .speakerPersonId => some "p1"
        | .billId => some "b1"
        | _ => none }

/-- A run that gives one value has one bundle, with that value. -/
theorem single_bundle {σ α : Type} {r : Except PyError (List Bundle) × σ} {f : Bundle → α} {a : α}
    (h : (r.1.map fun bundles => bundles.map f) = .ok [a]) : ∃ b s, r = (.ok [b], s) ∧ f b = a := by
  obtain ⟨e | bundles, s⟩ := r
  · cases h
  · obtain ⟨b, rest, rfl, hb, hrest⟩ := List.map_eq_cons_iff.1 (Except.ok.inj h)
    rw [List.map_eq_nil_iff.1 hrest]
    exact ⟨b, s, rfl, hb⟩

theorem sponsorshipPipeline_run :
    ((sponsorshipPipeline.verify plainEnv sponsorship (some .en) ()).1.map
      fun bundles => bundles.map (·.outcome.status)) = .ok [.supported] := by
  decide +kernel

theorem exists_turn {α β : Type} {R : α → β → Prop} {turns : List α} {b : β}
    (h : List.Forall₂ R turns [b]) : ∃ turn ∈ turns, R turn b := by
  cases h with
  | cons hturn => exact ⟨_, List.mem_cons_self, hturn⟩

/-- The verdict rests on the relationship that the row merged. -/
theorem verdict_grounded_sponsorship : ∃ b s',
    sponsorshipPipeline.verify plainEnv sponsorship (some .en) () = (.ok [b], s') ∧
      Definite b.outcome.status ∧ b.checkability = .checkable ∧
      ∃ turn ∈ sponsorshipPipeline.claimTurns plainEnv sponsorship (some .en) (),
        ∃ r w rows found w', sponsorshipPipeline.Finds plainEnv turn.1 turn.2 r w rows found w' ∧
          Grounds noDates sponsoredGraph turn.1 r.resolvedSlots b.timeScope found.length
            b.outcome.status := by
  obtain ⟨b, s', hv, hb⟩ := single_bundle sponsorshipPipeline_run
  obtain ⟨turn, hturn, -, hgrounded⟩ :=
    exists_turn (verdict_grounded sponsorshipDriver_answers rfl hv)
  obtain ⟨hcheck, hfinds⟩ := hgrounded (Or.inl hb)
  exact ⟨b, s', hv, Or.inl hb, hcheck, turn, hturn, hfinds⟩

end CivicProof
