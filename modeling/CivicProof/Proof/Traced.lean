import CivicProof.Proof.Grounded
import CivicProof.Proof.IngestedGraph
import CivicProof.Spec.Utterances

/-!
# Verdicts go back to records

Where the graph is written from a set of normalized records and of rows of the vote script's feed, a
definite verdict of `verify` goes back to them: some record says what the verdict rests on, about the
entities that the slots were resolved to, with the value and the date that the verdict needs.

* `Traced`: what records say for a status, by claim type.
* `verdict_traced`: every definite verdict of `verify` is traced to records.
-/

namespace CivicProof

open PropGraph Cypher

/-! ## What records say -/

section Said

variable (T : CypherTime) (E : IngestEnv) (R : IngestRecord → Prop) (F : KnsVoteRow → Prop)

/-- An instant that a text spells. -/
def Spells (x : Option String) (t : ℤ) : Prop := ∃ s, x = some s ∧ T.datetime s = some t

/-- A row of the script's feed is about a vote and a bill. -/
def RowSays (row : KnsVoteRow) (voteEventId billId : String) : Prop :=
  ∃ v b : ℤ, presentId row.voteId = some v ∧ presentId row.billId = some b ∧
    voteEventId = extUuid E "knesset_vote" (toString v) ∧
      billId = extUuid E "knesset_bill" (toString b)

/-- The time of a vote, in a record of it or in a row of the script's feed. -/
def VoteAt (voteEventId : String) (t : ℤ) : Prop :=
  (∃ r, R (.vote r) ∧ r.voteEventId = voteEventId ∧ Spells T r.occurredAt t) ∨
    ∃ row billId, F row ∧ RowSays E row voteEventId billId ∧ Spells T row.startDate t

/-- A date within the bounds, which both may be open. -/
def DatedWithin (lo hi : Option ℤ) (date : ℤ → Prop) : Prop :=
  (lo = none ∧ hi = none) ∨ ∃ t, date t ∧ (∀ l ∈ lo, l ≤ t) ∧ ∀ h ∈ hi, t ≤ h

/-- A start that is not after the upper bound. -/
def StartedBy (hi : Option ℤ) (start : ℤ → Prop) : Prop := ∀ h ∈ hi, ∃ t, start t ∧ t ≤ h

/-- A person voted so on a bill, within the bounds. -/
def VoteSaid (personId billId : String) (lo hi : Option ℤ) (value : String) : Prop :=
  ∃ r cv row, R (.vote r) ∧ cv ∈ r.castVotes ∧ cv.personId = personId ∧ cv.value = value ∧
    F row ∧ RowSays E row r.voteEventId billId ∧ DatedWithin lo hi (VoteAt T E R F r.voteEventId)

/-- A list won so many seats, and passed the threshold or not, within the bounds. -/
def ResultSaid (partyId : String) (lo hi : Option ℤ) (seatsWon : ℤ) (passed : Bool) : Prop :=
  ∃ id, (∃ r, R (.electionResult r) ∧ r.electionResultId = id ∧ r.listPartyId = partyId) ∧
    (∃ r, R (.electionResult r) ∧ r.electionResultId = id ∧ r.seatsWon = seatsWon) ∧
    (∃ r, R (.electionResult r) ∧ r.electionResultId = id ∧ r.passedThreshold = passed) ∧
    DatedWithin lo hi fun t => ∃ r, R (.electionResult r) ∧ r.electionResultId = id ∧
      Spells T (some r.electionDate) t

/-- A person sponsored a bill. -/
def SponsorSaid (personId billId : String) : Prop :=
  R (.billSponsorship { billId, personId }) ∨
    ∃ b, R (.bill b) ∧ b.billId = billId ∧ personId ∈ b.sponsorships

/-- A person has a term in an office that began by the upper bound. -/
def TermSaid (personId officeId : String) (hi : Option ℤ) : Prop :=
  ∃ id, (∃ b pt, R (.position b) ∧ pt ∈ b.positionTerm ∧ b.personId = personId ∧
      pt.positionTermId = id) ∧
    (∃ b pt, R (.position b) ∧ pt ∈ b.positionTerm ∧ pt.positionTermId = id ∧
      pt.officeId = officeId) ∧
    StartedBy hi fun t => ∃ b pt, R (.position b) ∧ pt ∈ b.positionTerm ∧
      pt.positionTermId = id ∧ Spells T (some pt.validFrom) t

/-- A person holds an office since a time: by a position, or by a person's own record, which has the
time of its upsert. -/
def HolderSaid (personId officeId : String) (t : ℤ) : Prop :=
  (∃ b o, R (.position b) ∧ o ∈ b.office ∧ b.personId = personId ∧ o.officeId = officeId ∧
      Spells T (some o.validFrom) t) ∨
    ∃ p o iso, R (.person p) ∧ o ∈ p.office ∧ p.personId = personId ∧ o.officeId = officeId ∧
      Spells T (some iso) t

/-- A person is a member of a committee since a time. -/
def MemberSaid (personId committeeId : String) (t : ℤ) : Prop :=
  (∃ m, R (.committeeMembership m) ∧ m.personId = personId ∧ m.committeeId = committeeId ∧
      Spells T (some m.validFrom) t) ∨
    ∃ c m iso, R (.committee c) ∧ m ∈ c.memberships ∧ m.personId = personId ∧
      m.committeeId = committeeId ∧ Spells T (some ((orNone m.validFrom).getD iso)) t

/-- A decision of an id, within the bounds. -/
def DecisionSaid (id : String) (lo hi : Option ℤ) : Prop :=
  (∃ d, R (.governmentDecision d) ∧ d.governmentDecisionId = id) ∧
    DatedWithin lo hi fun t => ∃ d, R (.governmentDecision d) ∧ d.governmentDecisionId = id ∧
      Spells T d.decisionDate t

/-- **What records say for a definite status of a claim** about the entities `slots`, where `texts`
snippets were found. No record ever says enough about an attendance. -/
inductive Traced (claim : DecomposedClaim) (slots : Slots) (scope : TimeScope) (texts : ℕ) :
    Status → Prop
  | voteSupported {p b value : String} {lo hi : Option ℤ} (htype : claim.claimType = .voteCast)
      (hp : slots .speakerPersonId = some p) (hb : slots .billId = some b)
      (hscope : ScopeBounds T scope lo hi) (hsaid : VoteSaid T E R F p b lo hi value)
      (hvalue : ∀ e, claim.slots .voteValue = some e → value = e) :
      Traced claim slots scope texts .supported
  | voteContradicted {p b value e : String} {lo hi : Option ℤ} (htype : claim.claimType = .voteCast)
      (hp : slots .speakerPersonId = some p) (hb : slots .billId = some b)
      (hscope : ScopeBounds T scope lo hi) (hsaid : VoteSaid T E R F p b lo hi value)
      (he : claim.slots .voteValue = some e) (hvalue : value ≠ e) :
      Traced claim slots scope texts .contradicted
  | voteMixed {p b value e : String} {lo hi : Option ℤ} (htype : claim.claimType = .voteCast)
      (hp : slots .speakerPersonId = some p) (hb : slots .billId = some b)
      (hscope : ScopeBounds T scope lo hi) (hsaid : VoteSaid T E R F p b lo hi e)
      (hother : VoteSaid T E R F p b lo hi value) (he : claim.slots .voteValue = some e)
      (hvalue : value ≠ e) : Traced claim slots scope texts .mixed
  | result {p : String} {lo hi : Option ℤ} {seatsWon : ℤ} {passed : Bool} {status : Status}
      (htype : claim.claimType = .electionResult) (hp : slots .partyId = some p)
      (hscope : ScopeBounds T scope lo hi) (hsaid : ResultSaid T R p lo hi seatsWon passed)
      (hstatus : status = if seatsOk (parseIntSlot (claim.slots .expectedSeats)) (.int seatsWon) &&
          passedOk (parseExpectPassedThreshold (claim.slots .expectPassedThreshold)) (.bool passed)
        then .supported else .contradicted) : Traced claim slots scope texts status
  | decision {id : String} {lo hi : Option ℤ} (htype : claim.claimType = .governmentDecision)
      (hid : slots .governmentDecisionId = some id) (hscope : ScopeBounds T scope lo hi)
      (hsaid : DecisionSaid T R id lo hi) : Traced claim slots scope texts .supported
  | noDecision {d : NormalizedGovernmentDecision} (htype : claim.claimType = .governmentDecision)
      (hid : slots .governmentDecisionId = some "") (hsaid : R (.governmentDecision d))
      (hblank : d.governmentDecisionId = "") : Traced claim slots scope texts .contradicted
  | sponsored {p b : String} (htype : claim.claimType = .billSponsorship)
      (hp : slots .speakerPersonId = some p) (hb : slots .billId = some b)
      (hsaid : SponsorSaid R p b) : Traced claim slots scope texts .supported
  | term {p o : String} {lo hi : Option ℤ} (htype : claim.claimType = .officeHeld)
      (hp : slots .speakerPersonId = some p) (ho : slots .officeId = some o)
      (hscope : ScopeBounds T scope lo hi) (hsaid : TermSaid T R p o hi) :
      Traced claim slots scope texts .supported
  | holder {p o : String} {lo hi : Option ℤ} {t : ℤ} (htype : claim.claimType = .officeHeld)
      (hp : slots .speakerPersonId = some p) (ho : slots .officeId = some o)
      (hscope : ScopeBounds T scope lo hi) (hsaid : HolderSaid T R p o t) (hstart : ∀ h ∈ hi, t ≤ h) :
      Traced claim slots scope texts .supported
  | member {p c : String} {lo hi : Option ℤ} {t : ℤ}
      (htype : claim.claimType = .committeeMembership) (hp : slots .speakerPersonId = some p)
      (hc : slots .committeeId = some c) (hscope : ScopeBounds T scope lo hi)
      (hsaid : MemberSaid T R p c t) (hstart : ∀ h ∈ hi, t ≤ h) :
      Traced claim slots scope texts .supported
  | snippet (htype : claim.claimType = .billSponsorship ∨ claim.claimType = .officeHeld ∨
      claim.claimType = .committeeMembership) (htexts : texts ≠ 0) :
      Traced claim slots scope texts .supported
  | snippets (htype : claim.claimType = .statementAboutFormalAction) (htexts : 2 ≤ texts) :
      Traced claim slots scope texts .supported
  | oneSnippet (htype : claim.claimType = .statementAboutFormalAction) (htexts : texts = 1) :
      Traced claim slots scope texts .mixed

end Said

variable {T : CypherTime} {E : IngestEnv} {R : IngestRecord → Prop} {F : KnsVoteRow → Prop}
  {g : CivicGraph} {f f' : Field} {d : Datum} {x : Option Datum} {lo hi : Option ℤ}

/-! ## Items -/

@[simp] theorem keep_offers : (keep f x).Offers f' d ↔ f = f' ∧ x = some d :=
  and_congr_right fun _ => or_self_iff

@[simp] theorem overwrite_offers : (overwrite f x).Offers f' d ↔ f = f' ∧ x = some d :=
  and_congr_right fun _ => or_self_iff

theorem spells_of_moment {s : Option String} {t : ℤ} (h : moment T s = some (some (.instant t))) :
    Spells T s t := by
  cases s with
  | none => cases h
  | some s =>
    rw [moment_some] at h
    obtain ⟨t', ht, heq⟩ := Option.map_eq_some_iff.1 h
    cases heq
    exact ⟨s, rfl, ht⟩

/-- A date property within the bounds. -/
theorem within_of_dated {date : ℤ → Prop} (hx : ∀ t, x = some (.instant t) → date t)
    (h : datedWithin lo hi x = true) : DatedWithin lo hi date := by
  unfold datedWithin at h
  rw [Bool.and_eq_true] at h
  obtain ⟨hlo, hhi⟩ := h
  cases hi' : x.bind Datum.instant? with
  | none =>
    refine Or.inl ⟨?_, ?_⟩
    · cases lo with
      | none => rfl
      | some l =>
        unfold notBefore at hlo
        rw [hi'] at hlo
        cases hlo
    · cases hi with
      | none => rfl
      | some h =>
        unfold notAfter at hhi
        rw [hi'] at hhi
        cases hhi
  | some t =>
    obtain ⟨d, hd, ht⟩ := Option.bind_eq_some_iff.1 hi'
    have hdt : d = .instant t := by
      cases d <;> cases ht
      rfl
    refine Or.inr ⟨t, hx t (by rw [hd, hdt]), fun l hl => ?_, fun u hu => ?_⟩
    · rw [Option.mem_def.1 hl] at hlo
      unfold notBefore at hlo
      simpa [hi'] using hlo
    · rw [Option.mem_def.1 hu] at hhi
      unfold notAfter at hhi
      simpa [hi'] using hhi

/-- An interval that reaches into the scope began by its end. -/
theorem notAfter_of_overlaps {validFrom validTo : Option Datum} {t : ℤ}
    (hx : validFrom = some (.instant t)) (h : overlapsScope lo hi validFrom validTo = true) :
    ∀ u ∈ hi, t ≤ u := by
  intro u hu
  unfold overlapsScope at h
  rw [Bool.and_eq_true, Option.mem_def.1 hu, hx] at h
  simpa [notAfter, Datum.instant?] using h.2

/-- A required property is there, and of its column's kind. -/
theorem exists_of_required {cs : List Column} {col : Column} (h : columnOK cs f x)
    (hcol : cs.find? (fun c => c.field = f) = some col) (hrequired : col.required = true) :
    ∃ d, x = some d ∧ d.kind = col.kind := by
  rw [columnOK_iff hcol] at h
  cases x with
  | none => exact absurd (hrequired.symm.trans h) (by decide)
  | some d => exact ⟨d, rfl, h.1⟩

theorem eq_instant_of_kind (h : d.kind = .instant) : ∃ t, d = .instant t := by
  cases d <;> first | exact ⟨_, rfl⟩ | cases h

theorem eq_int_of_kind (h : d.kind = .int) : ∃ n, d = .int n := by
  cases d <;> first | exact ⟨_, rfl⟩ | cases h

theorem eq_flag_of_kind (h : d.kind = .flag) : ∃ b, d = .flag b := by
  cases d <;> first | exact ⟨_, rfl⟩ | cases h

/-- The start of an interval is the one that its statement gives. -/
theorem spells_of_span {rel : RelType} {a b : NodeKey} {k : RelKey} {start : String}
    {stop : Option String} {t : ℤ}
    (h : (spanMerge T rel a b (some start) stop).GivesRel k .validFrom (.instant t)) :
    (rel, a, b) = k ∧ Spells T (some start) t := by
  obtain ⟨-, hk, l, hl, hoffers⟩ := h
  obtain ⟨from', hfrom, hl⟩ := Option.bind_eq_some_iff.1 hl
  obtain ⟨to', -, hl⟩ := Option.bind_eq_some_iff.1 hl
  cases hl
  have hx : from' = some (.instant t) := by simpa using hoffers
  rw [hx] at hfrom
  exact ⟨hk, spells_of_moment hfrom⟩

section Reading

variable (hatt : Attested (FedBy T E R F) g) {p b o c id : String} {v : NodeKey}
include hatt

theorem joined_of_rel {k : RelKey} (hk : k ∈ g.rels) : Joined E R F k := by
  obtain ⟨s, hs, hjoins⟩ := hatt.rel k hk
  exact hs.uttered.joined hjoins

/-- A property of a node that does not only carry names is one that a statement at it gives. -/
theorem saidAt_of_nodeProp {n : NodeKey} (hn : n.1.descriptive = false)
    (hx : g.nodeProp n f = some d) : ∃ s, SaidAt T E R F s n ∧ s.GivesNode n f d := by
  obtain ⟨s, hs, hgives⟩ := hatt.nodeProp _ _ _ hx
  exact ⟨s, hs.uttered.saidAt hgives.atNode hn, hgives⟩

theorem sponsorSaid_of_rel (hk : (.sponsored, (.person, p), (.bill, b)) ∈ g.rels) :
    SponsorSaid R p b := by
  cases joined_of_rel hatt hk with
  | sponsorship hr => exact Or.inl hr
  | sponsor hr hp => exact Or.inr ⟨_, hr, rfl, hp⟩

theorem rowSays_of_rel (hk : (.aboutBill, (.voteEvent, id), (.bill, b)) ∈ g.rels) :
    ∃ row, F row ∧ RowSays E row id b := by
  cases joined_of_rel hatt hk with
  | aboutBill hrow hv hb => exact ⟨_, hrow, _, _, hv, hb, rfl, rfl⟩

/-- The value of a vote is that of a record. -/
theorem cast_of_value (hx : g.relProp (.castVote, (.person, p), v) .value = some d) :
    ∃ r cv, R (.vote r) ∧ cv ∈ r.castVotes ∧ cv.personId = p ∧
      v = (.voteEvent, r.voteEventId) ∧ d = .text cv.value := by
  obtain ⟨s, hs, hgives⟩ := hatt.relProp _ _ _ hx
  cases hs.uttered with
  | castVote hr hcv =>
    obtain ⟨-, heq, l, hl, i, hi, hoffers⟩ := hgives
    cases heq
    cases hl
    obtain rfl := List.mem_singleton.1 hi
    obtain ⟨-, hd⟩ := overwrite_offers.1 hoffers
    exact ⟨_, _, hr, hcv, rfl, rfl, (Option.some.inj hd).symm⟩
  | _ =>
    first
      | exact hgives.elim
      | (obtain ⟨-, heq, -⟩ := hgives; cases heq)

theorem voteAt_of_node {t : ℤ}
    (hx : g.nodeProp (.voteEvent, id) .occurredAt = some (.instant t)) : VoteAt T E R F id t := by
  obtain ⟨s, hs, hgives⟩ := saidAt_of_nodeProp hatt rfl hx
  cases hs with
  | @vote r hr =>
    obtain ⟨-, l, hl, hoffers⟩ := hgives
    obtain ⟨occurred, hmoment, hl⟩ := Option.bind_eq_some_iff.1 hl
    cases hl
    have hx : occurred = some (.instant t) := by simpa using hoffers
    rw [hx] at hmoment
    exact Or.inl ⟨r, hr, rfl, spells_of_moment hmoment⟩
  | @aboutBill row voteId billId hrow hv hb =>
    obtain ⟨-, l, hl, hoffers⟩ := hgives
    obtain ⟨occurred, hmoment, hl⟩ := Option.bind_eq_some_iff.1 hl
    cases hl
    have hx : occurred = some (.instant t) := by simpa using hoffers
    rw [hx] at hmoment
    exact Or.inr ⟨row, _, hrow, ⟨voteId, billId, hv, hb, rfl, rfl⟩, spells_of_moment hmoment⟩

/-- A property of a result is one that a record of it gives. -/
theorem result_gives (hx : g.nodeProp (.electionResult, id) f = some d) :
    ∃ r, R (.electionResult r) ∧ (resultStatement T r).GivesNode (.electionResult, id) f d := by
  obtain ⟨s, hs, hgives⟩ := saidAt_of_nodeProp hatt rfl hx
  cases hs with
  | result hr => exact ⟨_, hr, hgives⟩

theorem resultDate_of_node {t : ℤ}
    (hx : g.nodeProp (.electionResult, id) .electionDate = some (.instant t)) :
    ∃ r, R (.electionResult r) ∧ r.electionResultId = id ∧ Spells T (some r.electionDate) t := by
  obtain ⟨r, hr, heq, l, hl, hoffers⟩ := result_gives hatt hx
  obtain ⟨date, hmoment, hl⟩ := Option.bind_eq_some_iff.1 hl
  cases hl
  cases heq
  have hdate : date = some (.instant t) := by simpa using hoffers
  rw [hdate] at hmoment
  exact ⟨r, hr, rfl, spells_of_moment hmoment⟩

theorem term_gives (hx : g.nodeProp (.positionTerm, id) f = some d) :
    ∃ b pt, R (.position b) ∧ pt ∈ b.positionTerm ∧
      (termStatement T pt).GivesNode (.positionTerm, id) f d := by
  obtain ⟨s, hs, hgives⟩ := saidAt_of_nodeProp hatt rfl hx
  cases hs with
  | term hr hpt => exact ⟨_, _, hr, hpt, hgives⟩

theorem termStart_of_node {t : ℤ}
    (hx : g.nodeProp (.positionTerm, id) .validFrom = some (.instant t)) :
    ∃ b pt, R (.position b) ∧ pt ∈ b.positionTerm ∧ pt.positionTermId = id ∧
      Spells T (some pt.validFrom) t := by
  obtain ⟨b, pt, hr, hpt, heq, l, hl, hoffers⟩ := term_gives hatt hx
  obtain ⟨start, hmoment, hl⟩ := Option.bind_eq_some_iff.1 hl
  obtain ⟨stop, -, hl⟩ := Option.bind_eq_some_iff.1 hl
  cases hl
  cases heq
  have hstart : start = some (.instant t) := by simpa using hoffers
  rw [hstart] at hmoment
  exact ⟨b, pt, hr, hpt, rfl, spells_of_moment hmoment⟩

theorem decision_gives (hx : g.nodeProp (.governmentDecision, id) f = some d) :
    ∃ r, R (.governmentDecision r) ∧
      (decisionStatement T r).GivesNode (.governmentDecision, id) f d := by
  obtain ⟨s, hs, hgives⟩ := saidAt_of_nodeProp hatt rfl hx
  cases hs with
  | decision hr => exact ⟨_, hr, hgives⟩

theorem decisionDate_of_node {t : ℤ}
    (hx : g.nodeProp (.governmentDecision, id) .decisionDate = some (.instant t)) :
    ∃ r, R (.governmentDecision r) ∧ r.governmentDecisionId = id ∧ Spells T r.decisionDate t := by
  obtain ⟨r, hr, heq, l, hl, hoffers⟩ := decision_gives hatt hx
  obtain ⟨date, hmoment, hl⟩ := Option.bind_eq_some_iff.1 hl
  cases hl
  cases heq
  have hdate : date = some (.instant t) := by simpa using hoffers
  rw [hdate] at hmoment
  exact ⟨r, hr, rfl, spells_of_moment hmoment⟩

theorem decision_of_node (hn : (Label.governmentDecision, id) ∈ g.nodes) :
    ∃ r, R (.governmentDecision r) ∧ r.governmentDecisionId = id := by
  obtain ⟨s, hs, hmerges⟩ := hatt.node _ hn
  have hat : SaidAt T E R F s (.governmentDecision, id) := hs.uttered.saidAt hmerges.atNode rfl
  cases hat with
  | decision hr => exact ⟨_, hr, rfl⟩

/-! ### By claim type -/

theorem holderSaid_of_start {t : ℤ}
    (hx : g.relProp (.heldOffice, (.person, p), (.office, o)) .validFrom = some (.instant t)) :
    HolderSaid T R p o t := by
  obtain ⟨s, hs, hgives⟩ := hatt.relProp _ _ _ hx
  cases hs.uttered with
  | held hr ho =>
    obtain ⟨heq, hspells⟩ := spells_of_span hgives
    cases heq
    exact Or.inl ⟨_, _, hr, ho, rfl, rfl, hspells⟩
  | holds hr ho =>
    obtain ⟨heq, hspells⟩ := spells_of_span hgives
    cases heq
    exact Or.inr ⟨_, _, _, hr, ho, rfl, rfl, hspells⟩
  | _ =>
    first
      | exact hgives.elim
      | (obtain ⟨-, heq, -⟩ := hgives; cases heq)

theorem memberSaid_of_start {t : ℤ}
    (hx : g.relProp (.memberOfCommittee, (.person, p), (.committee, c)) .validFrom =
      some (.instant t)) : MemberSaid T R p c t := by
  obtain ⟨s, hs, hgives⟩ := hatt.relProp _ _ _ hx
  cases hs.uttered with
  | member hr =>
    obtain ⟨heq, hspells⟩ := spells_of_span hgives
    cases heq
    exact Or.inl ⟨_, hr, rfl, rfl, hspells⟩
  | listed hr hm =>
    obtain ⟨heq, hspells⟩ := spells_of_span hgives
    cases heq
    exact Or.inr ⟨_, _, _, hr, hm, rfl, rfl, hspells⟩
  | _ =>
    first
      | exact hgives.elim
      | (obtain ⟨-, heq, -⟩ := hgives; cases heq)

variable (hschema : Conforms civicSchema g)
include hschema

omit hatt in
/-- The start of an interval is never null. -/
theorem start_of_rel {k : RelKey} (hk : k ∈ g.rels) (hspan : relColumns k.1 = spanColumns) :
    ∃ t, g.relProp k .validFrom = some (.instant t) := by
  have hcolumn : columnOK (relColumns k.1) .validFrom (g.relProp k .validFrom) :=
    hschema.relProp hk .validFrom
  rw [hspan] at hcolumn
  obtain ⟨d, hd, hkind⟩ := exists_of_required hcolumn rfl rfl
  obtain ⟨t, rfl⟩ := eq_instant_of_kind hkind
  exact ⟨t, hd⟩

theorem voteSaid_of_mem (hv : v ∈ votesCast g p b lo hi) :
    ∃ value, recordedVote g p v = .str value ∧ VoteSaid T E R F p b lo hi value := by
  unfold votesCast at hv
  obtain ⟨-, -, hcast, habout, hdated⟩ := Finset.mem_filter.1 hv
  obtain ⟨value, -, hvalue⟩ := recordedVote_text hschema hcast
  refine ⟨value, hvalue, ?_⟩
  cases hx : g.relProp (.castVote, (.person, p), v) .value with
  | none =>
    unfold recordedVote at hvalue
    rw [hx] at hvalue
    cases hvalue
  | some d =>
    obtain ⟨r, cv, hr, hcv, hp, rfl, rfl⟩ := cast_of_value hatt hx
    unfold recordedVote at hvalue
    rw [hx] at hvalue
    obtain ⟨row, hrow, hsays⟩ := rowSays_of_rel hatt habout
    exact ⟨r, cv, row, hr, hcv, hp, Value.str.inj hvalue, hrow, hsays,
      within_of_dated (fun t ht => voteAt_of_node hatt ht) hdated⟩

theorem resultSaid_of_mem (he : v ∈ electionResults g p lo hi) :
    ∃ seatsWon passed, g.nodeProp v .seatsWon = some (.int seatsWon) ∧
      g.nodeProp v .passedThreshold = some (.flag passed) ∧
      ResultSaid T R p lo hi seatsWon passed := by
  unfold electionResults at he
  obtain ⟨hnode, hlabel, hparty, hdated⟩ := Finset.mem_filter.1 he
  obtain ⟨label, id⟩ := v
  obtain rfl : label = .electionResult := hlabel
  have hcolumn : ∀ f, columnOK (nodeColumns .electionResult) f
      (g.nodeProp (.electionResult, id) f) := hschema.nodeProp (Finmap.mem_keys.1 hnode)
  obtain ⟨d, hseats, hkind⟩ := exists_of_required (hcolumn .seatsWon) rfl rfl
  obtain ⟨seatsWon, rfl⟩ := eq_int_of_kind hkind
  obtain ⟨d', hpassed, hkind'⟩ := exists_of_required (hcolumn .passedThreshold) rfl rfl
  obtain ⟨passed, rfl⟩ := eq_flag_of_kind hkind'
  refine ⟨seatsWon, passed, hseats, hpassed, id, ?_, ?_, ?_, ?_⟩
  · cases joined_of_rel hatt hparty with
    | forParty hr => exact ⟨_, hr, rfl, rfl⟩
  · obtain ⟨r, hr, heq, l, hl, hoffers⟩ := result_gives hatt hseats
    obtain ⟨date, -, hl⟩ := Option.bind_eq_some_iff.1 hl
    cases hl
    cases heq
    exact ⟨r, hr, rfl, by simpa [int] using hoffers⟩
  · obtain ⟨r, hr, heq, l, hl, hoffers⟩ := result_gives hatt hpassed
    obtain ⟨date, -, hl⟩ := Option.bind_eq_some_iff.1 hl
    cases hl
    cases heq
    exact ⟨r, hr, rfl, by simpa using hoffers⟩
  · exact within_of_dated (fun t ht => resultDate_of_node hatt ht) hdated

omit hschema in
theorem decisionSaid_of_node (hn : (Label.governmentDecision, id) ∈ g.nodes)
    (hdate : dateWithin lo hi (decisionNode g (.governmentDecision, id)) = true) :
    DecisionSaid T R id lo hi := by
  exact ⟨decision_of_node hatt hn, within_of_dated
    (x := g.nodeProp (.governmentDecision, id) .decisionDate)
    (fun t ht => decisionDate_of_node hatt ht) hdate⟩

theorem termSaid_of_mem (hv : v ∈ heldTerms g p o lo hi) : TermSaid T R p o hi := by
  unfold heldTerms at hv
  obtain ⟨hnode, ⟨hlabel, hhas, habout⟩, hoverlaps⟩ := Finset.mem_filter.1 hv
  obtain ⟨label, id⟩ := v
  obtain rfl : label = .positionTerm := hlabel
  refine ⟨id, ?_, ?_, fun u hu => ?_⟩
  · cases joined_of_rel hatt hhas with
    | hasTerm hr hpt => exact ⟨_, _, hr, hpt, rfl, rfl⟩
  · cases joined_of_rel hatt habout with
    | aboutOffice hr hpt => exact ⟨_, _, hr, hpt, rfl, rfl⟩
  · have hcolumn : columnOK (nodeColumns .positionTerm) .validFrom
        (g.nodeProp (.positionTerm, id) .validFrom) :=
      hschema.nodeProp (Finmap.mem_keys.1 hnode) .validFrom
    obtain ⟨d, ht, hkind⟩ := exists_of_required hcolumn rfl rfl
    obtain ⟨t, rfl⟩ := eq_instant_of_kind hkind
    exact ⟨t, termStart_of_node hatt ht, notAfter_of_overlaps ht hoverlaps u hu⟩

theorem holderSaid_of_rows (h : legacyHeldRows T g p o lo hi ≠ []) :
    ∃ t, HolderSaid T R p o t ∧ ∀ u ∈ hi, t ≤ u := by
  unfold legacyHeldRows at h
  dsimp only at h
  split_ifs at h with hrow
  · obtain ⟨t, ht⟩ := start_of_rel hschema hrow.1 rfl
    exact ⟨t, holderSaid_of_start hatt ht, notAfter_of_overlaps ht hrow.2.1⟩
  · exact absurd rfl h

theorem memberSaid_of_rows (h : committeeMembershipRows T g p c lo hi ≠ []) :
    ∃ t, MemberSaid T R p c t ∧ ∀ u ∈ hi, t ≤ u := by
  unfold committeeMembershipRows at h
  dsimp only at h
  split_ifs at h with hrow
  · obtain ⟨t, ht⟩ := start_of_rel hschema hrow.1 rfl
    exact ⟨t, memberSaid_of_start hatt ht, notAfter_of_overlaps ht hrow.2⟩
  · exact absurd rfl h

omit hatt in
/-- No relationship of the schema leads from an attended event to what the template asks for. -/
theorem attendedEvents_eq_empty : attendedEvents g p c lo hi = ∅ := by
  rw [Finset.eq_empty_iff_forall_notMem]
  intro k hk
  unfold attendedEvents at hk
  obtain ⟨hmem, hlink, hevent, -⟩ := Finset.mem_filter.1 hk
  have hends : k.1.ends = some (k.2.1.1, k.2.2.1) := hschema.ends (Finmap.mem_keys.1 hmem)
  obtain ⟨rel, ⟨a, b⟩, e⟩ := k
  dsimp only at hlink hevent hends
  rw [hevent] at hends
  simp only [attendanceLinks, List.mem_cons, List.not_mem_nil, or_false] at hlink
  rcases hlink with rfl | rfl | rfl <;> cases hends

/-- **What a verdict rests on in the graph, records say.** -/
theorem traced_of_grounds {claim : DecomposedClaim} {slots : Slots} {scope : TimeScope}
    {texts : ℕ} {status : Status} (h : Grounds T g claim slots scope texts status) :
    Traced T E R F claim slots scope texts status := by
  cases h with
  | voteSupported htype hp hb hscope hv hvalue =>
    obtain ⟨value, hrecorded, hsaid⟩ := voteSaid_of_mem hatt hschema hv
    refine .voteSupported htype hp hb hscope hsaid fun e he => ?_
    exact Value.str.inj (hrecorded.symm.trans (hvalue e he))
  | voteContradicted htype hp hb hscope hv he hvalue =>
    obtain ⟨value, hrecorded, hsaid⟩ := voteSaid_of_mem hatt hschema hv
    refine .voteContradicted htype hp hb hscope hsaid he fun heq => hvalue ?_
    rw [hrecorded, heq]
  | voteMixed htype hp hb hscope hv hw he hvalue hother =>
    obtain ⟨value, hrecorded, hsaid⟩ := voteSaid_of_mem hatt hschema hv
    obtain ⟨other, hrecorded', hsaid'⟩ := voteSaid_of_mem hatt hschema hw
    obtain rfl := Value.str.inj (hrecorded.symm.trans hvalue)
    refine .voteMixed htype hp hb hscope hsaid hsaid' he fun heq => hother ?_
    rw [hrecorded', heq]
  | resultSupported htype hp hscope he hfits =>
    obtain ⟨seatsWon, passed, hseats, hpassed, hsaid⟩ := resultSaid_of_mem hatt hschema he
    refine .result htype hp hscope hsaid ?_
    unfold resultFits at hfits
    rw [hseats, hpassed] at hfits
    exact (if_pos hfits).symm
  | resultContradicted htype hp hscope he hfits =>
    obtain ⟨seatsWon, passed, hseats, hpassed, hsaid⟩ := resultSaid_of_mem hatt hschema he
    refine .result htype hp hscope hsaid ?_
    unfold resultFits at hfits
    rw [hseats, hpassed] at hfits
    exact (if_neg (Bool.eq_false_iff.1 hfits)).symm
  | attendanceSupported _ _ _ _ hr =>
    rw [attendedEvents_eq_empty hschema] at hr
    exact absurd hr (Finset.notMem_empty _)
  | attendanceContradicted _ _ _ _ hr =>
    rw [attendedEvents_eq_empty hschema] at hr
    exact absurd hr (Finset.notMem_empty _)
  | decisionSupported htype hid hscope hn hdate =>
    exact .decision htype hid hscope (decisionSaid_of_node hatt hn hdate)
  | decisionContradicted htype hid hn =>
    obtain ⟨r, hr, hblank⟩ := decision_of_node hatt hn
    exact .noDecision htype hid hr hblank
  | sponsored htype hp hb hk => exact .sponsored htype hp hb (sponsorSaid_of_rel hatt hk)
  | heldTerm htype hp ho hscope hpt =>
    exact .term htype hp ho hscope (termSaid_of_mem hatt hschema hpt)
  | heldOffice htype hp ho hscope hrows =>
    obtain ⟨t, hsaid, hstart⟩ := holderSaid_of_rows hatt hschema hrows
    exact .holder htype hp ho hscope hsaid hstart
  | member htype hp hc hscope hrows =>
    obtain ⟨t, hsaid, hstart⟩ := memberSaid_of_rows hatt hschema hrows
    exact .member htype hp hc hscope hsaid hstart
  | snippet htype htexts => exact .snippet htype htexts
  | snippets htype htexts => exact .snippets htype htexts
  | oneSnippet htype htexts => exact .oneSnippet htype htexts

end Reading

/-! ## The pipeline -/

section Pipeline

variable {σ : Type} {P : VerifyPipeline σ} {env : Env} {driver : GraphDriver σ}
  {graphOf : σ → CivicGraph}

/-- **Every definite verdict of `verify` goes back to records**, of what its turn finds, when the
graph is written by statements of these records and rows only, in whatever interleaving, with whatever
crashes and refusals, before and between the queries. -/
theorem verdict_traced (hdriver : AnswersFrom T driver graphOf)
    (hgraph : P.graph = some driver.retrieve)
    (hwritten : ∀ s, WrittenBy (FedBy T E R F) (graphOf s)) {statement : String}
    {language : Option Language} {bundles : List Bundle} {s s' : σ}
    (h : P.verify env statement language s = (.ok bundles, s')) :
    List.Forall₂ (fun turn b => b.claim = turn.1 ∧ (Definite b.outcome.status →
      b.checkability = .checkable ∧ ∃ r w rows found w',
        P.Finds env turn.1 turn.2 r w rows found w' ∧
        Traced T E R F turn.1 r.resolvedSlots b.timeScope found.length b.outcome.status))
      (P.claimTurns env statement language s) bundles := by
  refine (VerifyPipeline.verify_turns h).imp fun turn b hrun => ?_
  obtain ⟨u, hrun⟩ := hrun
  refine ⟨VerifyPipeline.verifyClaim_claim hrun, fun hdef => ?_⟩
  obtain ⟨hcheck, r, w, rows, found, w', hfinds, hgrounds⟩ :=
    VerifyPipeline.verifyClaim_grounds hdriver hgraph hrun hdef
  have hgraphOf := hwritten (driver.openSession w).2
  have hschema : Conforms civicSchema (graphOf (driver.openSession w).2) :=
    hgraphOf.conforms fun _ hs => hs.ingests.respects
  exact ⟨hcheck, r, w, rows, found, w', hfinds,
    traced_of_grounds hgraphOf.attested hschema hgrounds⟩

end Pipeline

/-! ## One record -/

/-- The only record. -/
def initiated : IngestRecord := .billSponsorship { billId := "b1", personId := "p1" }

theorem sponsoredGraph_fed :
    WrittenBy (FedBy noDates demoEnv (· = initiated) fun _ => False) sponsoredGraph :=
  WrittenBy.empty.run (fun _ hs => Or.inl ⟨initiated, "", rfl, hs⟩) _

/-- A supported sponsorship goes back to the record. -/
theorem verdict_traced_sponsorship : ∃ b s',
    sponsorshipPipeline.verify plainEnv sponsorship (some .en) () = (.ok [b], s') ∧
      b.outcome.status = .supported ∧ b.checkability = .checkable ∧
      ∃ turn ∈ sponsorshipPipeline.claimTurns plainEnv sponsorship (some .en) (),
        ∃ r w rows found w', sponsorshipPipeline.Finds plainEnv turn.1 turn.2 r w rows found w' ∧
          Traced noDates demoEnv (· = initiated) (fun _ => False) turn.1 r.resolvedSlots b.timeScope
            found.length b.outcome.status := by
  obtain ⟨b, s', hv, hb⟩ := single_bundle sponsorshipPipeline_run
  obtain ⟨turn, hturn, -, htraced⟩ := exists_turn
    (verdict_traced sponsorshipDriver_answers rfl (fun _ => sponsoredGraph_fed) hv)
  obtain ⟨hcheck, hfinds⟩ := htraced (Or.inl hb)
  exact ⟨b, s', hv, hb, hcheck, turn, hturn, hfinds⟩

end CivicProof
