import CivicProof.PropGraph.Attest
import CivicProof.Spec.GraphSchema

/-!
# What records say

The statements of a set of normalized records and of a set of rows of the vote script's feed, by the
record that each comes from. Nodes that only carry names, and memberships of parties, are not told
apart.

* `Uttered`: everything a statement of a record can be; `SaidAt`, `Joined`: what it writes.
* `IngestRecord.uttered`: each statement of a record is that.
-/

namespace CivicProof

open PropGraph Cypher

section

variable (T : CypherTime) (E : IngestEnv) (R : IngestRecord → Prop) (F : KnsVoteRow → Prop)

/-- A statement of one of the records, or of one of the rows of the vote script's feed. -/
def FedBy (s : CivicStmt) : Prop :=
  (∃ r iso, R r ∧ s ∈ IngestRecord.statements T iso r) ∨
    ∃ row, F row ∧ voteBillStatement T E row = some s

/-- The node that `upsert_position` merges for a term. -/
def termStatement (pt : NormalizedPositionTerm) : CivicStmt :=
  positionTermUpsert T pt.positionTermId (some pt.personId) (some pt.officeId) pt.appointingBody
    (some pt.validFrom) pt.validTo (some pt.isActing) none

/-- The node that `upsert_election_result` merges for a result. -/
def resultStatement (r : NormalizedElectionResult) : CivicStmt :=
  electionResultUpsert T r.electionResultId (some r.electionDate) (some r.knessetNumber)
    (some r.listName) (some r.ballotLetters) (some r.listPartyId) (some r.votes) (some r.seatsWon)
    (some r.voteShare) (some r.passedThreshold) none

/-- The node that `upsert_government_decision` merges. -/
def decisionStatement (d : NormalizedGovernmentDecision) : CivicStmt :=
  governmentDecisionUpsert T d.governmentDecisionId d.decisionNumber d.governmentNumber
    d.decisionDate (some d.title) d.summary d.issuingBody none

/-- The labels of nodes that carry names, of the terms of a committee and of its sessions. -/
def Label.descriptive : Label → Bool
  | .person | .party | .office | .committee | .bill | .membershipTerm | .attendanceEvent => true
  | .voteEvent | .positionTerm | .electionResult | .governmentDecision => false

/-- **Everything a statement of a record can be**, with the record. -/
inductive Uttered : CivicStmt → Prop
  | describes {n : NodeKey} {items : Option (List CivicItem)} (hn : n.1.descriptive = true) :
      Uttered (.mergeNode n items)
  | memberOf {personId partyId : String} {validFrom validTo : Option String} :
      Uttered (memberOf T personId partyId validFrom validTo)
  | attended {personId eventId : String} {presence : Option String} :
      Uttered (attended personId eventId presence)
  | vote {r : NormalizedVoteEvent} (hr : R (.vote r)) :
      Uttered (voteEventUpsert T r.voteEventId r.billId r.occurredAt r.voteType)
  | castVote {r : NormalizedVoteEvent} {cv : NormalizedCastVote} (hr : R (.vote r))
      (hcv : cv ∈ r.castVotes) : Uttered (castVote cv.personId r.voteEventId (some cv.value))
  | term {b : NormalizedPositionBundle} {pt : NormalizedPositionTerm} (hr : R (.position b))
      (hpt : pt ∈ b.positionTerm) : Uttered (termStatement T pt)
  | hasTerm {b : NormalizedPositionBundle} {pt : NormalizedPositionTerm} (hr : R (.position b))
      (hpt : pt ∈ b.positionTerm) : Uttered (hasPositionTerm b.personId pt.positionTermId)
  | aboutOffice {b : NormalizedPositionBundle} {pt : NormalizedPositionTerm}
      (hr : R (.position b)) (hpt : pt ∈ b.positionTerm) :
      Uttered (aboutOffice pt.positionTermId pt.officeId)
  | held {b : NormalizedPositionBundle} {o : NormalizedOfficeHeld} (hr : R (.position b))
      (ho : o ∈ b.office) :
      Uttered (heldOffice T b.personId o.officeId (some o.validFrom) o.validTo)
  | holds {p : NormalizedPerson} {o : NormalizedOffice} {iso : String} (hr : R (.person p))
      (ho : o ∈ p.office) : Uttered (heldOffice T p.personId o.officeId (some iso) none)
  | member {m : NormalizedCommitteeMembership} (hr : R (.committeeMembership m)) :
      Uttered (memberOfCommittee T m.personId m.committeeId (some m.validFrom) m.validTo)
  | listed {c : NormalizedCommittee} {m : NormalizedMembership} {iso : String}
      (hr : R (.committee c)) (hm : m ∈ c.memberships) :
      Uttered (memberOfCommittee T m.personId m.committeeId
        (some ((orNone m.validFrom).getD iso)) m.validTo)
  | sponsorship {s : NormalizedBillSponsorship} (hr : R (.billSponsorship s)) :
      Uttered (Cypher.sponsored s.personId s.billId)
  | sponsor {b : NormalizedBill} {personId : String} (hr : R (.bill b))
      (hp : personId ∈ b.sponsorships) : Uttered (Cypher.sponsored personId b.billId)
  | result {r : NormalizedElectionResult} (hr : R (.electionResult r)) :
      Uttered (resultStatement T r)
  | forParty {r : NormalizedElectionResult} (hr : R (.electionResult r)) :
      Uttered (forParty r.electionResultId r.listPartyId)
  | decision {d : NormalizedGovernmentDecision} (hr : R (.governmentDecision d)) :
      Uttered (decisionStatement T d)
  | aboutBill {row : KnsVoteRow} {voteId billId : ℤ} (hrow : F row)
      (hv : presentId row.voteId = some voteId) (hb : presentId row.billId = some billId) :
      Uttered (voteEventAboutBill T (extUuid E "knesset_vote" (toString voteId))
        (extUuid E "knesset_bill" (toString billId)) row.startDate row.voteType)

/-- **The statements at each node**, with the record, where the node does not only carry names. -/
inductive SaidAt : CivicStmt → NodeKey → Prop
  | vote {r : NormalizedVoteEvent} (hr : R (.vote r)) :
      SaidAt (voteEventUpsert T r.voteEventId r.billId r.occurredAt r.voteType)
        (.voteEvent, r.voteEventId)
  | term {b : NormalizedPositionBundle} {pt : NormalizedPositionTerm} (hr : R (.position b))
      (hpt : pt ∈ b.positionTerm) : SaidAt (termStatement T pt) (.positionTerm, pt.positionTermId)
  | result {r : NormalizedElectionResult} (hr : R (.electionResult r)) :
      SaidAt (resultStatement T r) (.electionResult, r.electionResultId)
  | decision {d : NormalizedGovernmentDecision} (hr : R (.governmentDecision d)) :
      SaidAt (decisionStatement T d) (.governmentDecision, d.governmentDecisionId)
  | aboutBill {row : KnsVoteRow} {voteId billId : ℤ} (hrow : F row)
      (hv : presentId row.voteId = some voteId) (hb : presentId row.billId = some billId) :
      SaidAt (voteEventAboutBill T (extUuid E "knesset_vote" (toString voteId))
        (extUuid E "knesset_bill" (toString billId)) row.startDate row.voteType)
        (.voteEvent, extUuid E "knesset_vote" (toString voteId))

/-- **Every relationship that such statements merge**, with the record. -/
inductive Joined : RelKey → Prop
  | memberOf {a b : NodeKey} : Joined (.memberOf, a, b)
  | attended {a b : NodeKey} : Joined (.attended, a, b)
  | castVote {r : NormalizedVoteEvent} {cv : NormalizedCastVote} (hr : R (.vote r))
      (hcv : cv ∈ r.castVotes) : Joined (.castVote, (.person, cv.personId), (.voteEvent, r.voteEventId))
  | hasTerm {b : NormalizedPositionBundle} {pt : NormalizedPositionTerm} (hr : R (.position b))
      (hpt : pt ∈ b.positionTerm) :
      Joined (.hasPositionTerm, (.person, b.personId), (.positionTerm, pt.positionTermId))
  | aboutOffice {b : NormalizedPositionBundle} {pt : NormalizedPositionTerm}
      (hr : R (.position b)) (hpt : pt ∈ b.positionTerm) :
      Joined (.aboutOffice, (.positionTerm, pt.positionTermId), (.office, pt.officeId))
  | heldOffice {a b : NodeKey} : Joined (.heldOffice, a, b)
  | memberOfCommittee {a b : NodeKey} : Joined (.memberOfCommittee, a, b)
  | sponsorship {s : NormalizedBillSponsorship} (hr : R (.billSponsorship s)) :
      Joined (.sponsored, (.person, s.personId), (.bill, s.billId))
  | sponsor {b : NormalizedBill} {personId : String} (hr : R (.bill b))
      (hp : personId ∈ b.sponsorships) : Joined (.sponsored, (.person, personId), (.bill, b.billId))
  | forParty {r : NormalizedElectionResult} (hr : R (.electionResult r)) :
      Joined (.forParty, (.electionResult, r.electionResultId), (.party, r.listPartyId))
  | aboutBill {row : KnsVoteRow} {voteId billId : ℤ} (hrow : F row)
      (hv : presentId row.voteId = some voteId) (hb : presentId row.billId = some billId) :
      Joined (.aboutBill, (.voteEvent, extUuid E "knesset_vote" (toString voteId)),
        (.bill, extUuid E "knesset_bill" (toString billId)))

end

variable {T : CypherTime} {E : IngestEnv} {R : IngestRecord → Prop} {F : KnsVoteRow → Prop}

/-- **The statements of a record**, one by one. -/
theorem IngestRecord.uttered {r : IngestRecord} {iso : String} {s : CivicStmt} (hr : R r)
    (hs : s ∈ r.statements T iso) : Uttered T E R F s := by
  cases r with
  | person r =>
    simp only [statements, upsertPerson, List.mem_cons, List.mem_append, List.mem_flatMap,
      List.not_mem_nil, or_false] at hs
    rcases hs with rfl | ⟨p, -, rfl | rfl⟩ | ⟨o, ho, rfl | rfl⟩
    · exact .describes rfl
    · exact .describes rfl
    · exact .memberOf
    · exact .describes rfl
    · exact .holds hr (Option.mem_toList.1 ho)
  | position r =>
    rcases mem_upsertPosition.1 hs with rfl | ⟨p, -, rfl | rfl⟩ | ⟨o, ho, rfl | rfl⟩ |
      ⟨pt, hpt, rfl | rfl | rfl⟩
    · exact .describes rfl
    · exact .describes rfl
    · exact .memberOf
    · exact .describes rfl
    · exact .held hr ho
    · exact .term hr hpt
    · exact .hasTerm hr hpt
    · exact .aboutOffice hr hpt
  | vote r =>
    simp only [statements, upsertVote, List.mem_cons, List.mem_flatMap, List.not_mem_nil,
      or_false] at hs
    rcases hs with rfl | ⟨cv, hcv, rfl | rfl⟩
    · exact .vote hr
    · exact .describes rfl
    · exact .castVote hr hcv
  | attendance r =>
    simp only [statements, upsertAttendance, List.mem_cons, List.mem_flatMap, List.not_mem_nil,
      or_false] at hs
    rcases hs with rfl | ⟨a, -, rfl | rfl⟩
    · exact .describes rfl
    · exact .describes rfl
    · exact .attended
  | committee r =>
    simp only [statements, upsertCommittee, List.mem_cons, List.mem_flatMap, List.not_mem_nil,
      or_false] at hs
    rcases hs with rfl | ⟨m, hm, rfl | rfl⟩
    · exact .describes rfl
    · exact .describes rfl
    · exact .listed hr hm
  | committeeMembership r =>
    simp only [statements, upsertCommitteeMembership, List.mem_cons, List.not_mem_nil,
      or_false] at hs
    rcases hs with rfl | rfl | rfl
    · exact .describes rfl
    · exact .describes rfl
    · exact .member hr
  | bill r =>
    simp only [statements, upsertBill, List.mem_cons, List.mem_map] at hs
    rcases hs with rfl | ⟨p, hp, rfl⟩
    · exact .describes rfl
    · exact .sponsor hr hp
  | billSponsorship r =>
    simp only [statements, upsertBillSponsorship, List.mem_cons, List.not_mem_nil, or_false] at hs
    rcases hs with rfl | rfl | rfl
    · exact .describes rfl
    · exact .describes rfl
    · exact .sponsorship hr
  | electionResult r =>
    simp only [statements, upsertElectionResult, List.mem_cons, List.not_mem_nil, or_false] at hs
    rcases hs with rfl | rfl | rfl
    · exact .describes rfl
    · exact .result hr
    · exact .forParty hr
  | governmentDecision r =>
    obtain rfl := List.mem_singleton.1 hs
    exact .decision hr

theorem FedBy.uttered {s : CivicStmt} (h : FedBy T E R F s) : Uttered T E R F s := by
  rcases h with ⟨r, iso, hr, hs⟩ | ⟨row, hrow, hs⟩
  · exact IngestRecord.uttered hr hs
  · obtain ⟨v, hv, hs⟩ := Option.bind_eq_some_iff.1 hs
    obtain ⟨b, hb, hs⟩ := Option.bind_eq_some_iff.1 hs
    cases hs
    exact .aboutBill hrow hv hb

/-- Statements of particular records are statements of records. -/
theorem FedBy.ingests {s : CivicStmt} (h : FedBy T E R F s) : Ingests T E s := by
  rcases h with ⟨r, iso, -, hs⟩ | ⟨row, -, hs⟩
  · exact Or.inl ⟨r, iso, hs⟩
  · exact Or.inr ⟨row, hs⟩

theorem Uttered.saidAt {s : CivicStmt} {n : NodeKey} (h : Uttered T E R F s) (hs : s.AtNode n)
    (hn : n.1.descriptive = false) : SaidAt T E R F s n := by
  cases h with
  | describes hdesc =>
    obtain rfl := hs
    exact absurd (hn.symm.trans hdesc) Bool.false_ne_true
  | vote hr =>
    obtain rfl := hs
    exact .vote hr
  | term hr hpt =>
    obtain rfl := hs
    exact .term hr hpt
  | result hr =>
    obtain rfl := hs
    exact .result hr
  | decision hr =>
    obtain rfl := hs
    exact .decision hr
  | aboutBill hrow hv hb =>
    obtain rfl := hs
    exact .aboutBill hrow hv hb
  | _ => exact hs.elim

theorem Uttered.joined {s : CivicStmt} {k : RelKey} (h : Uttered T E R F s) (hk : s.Joins k) :
    Joined E R F k := by
  cases h with
  | describes => exact hk.elim
  | vote => exact hk.elim
  | term => exact hk.elim
  | result => exact hk.elim
  | decision => exact hk.elim
  | memberOf =>
    obtain ⟨-, rfl⟩ := hk
    exact .memberOf
  | attended =>
    obtain ⟨-, rfl⟩ := hk
    exact .attended
  | castVote hr hcv =>
    obtain ⟨-, rfl⟩ := hk
    exact .castVote hr hcv
  | hasTerm hr hpt =>
    obtain ⟨-, rfl⟩ := hk
    exact .hasTerm hr hpt
  | aboutOffice hr hpt =>
    obtain ⟨-, rfl⟩ := hk
    exact .aboutOffice hr hpt
  | held =>
    obtain ⟨-, rfl⟩ := hk
    exact .heldOffice
  | holds =>
    obtain ⟨-, rfl⟩ := hk
    exact .heldOffice
  | member =>
    obtain ⟨-, rfl⟩ := hk
    exact .memberOfCommittee
  | listed =>
    obtain ⟨-, rfl⟩ := hk
    exact .memberOfCommittee
  | sponsorship hr =>
    obtain ⟨-, rfl⟩ := hk
    exact .sponsorship hr
  | sponsor hr hp =>
    obtain ⟨-, rfl⟩ := hk
    exact .sponsor hr hp
  | forParty hr =>
    obtain ⟨-, rfl⟩ := hk
    exact .forParty hr
  | aboutBill hrow hv hb =>
    obtain rfl := hk
    exact .aboutBill hrow hv hb

end CivicProof
