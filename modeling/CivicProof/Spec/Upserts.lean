import CivicProof.PropGraph.Graph
import CivicProof.Spec.Retrieval

/-!
# The upsert templates

Every Cypher template of `infra/neo4j/upserts` that an ingestion adapter or the vote
enrichment script runs, as a statement on a property graph. A template whose `datetime(..)`
raises on a parameter is refused and changes nothing.

* `keep_regular` and its siblings: which items treat a created entity as a matched one.
-/

namespace CivicProof

open PropGraph

/-! ## The schema -/

/-- The node labels of the ingested graph. -/
inductive Label where
  | person
  | party
  | office
  | committee
  | bill
  | voteEvent
  | attendanceEvent
  | membershipTerm
  | positionTerm
  | electionResult
  | governmentDecision
  deriving DecidableEq, Repr

/-- The relationship types of the ingested graph, and those its retrieval templates name. -/
inductive RelType where
  | memberOf
  | memberOfCommittee
  | heldOffice
  | hasPositionTerm
  | aboutOffice
  | forParty
  | sponsored
  | castVote
  | attended
  | aboutBill
  | aboutPerson
  | hasSpan
  deriving DecidableEq, Repr

/-- The properties of nodes and relationships, keys and timestamps apart. -/
inductive Field where
  | canonicalName
  | hebrewName
  | englishName
  | externalIds
  | sourceTier
  | abbreviation
  | officeType
  | scope
  | title
  | knessetNumber
  | status
  | billId
  | occurredAt
  | voteType
  | committeeId
  | personId
  | orgId
  | orgType
  | validFrom
  | validTo
  | officeId
  | appointingBody
  | isActing
  | sourceDocumentId
  | electionDate
  | listName
  | ballotLetters
  | listPartyId
  | votes
  | seatsWon
  | voteShare
  | passedThreshold
  | decisionNumber
  | governmentNumber
  | decisionDate
  | summary
  | issuingBody
  | value
  | presence
  deriving DecidableEq, Repr

/-- A stored value. -/
inductive Datum where
  | text (s : String)
  | int (n : ℤ)
  | flag (b : Bool)
  | real (q : ℚ)
  | instant (t : ℤ)
  deriving DecidableEq

/-- The empty text, which some names default to. -/
def Datum.blank : Datum := .text ""

/-- A node: its label and its business key. -/
abbrev NodeKey := Label × String

/-- A relationship: its type and its endpoints. -/
abbrev RelKey := RelType × NodeKey × NodeKey

/-- The ingested graph. -/
abbrev CivicGraph := Graph Label RelType String Field Datum

/-- A statement on the ingested graph. -/
abbrev CivicStmt := PropGraph.Stmt Label RelType String Field Datum

/-- An item of a `MERGE` on the ingested graph. -/
abbrev CivicItem := SetItem Field Datum

/-! ## Items -/

namespace Cypher

/-- `p.f = $x`, then `p.f = coalesce($x, p.f)`. -/
def keep (f : Field) (x : Option Datum) : CivicItem := ⟨f, x, .keep x⟩

/-- `p.f = coalesce($x, '')`, then `p.f = coalesce($x, p.f, '')`. -/
def keepOrBlank (f : Field) (x : Option Datum) : CivicItem :=
  ⟨f, some (x.getD .blank), .keepOr x .blank⟩

/-- `p.f = coalesce($x, $y, '')`, then `p.f = coalesce($x, p.f, '')`. -/
def keepOrElse (f : Field) (x y : Option Datum) : CivicItem :=
  ⟨f, some ((x.or y).getD .blank), .keepOr x .blank⟩

/-- `r.f = x` on create and on match. -/
def overwrite (f : Field) (x : Option Datum) : CivicItem := ⟨f, x, .assign x⟩

/-- A text parameter. -/
def text (s : Option String) : Option Datum := s.map .text

/-- An integer parameter. -/
def int (n : Option ℤ) : Option Datum := n.map .int

section Templates

variable (T : CypherTime)

/-- `CASE WHEN $d IS NULL THEN null ELSE datetime($d) END`; `none` where it raises. -/
def moment : Option String → Option (Option Datum)
  | none => some none
  | some s => (T.datetime s).map fun t => some (.instant t)

@[simp] theorem moment_some (s : String) :
    moment T (some s) = (T.datetime s).map fun t => some (.instant t) := rfl

/-! ## Node templates -/

/-- `person_upsert.cypher`. -/
def personUpsert (personId : String) (canonicalName hebrewName englishName externalIds : Option String)
    (sourceTier : Option ℤ) : CivicStmt :=
  .mergeNode (.person, personId) <| some
    [keep .canonicalName (text canonicalName), keep .hebrewName (text hebrewName),
      keepOrBlank .englishName (text englishName), keep .externalIds (text externalIds),
      keep .sourceTier (int sourceTier)]

/-- `party_upsert.cypher`. -/
def partyUpsert (partyId : String) (canonicalName hebrewName englishName abbreviation : Option String) :
    CivicStmt :=
  .mergeNode (.party, partyId) <| some
    [keep .canonicalName (text canonicalName), keep .hebrewName (text hebrewName),
      keepOrBlank .englishName (text englishName), keep .abbreviation (text abbreviation)]

/-- `committee_upsert.cypher`. -/
def committeeUpsert (committeeId : String) (canonicalName hebrewName englishName : Option String) :
    CivicStmt :=
  .mergeNode (.committee, committeeId) <| some
    [keep .canonicalName (text canonicalName), keep .hebrewName (text hebrewName),
      keepOrBlank .englishName (text englishName)]

/-- `office_upsert.cypher`. -/
def officeUpsert (officeId : String)
    (canonicalName hebrewName englishName officeType scope : Option String) : CivicStmt :=
  .mergeNode (.office, officeId) <| some
    [keep .canonicalName (text canonicalName),
      keepOrElse .hebrewName (text hebrewName) (text canonicalName),
      keepOrBlank .englishName (text englishName), keep .officeType (text officeType),
      keep .scope (text scope)]

/-- `bill_upsert.cypher`. -/
def billUpsert (billId : String) (title hebrewName englishName : Option String)
    (knessetNumber : Option ℤ) (status : Option String) : CivicStmt :=
  .mergeNode (.bill, billId) <| some
    [keep .title (text title), keepOrElse .hebrewName (text hebrewName) (text title),
      keepOrBlank .englishName (text englishName), keep .knessetNumber (int knessetNumber),
      keep .status (text status)]

/-- `vote_event_upsert.cypher`. -/
def voteEventUpsert (voteEventId : String) (billId occurredAt voteType : Option String) : CivicStmt :=
  .mergeNode (.voteEvent, voteEventId) do
    let occurred ← moment T occurredAt
    return [keep .billId (text billId), keep .occurredAt occurred, keep .voteType (text voteType)]

/-- `attendance_event_upsert.cypher`. -/
def attendanceEventUpsert (attendanceEventId : String) (committeeId occurredAt : Option String) :
    CivicStmt :=
  .mergeNode (.attendanceEvent, attendanceEventId) do
    let occurred ← moment T occurredAt
    return [keep .committeeId (text committeeId), keep .occurredAt occurred]

/-- `membership_term_upsert.cypher`. -/
def membershipTermUpsert (membershipTermId : String)
    (personId orgId orgType validFrom validTo : Option String) : CivicStmt :=
  .mergeNode (.membershipTerm, membershipTermId) do
    let start ← moment T validFrom
    let stop ← moment T validTo
    return [keep .personId (text personId), keep .orgId (text orgId), keep .orgType (text orgType),
      keep .validFrom start, keep .validTo stop]

/-- `position_term_upsert.cypher`. -/
def positionTermUpsert (positionTermId : String)
    (personId officeId appointingBody validFrom validTo : Option String) (isActing : Option Bool)
    (sourceDocumentId : Option String) : CivicStmt :=
  .mergeNode (.positionTerm, positionTermId) do
    let start ← moment T validFrom
    let stop ← moment T validTo
    return [keep .personId (text personId), keep .officeId (text officeId),
      keep .appointingBody (text appointingBody), keep .validFrom start, keep .validTo stop,
      keep .isActing (isActing.map .flag), keep .sourceDocumentId (text sourceDocumentId)]

/-- `election_result_upsert.cypher`. -/
def electionResultUpsert (electionResultId : String) (electionDate : Option String)
    (knessetNumber : Option ℤ) (listName ballotLetters listPartyId : Option String)
    (votes seatsWon : Option ℤ) (voteShare : Option ℚ) (passedThreshold : Option Bool)
    (sourceDocumentId : Option String) : CivicStmt :=
  .mergeNode (.electionResult, electionResultId) do
    let date ← moment T electionDate
    return [keep .electionDate date, keep .knessetNumber (int knessetNumber),
      keep .listName (text listName), keep .ballotLetters (text ballotLetters),
      keep .listPartyId (text listPartyId), keep .votes (int votes), keep .seatsWon (int seatsWon),
      keep .voteShare (voteShare.map .real), keep .passedThreshold (passedThreshold.map .flag),
      keep .sourceDocumentId (text sourceDocumentId)]

/-- `government_decision_upsert.cypher`. -/
def governmentDecisionUpsert (governmentDecisionId : String) (decisionNumber : Option String)
    (governmentNumber : Option ℤ) (decisionDate title summary issuingBody : Option String)
    (sourceDocumentId : Option String) : CivicStmt :=
  .mergeNode (.governmentDecision, governmentDecisionId) do
    let date ← moment T decisionDate
    return [keep .decisionNumber (text decisionNumber), keep .governmentNumber (int governmentNumber),
      keep .decisionDate date, keep .title (text title), keep .summary (text summary),
      keep .issuingBody (text issuingBody), keep .sourceDocumentId (text sourceDocumentId)]

/-! ## Relationship templates -/

/-- A relationship with a validity interval. Its start is required and always overwritten; its
end is kept when none is given. -/
def spanMerge (t : RelType) (a b : NodeKey) (validFrom validTo : Option String) : CivicStmt :=
  .mergeRel t a b validFrom.isSome do
    let start ← moment T validFrom
    let stop ← moment T validTo
    return [overwrite .validFrom start, keep .validTo stop]

/-- `member_of.cypher`. -/
def memberOf (personId partyId : String) (validFrom validTo : Option String) : CivicStmt :=
  spanMerge T .memberOf (.person, personId) (.party, partyId) validFrom validTo

/-- `member_of_committee.cypher`. -/
def memberOfCommittee (personId committeeId : String) (validFrom validTo : Option String) :
    CivicStmt :=
  spanMerge T .memberOfCommittee (.person, personId) (.committee, committeeId) validFrom validTo

/-- `held_office.cypher`. -/
def heldOffice (personId officeId : String) (validFrom validTo : Option String) : CivicStmt :=
  spanMerge T .heldOffice (.person, personId) (.office, officeId) validFrom validTo

/-- `has_position_term.cypher`. -/
def hasPositionTerm (personId positionTermId : String) : CivicStmt :=
  .mergeRel .hasPositionTerm (.person, personId) (.positionTerm, positionTermId) true (some [])

/-- `about_office.cypher`. -/
def aboutOffice (positionTermId officeId : String) : CivicStmt :=
  .mergeRel .aboutOffice (.positionTerm, positionTermId) (.office, officeId) true (some [])

/-- `for_party.cypher`. -/
def forParty (electionResultId partyId : String) : CivicStmt :=
  .mergeRel .forParty (.electionResult, electionResultId) (.party, partyId) true (some [])

/-- `sponsored.cypher`. -/
def sponsored (personId billId : String) : CivicStmt :=
  .mergeRel .sponsored (.person, personId) (.bill, billId) true (some [])

/-- A relationship with one required property out of a list. -/
def choiceMerge (t : RelType) (a b : NodeKey) (f : Field) (choices : List String)
    (x : Option String) : CivicStmt :=
  .mergeRel t a b (x.any (· ∈ choices)) (some [overwrite f (text x)])

/-- `cast_vote.cypher`. -/
def castVote (personId voteEventId : String) (value : Option String) : CivicStmt :=
  choiceMerge .castVote (.person, personId) (.voteEvent, voteEventId) .value
    ["for", "against", "abstain"] value

/-- `attended.cypher`. -/
def attended (personId attendanceEventId : String) (presence : Option String) : CivicStmt :=
  choiceMerge .attended (.person, personId) (.attendanceEvent, attendanceEventId) .presence
    ["present", "absent", "partial"] presence

/-- `vote_event_about_bill.cypher`. -/
def voteEventAboutBill (voteEventId billId : String) (occurredAt voteType : Option String) :
    CivicStmt :=
  .setAndLink (.voteEvent, voteEventId)
    (do
      let occurred ← moment T occurredAt
      return [overwrite .billId (text (some billId)), keep .occurredAt occurred,
        keep .voteType (text voteType)])
    .aboutBill (.bill, billId)

end Templates

end Cypher

/-! ## What the templates have in common -/

open Cypher

/-- An item that treats a created entity as a matched one without properties, and defaults to
the empty text only. -/
def CivicItem.Regular (i : CivicItem) : Prop := i.Uniform ∧ i.onMatch.Regular .blank

theorem keep_regular (f : Field) (x : Option Datum) : CivicItem.Regular (keep f x) :=
  ⟨by cases x <;> rfl, trivial⟩

theorem keepOrBlank_regular (f : Field) (x : Option Datum) :
    CivicItem.Regular (keepOrBlank f x) :=
  ⟨by cases x <;> rfl, rfl⟩

/-- A fallback that is the parameter itself makes no difference. -/
theorem keepOrElse_regular (f : Field) (x : Option Datum) : CivicItem.Regular (keepOrElse f x x) :=
  ⟨by cases x <;> rfl, rfl⟩

theorem overwrite_regular {f : Field} {x : Option Datum} (h : x ≠ none) :
    CivicItem.Regular (overwrite f x) :=
  ⟨rfl, h⟩

end CivicProof
