import CivicProof.PropGraph.Rows
import CivicProof.Spec.Adapters
import Mathlib.Data.Finset.Prod

/-!
# The retrieval templates on the ingested graph

The Cypher templates of `infra/neo4j/retrieval` that read what the adapters write, and the
query of `resolve_position_terms`. The time bounds are the instants that `datetime(..)` makes
of `$time_start` and `$time_end`; which answers a template may give is a relation, since
`ORDER BY` leaves ties open.
-/

namespace CivicProof

open PropGraph

/-! ## Properties -/

/-- The instant that is stored, if it is one. -/
def Datum.instant? : Datum → Option ℤ
  | .instant t => some t
  | _ => none

/-- The integer that is stored, if it is one. -/
def Datum.int? : Datum → Option ℤ
  | .int n => some n
  | _ => none

/-- A text, an integer or a flag, as a record carries it. -/
def Datum.value : Datum → Value
  | .text s => .str s
  | .int n => .int n
  | .flag b => .bool b
  -- instants are returned through `toString`, shares are not compared
  | .instant _ | .real _ => .null

/-- A property in a record. -/
def returned (x : Option Datum) : Value := (x.map Datum.value).getD .null

/-- `toString` of a time property. -/
def shown (T : CypherTime) (x : Option Datum) : Option String := (x.bind Datum.instant?).map T.text

/-- `x >= datetime($t)`; a null `x` does not satisfy it. -/
def notBefore (t : ℤ) (x : Option Datum) : Bool := (x.bind Datum.instant?).any (t ≤ ·)

/-- `x <= datetime($t)`. -/
def notAfter (t : ℤ) (x : Option Datum) : Bool := (x.bind Datum.instant?).any (· ≤ t)

/-- The `WHERE` clause of an interval: a null end reaches every bound. -/
def overlapsScope (lo hi : Option ℤ) (validFrom validTo : Option Datum) : Bool :=
  (lo.all fun t => validTo.isNone || notBefore t validTo) && hi.all fun t => notAfter t validFrom

/-- The `WHERE` clause of a date. -/
def datedWithin (lo hi : Option ℤ) (x : Option Datum) : Bool :=
  (lo.all fun t => notBefore t x) && hi.all fun t => notAfter t x

section Templates

variable (T : CypherTime) (g : CivicGraph)

/-! ## Committee membership -/

/-- The rows of `committee_membership.cypher`; its `LIMIT 10` drops none of them. -/
def committeeMembershipRows (speakerPersonId committeeId : String) (lo hi : Option ℤ) :
    List Record :=
  let r : RelKey := (.memberOfCommittee, (.person, speakerPersonId), (.committee, committeeId))
  if r ∈ g.rels ∧ overlapsScope lo hi (g.relProp r .validFrom) (g.relProp r .validTo) then
    [{ nodeIds := some (Dict.ofList
         [("speaker_person_id", .str speakerPersonId), ("committee_id", .str committeeId)])
       properties := some (Dict.ofList
         [("canonical_name", returned (g.nodeProp (.committee, committeeId) .canonicalName)),
           ("valid_from", .ofText (shown T (g.relProp r .validFrom))),
           ("valid_to", .ofText (shown T (g.relProp r .validTo)))])
       sourceDocumentIds := some []
       sourceTier := some 1 }]
  else []

/-! ## Office terms -/

/-- `(person)-[:HAS_POSITION_TERM]->(term)-[:ABOUT_OFFICE]->(office)`. -/
def TermPath (personId officeId : String) (term : NodeKey) : Prop :=
  term.1 = .positionTerm ∧ (.hasPositionTerm, (.person, personId), term) ∈ g.rels ∧
    (.aboutOffice, term, (.office, officeId)) ∈ g.rels

instance (personId officeId : String) : DecidablePred (TermPath g personId officeId) :=
  fun _ => inferInstanceAs (Decidable (_ ∧ _))

/-- The `PositionTerm` branch of `office_held.cypher`. -/
def heldTerms (speakerPersonId officeId : String) (lo hi : Option ℤ) : Finset NodeKey :=
  g.nodes.keys.filter fun pt => TermPath g speakerPersonId officeId pt ∧
    overlapsScope lo hi (g.nodeProp pt .validFrom) (g.nodeProp pt .validTo)

/-- The row of a term. -/
def heldTermRecord (speakerPersonId officeId : String) (pt : NodeKey) : Record where
  nodeIds := some (Dict.ofList
    [("speaker_person_id", .str speakerPersonId), ("office_id", .str officeId),
      ("position_term_id", .str pt.2)])
  properties := some (Dict.ofList
    [("canonical_name", returned (g.nodeProp (.office, officeId) .canonicalName)),
      ("office_type", returned (g.nodeProp (.office, officeId) .officeType)),
      ("appointing_body", returned (g.nodeProp pt .appointingBody)),
      ("valid_from", .ofText (shown T (g.nodeProp pt .validFrom))),
      ("valid_to", .ofText (shown T (g.nodeProp pt .validTo))),
      ("is_acting", returned (g.nodeProp pt .isActing))])
  sourceDocumentIds := some (((g.nodeProp pt .sourceDocumentId).map Datum.value).toList)
  sourceTier := some 1

/-- The legacy branch: a `HELD_OFFICE` edge, for want of a term. -/
def legacyHeldRows (speakerPersonId officeId : String) (lo hi : Option ℤ) : List Record :=
  let r : RelKey := (.heldOffice, (.person, speakerPersonId), (.office, officeId))
  if r ∈ g.rels ∧ overlapsScope lo hi (g.relProp r .validFrom) (g.relProp r .validTo) ∧
      ∀ pt ∈ g.nodes.keys, ¬TermPath g speakerPersonId officeId pt then
    [{ nodeIds := some (Dict.ofList
         [("speaker_person_id", .str speakerPersonId), ("office_id", .str officeId)])
       properties := some (Dict.ofList
         [("canonical_name", returned (g.nodeProp (.office, officeId) .canonicalName)),
           ("office_type", returned (g.nodeProp (.office, officeId) .officeType)),
           ("valid_from", .ofText (shown T (g.relProp r .validFrom))),
           ("valid_to", .ofText (shown T (g.relProp r .validTo)))])
       sourceDocumentIds := some []
       sourceTier := some 1 }]
  else []

/-- `office_held.cypher`. The limit belongs to the second branch. -/
def OfficeHeldAnswer (speakerPersonId officeId : String) (lo hi : Option ℤ) (out : List Record) :
    Prop :=
  ∃ terms legacy,
    Ordered unordered ((heldTerms g speakerPersonId officeId lo hi).val.map
      (heldTermRecord T g speakerPersonId officeId)) terms ∧
    PropGraph.Answer unordered 10 (legacyHeldRows T g speakerPersonId officeId lo hi) legacy ∧
    IsUnion terms legacy out

/-- `PositionTermMatch`. -/
structure PositionTermMatch where
  positionTermId : String
  personId : String
  officeId : String
  appointingBody : Value
  validFrom : Option String
  validTo : Option String
  isActing : Bool

/-- The terms that `resolve_position_terms` finds, each with its office. -/
def resolvedTerms (personId : String) (officeId : Option String) (asOfDate : Option ℤ) :
    Finset (NodeKey × NodeKey) :=
  (g.nodes.keys ×ˢ g.nodes.keys).filter fun e =>
    e.2.1 = .office ∧ TermPath g personId e.2.2 e.1 ∧ (officeId.all (e.2.2 = ·)) ∧
      asOfDate.all fun d => notAfter d (g.nodeProp e.1 .validFrom) &&
        ((g.nodeProp e.1 .validTo).isNone || notBefore d (g.nodeProp e.1 .validTo))

/-- A row of `resolve_position_terms`. -/
def resolvedTermMatch (e : NodeKey × NodeKey) : PositionTermMatch where
  positionTermId := e.1.2
  personId := (returned (g.nodeProp e.1 .personId)).pyStr
  officeId := e.2.2
  appointingBody := returned (g.nodeProp e.1 .appointingBody)
  validFrom := shown T (g.nodeProp e.1 .validFrom)
  validTo := shown T (g.nodeProp e.1 .validTo)
  isActing := (returned (g.nodeProp e.1 .isActing)).truthy

/-- A time property as a sort key. -/
def instantKey (x : Option Datum) : WithTop ℤ := x.bind Datum.instant?

/-- `resolve_position_terms`. -/
def ResolvedTermsAnswer (personId : String) (officeId : Option String) (asOfDate : Option ℤ)
    (out : List PositionTermMatch) : Prop :=
  ∃ l, Ordered (ascending fun e : NodeKey × NodeKey => instantKey (g.nodeProp e.1 .validFrom))
      (resolvedTerms g personId officeId asOfDate).val l ∧
    out = l.map (resolvedTermMatch T g)

/-! ## Votes -/

/-- The vote events of `vote_cast.cypher`. -/
def votesCast (speakerPersonId billId : String) (lo hi : Option ℤ) : Finset NodeKey :=
  g.nodes.keys.filter fun v => v.1 = .voteEvent ∧
    (.castVote, (.person, speakerPersonId), v) ∈ g.rels ∧ (.aboutBill, v, (.bill, billId)) ∈ g.rels ∧
      datedWithin lo hi (g.nodeProp v .occurredAt)

/-- The row of a vote event. No span of a document hangs on it: there are none in the graph. -/
def voteCastRecord (speakerPersonId billId : String) (v : NodeKey) : Record where
  nodeIds := some (Dict.ofList
    [("speaker_person_id", .str speakerPersonId), ("vote_event_id", .str v.2),
      ("bill_id", .str billId)])
  properties := some (Dict.ofList
    [("vote_value", returned (g.relProp (.castVote, (.person, speakerPersonId), v) .value)),
      ("occurred_at", .ofText (shown T (g.nodeProp v .occurredAt))),
      ("bill_title", returned (g.nodeProp (.bill, billId) .title))])
  sourceDocumentIds := some []
  sourceTier := some 1

/-- `vote_cast.cypher`. -/
def VoteCastAnswer (speakerPersonId billId : String) (lo hi : Option ℤ) (out : List Record) :
    Prop :=
  ∃ l, PropGraph.Answer (descending fun v => instantKey (g.nodeProp v .occurredAt)) 10
      (votesCast g speakerPersonId billId lo hi).val l ∧
    out = l.map (voteCastRecord T g speakerPersonId billId)

/-! ## Attendance -/

/-- The relationships that `committee_attendance.cypher` asks an attended event to have. -/
def attendanceLinks : List RelType := [.aboutPerson, .memberOfCommittee, .hasSpan]

/-- The rows of `committee_attendance.cypher`: one for each such relationship. -/
def attendedEvents (speakerPersonId committeeId : String) (lo hi : Option ℤ) : Finset RelKey :=
  g.rels.keys.filter fun r => r.1 ∈ attendanceLinks ∧ r.2.1.1 = .attendanceEvent ∧
    (.attended, (.person, speakerPersonId), r.2.1) ∈ g.rels ∧
      (Label.committee, committeeId) ∈ g.nodes ∧
        g.nodeProp r.2.1 .committeeId = some (.text committeeId) ∧
          datedWithin lo hi (g.nodeProp r.2.1 .occurredAt)

/-- The row of an attended event. -/
def attendanceRecord (speakerPersonId committeeId : String) (a : NodeKey) : Record where
  nodeIds := some (Dict.ofList
    [("speaker_person_id", .str speakerPersonId), ("committee_id", .str committeeId),
      ("attendance_event_id", .str a.2)])
  properties := some (Dict.ofList
    [("presence", returned (g.relProp (.attended, (.person, speakerPersonId), a) .presence)),
      ("occurred_at", .ofText (shown T (g.nodeProp a .occurredAt)))])
  sourceDocumentIds := some []
  sourceTier := some 1

/-- `committee_attendance.cypher`. -/
def CommitteeAttendanceAnswer (speakerPersonId committeeId : String) (lo hi : Option ℤ)
    (out : List Record) : Prop :=
  ∃ l, PropGraph.Answer (descending fun r : RelKey => instantKey (g.nodeProp r.2.1 .occurredAt)) 20
      (attendedEvents g speakerPersonId committeeId lo hi).val l ∧
    out = l.map fun r => attendanceRecord T g speakerPersonId committeeId r.2.1

/-! ## Election results -/

/-- The results of `election_result.cypher`. -/
def electionResults (partyId : String) (lo hi : Option ℤ) : Finset NodeKey :=
  g.nodes.keys.filter fun e => e.1 = .electionResult ∧ (.forParty, e, (.party, partyId)) ∈ g.rels ∧
    datedWithin lo hi (g.nodeProp e .electionDate)

/-- The row of a result. -/
def electionResultRecord (partyId : String) (e : NodeKey) : Record where
  nodeIds := some (Dict.ofList [("party_id", .str partyId), ("election_result_id", .str e.2)])
  properties := some (Dict.ofList
    [("list_name", returned (g.nodeProp e .listName)),
      ("ballot_letters", returned (g.nodeProp e .ballotLetters)),
      ("knesset_number", returned (g.nodeProp e .knessetNumber)),
      ("election_date", .ofText (shown T (g.nodeProp e .electionDate))),
      ("votes", returned (g.nodeProp e .votes)), ("seats_won", returned (g.nodeProp e .seatsWon)),
      ("passed_threshold", returned (g.nodeProp e .passedThreshold))])
  sourceDocumentIds := some (((g.nodeProp e .sourceDocumentId).map Datum.value).toList)
  sourceTier := some 1

/-- A number as a sort key. -/
def numberKey (x : Option Datum) : WithTop ℤ := x.bind Datum.int?

/-- `election_result.cypher`. -/
def ElectionResultAnswer (partyId : String) (lo hi : Option ℤ) (out : List Record) : Prop :=
  ∃ l, PropGraph.Answer (descending fun e => numberKey (g.nodeProp e .knessetNumber)) 10
      (electionResults g partyId lo hi).val l ∧
    out = l.map (electionResultRecord T g partyId)

/-! ## Sponsorship -/

/-- The rows of `bill_sponsorship.cypher`; its `LIMIT 10` drops none of them. -/
def billSponsorshipRows (speakerPersonId billId : String) : List Record :=
  let r : RelKey := (.sponsored, (.person, speakerPersonId), (.bill, billId))
  if r ∈ g.rels then
    [{ nodeIds := some (Dict.ofList
         [("speaker_person_id", .str speakerPersonId), ("bill_id", .str billId)])
       properties := some (Dict.ofList
         [("bill_title", returned (g.nodeProp (.bill, billId) .title)),
           ("sponsored_at", .ofText ((g.rels.lookup r).map fun e => T.text e.createdAt)),
           ("knesset_number", returned (g.nodeProp (.bill, billId) .knessetNumber))])
       sourceDocumentIds := some []
       sourceTier := some 1 }]
  else []

/-! ## Statements -/

/-- The rows of `statement_about_formal_action.cypher`. No span is about a person: there are none in
the graph. -/
def statementRows (speakerPersonId : String) : List Record :=
  if (Label.person, speakerPersonId) ∈ g.nodes then
    [{ nodeIds := some (Dict.ofList [("speaker_person_id", .str speakerPersonId)])
       properties := some (Dict.ofList
         [("canonical_name", returned (g.nodeProp (.person, speakerPersonId) .canonicalName)),
           ("hebrew_name", returned (g.nodeProp (.person, speakerPersonId) .hebrewName)),
           ("mention_count", .int 0)])
       sourceDocumentIds := some []
       sourceTier := some 2 }]
  else []

/-! ## Government decisions -/

/-- The text that is stored, if it is one. -/
def Datum.text? : Datum → Option String
  | .text s => some s
  | _ => none

/-- A decision node with its properties. -/
def decisionNode (n : NodeKey) : GovernmentDecision where
  governmentDecisionId := n.2
  decisionNumber := (g.nodeProp n .decisionNumber).bind Datum.text?
  governmentNumber := (g.nodeProp n .governmentNumber).bind Datum.int?
  decisionDate := (g.nodeProp n .decisionDate).bind Datum.instant?
  title := (g.nodeProp n .title).bind Datum.text?
  summary := (g.nodeProp n .summary).bind Datum.text?
  issuingBody := (g.nodeProp n .issuingBody).bind Datum.text?
  sourceDocumentId := (g.nodeProp n .sourceDocumentId).bind Datum.text?

/-- The decisions of `government_decision.cypher`. -/
def decisionsFound (params : Params) (lo hi : Option ℤ) : Finset NodeKey :=
  g.nodes.keys.filter fun n => n.1 = .governmentDecision ∧
    decisionMatches params (decisionNode g n) ∧ dateWithin lo hi (decisionNode g n)

/-- `government_decision.cypher`. -/
def GovernmentDecisionAnswer (params : Params) (lo hi : Option ℤ) (out : List Record) : Prop :=
  ∃ l, PropGraph.Answer (descending fun n => instantKey (g.nodeProp n .decisionDate)) 5
      (decisionsFound g params lo hi).val l ∧
    out = l.map fun n => (decisionNode g n).record T

/-! ## All templates -/

/-- The records that the template of a claim type can return, for some parameters. -/
inductive TemplateRecord : ClaimType → Record → Prop
  | voteCast {speaker bill : String} {lo hi : Option ℤ} {out : List Record} {r : Record} :
      VoteCastAnswer T g speaker bill lo hi out → r ∈ out → TemplateRecord .voteCast r
  | billSponsorship {speaker bill : String} {r : Record} :
      r ∈ billSponsorshipRows T g speaker bill → TemplateRecord .billSponsorship r
  | officeHeld {speaker office : String} {lo hi : Option ℤ} {out : List Record} {r : Record} :
      OfficeHeldAnswer T g speaker office lo hi out → r ∈ out → TemplateRecord .officeHeld r
  | committeeMembership {speaker committee : String} {lo hi : Option ℤ} {r : Record} :
      r ∈ committeeMembershipRows T g speaker committee lo hi →
        TemplateRecord .committeeMembership r
  | committeeAttendance {speaker committee : String} {lo hi : Option ℤ} {out : List Record}
      {r : Record} : CommitteeAttendanceAnswer T g speaker committee lo hi out → r ∈ out →
        TemplateRecord .committeeAttendance r
  | electionResult {party : String} {lo hi : Option ℤ} {out : List Record} {r : Record} :
      ElectionResultAnswer T g party lo hi out → r ∈ out → TemplateRecord .electionResult r
  | statementAboutFormalAction {speaker : String} {r : Record} :
      r ∈ statementRows g speaker → TemplateRecord .statementAboutFormalAction r
  | governmentDecision {params : Params} {lo hi : Option ℤ} {out : List Record} {r : Record} :
      GovernmentDecisionAnswer T g params lo hi out → r ∈ out → TemplateRecord .governmentDecision r

end Templates

end CivicProof
