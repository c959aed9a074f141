import CivicProof.Spec.Resolve

/-!
# The normalizers of the ingestion adapters

From a parsed row of a feed to the record its adapter upserts. Ids are `uuid5` of a kind and
the id of the row in its feed, so that a record met again, or met by another adapter, has the
same id.
-/

namespace CivicProof

open Regex Re

/-- What the normalizers call: the Unicode database, `uuid5` in the shared namespace (as
text), the MK lookup, and the floating-point arithmetic of election pages. -/
structure IngestEnv where
  unicode : Unicode
  uuid5 : String → String
  /-- `MkIndividualLookup.get`. -/
  lookup : String → Option String
  /-- `_parse_vote_share`. -/
  voteShare : String → ℚ
  /-- `math.ceil(total_valid_votes * THRESHOLD_RULE)`. -/
  thresholdVotes : ℤ → ℤ

/-- `_ext_uuid`. -/
def extUuid (E : IngestEnv) (kind extId : String) : String := E.uuid5 (kind ++ ":" ++ extId)

variable (E : IngestEnv)

/-! ## People -/

/-- A row of `KNS_Person`, as `parse_persons` yields it. -/
structure PersonRow where
  personIdExternal : String
  firstNameHe : Option String := none
  lastNameHe : Option String := none

/-- `NormalizedParty`. -/
structure NormalizedParty where
  partyId : String
  canonicalName : String
  hebrewName : Option String

/-- `NormalizedOffice`. -/
structure NormalizedOffice where
  officeId : String
  canonicalName : String
  officeType : String
  scope : String := "national"

/-- `NormalizedPerson`. -/
structure NormalizedPerson where
  personId : String
  canonicalName : String
  hebrewName : Option String
  externalIds : List (String × String)
  party : Option NormalizedParty := none
  office : Option NormalizedOffice := none

/-- `_hebrew_name`. -/
def personHebrewName (row : PersonRow) : Option String :=
  let first := normalizeHebrew E.unicode (row.firstNameHe.getD "")
  let last := normalizeHebrew E.unicode (row.lastNameHe.getD "")
  let pieces := [first, last].filter (· ≠ "")
  if pieces = [] then none else some (joinWith " " pieces)

/-- `normalize_person`. -/
def normalizePerson (row : PersonRow) : List NormalizedPerson :=
  let hebrew := personHebrewName E row
  [{ personId := extUuid E "knesset_person" row.personIdExternal
     canonicalName := (orNone hebrew).getD ("person:" ++ row.personIdExternal)
     hebrewName := hebrew
     externalIds := [("knesset_person_id", row.personIdExternal)] }]

/-! ## Positions -/

/-- A row of `KNS_PersonToPosition`, as `parse_positions` yields it. -/
structure PositionRow where
  personToPositionIdExternal : String
  personIdExternal : String
  positionId : Option ℤ := none
  factionIdExternal : Option String := none
  factionName : Option String := none
  govMinistryId : Option String := none
  govMinistryName : Option String := none
  dutyDesc : Option String := none
  startDate : Option String := none
  finishDate : Option String := none
  deriving DecidableEq

/-- `NormalizedPartyMembership`. -/
structure NormalizedPartyMembership where
  partyId : String
  partyName : String
  validFrom : String
  validTo : Option String

/-- `NormalizedOfficeHeld`. -/
structure NormalizedOfficeHeld where
  officeId : String
  canonicalName : Option String
  officeType : String
  scope : String
  validFrom : String
  validTo : Option String

/-- `NormalizedPositionTerm`. -/
structure NormalizedPositionTerm where
  positionTermId : String
  personId : String
  officeId : String
  appointingBody : Option String
  validFrom : String
  validTo : Option String
  isActing : Bool

/-- `NormalizedPositionBundle`. -/
structure NormalizedPositionBundle where
  personId : String
  personToPositionIdExternal : String
  party : Option NormalizedPartyMembership := none
  office : Option NormalizedOfficeHeld := none
  positionTerm : Option NormalizedPositionTerm := none

/-- `_POSITION_TYPE`. -/
def positionType : List (ℤ × String) :=
  [(30, "prime_minister"), (39, "committee_chair"), (42, "committee_member"), (43, "mk"),
    (48, "deputy_speaker"), (49, "minister"), (50, "deputy_prime_minister"),
    (51, "deputy_minister"), (54, "mk"), (61, "mk"), (65, "committee_chair"),
    (67, "committee_member")]

/-- `_GOVERNMENT_OFFICE_TYPES`. -/
def governmentOfficeTypes : List String :=
  ["prime_minister", "minister", "deputy_prime_minister", "deputy_minister"]

/-- `_office_type`. -/
def officeType (positionId : Option ℤ) (dutyDesc : Option String) : String :=
  match positionId.bind fun p => positionType.lookup p with
  | some t => t
  | none => ((orNone dutyDesc).map strip).getD "unknown"

/-- `_office_canonical_name`. -/
def officeCanonicalName (positionType : String) (govMinistryName dutyDesc : Option String) :
    Option String :=
  if positionType ∈ governmentOfficeTypes then (orNone govMinistryName).or (orNone dutyDesc)
  else orNone dutyDesc

/-- The party lane of `normalize_position`. -/
def partyLane (row : PositionRow) (start : String) : Option NormalizedPartyMembership :=
  (orNone row.factionIdExternal).map fun faction =>
    { partyId := extUuid E "knesset_party" faction
      partyName := (orNone (some (strip (row.factionName.getD "")))).getD ("party:" ++ faction)
      validFrom := start
      validTo := row.finishDate }

/-- The id of the office of a position: distinct per ministry. -/
def officeIdOf (positionId : ℤ) (govMinistryId : Option String) : String :=
  extUuid E "knesset_office" (toString positionId ++ ":" ++ (orNone govMinistryId).getD "-")

/-- The office lane of `normalize_position`. -/
def officeLane (row : PositionRow) (positionId : ℤ) (start : String) : NormalizedOfficeHeld :=
  let type := officeType (some positionId) row.dutyDesc
  { officeId := officeIdOf E positionId row.govMinistryId
    canonicalName := officeCanonicalName type row.govMinistryName row.dutyDesc
    officeType := type
    scope := "national"
    validFrom := start
    validTo := row.finishDate }

/-- The position term lane of `normalize_position`. -/
def termLane (row : PositionRow) (positionId : ℤ) (start : String) : NormalizedPositionTerm :=
  { positionTermId := extUuid E "knesset_position_term" row.personToPositionIdExternal
    personId := extUuid E "knesset_person" row.personIdExternal
    officeId := officeIdOf E positionId row.govMinistryId
    appointingBody := some <|
      if officeType (some positionId) row.dutyDesc ∈ governmentOfficeTypes then "government"
      else "knesset"
    validFrom := start
    validTo := row.finishDate
    isActing := false }

/-- `normalize_position`. -/
def normalizePosition (row : PositionRow) : List NormalizedPositionBundle :=
  match orNone row.startDate with
  | none => []
  | some start =>
    let party := partyLane E row start
    if party.isNone ∧ row.positionId.isNone then []
    else
      [{ personId := extUuid E "knesset_person" row.personIdExternal
         personToPositionIdExternal := row.personToPositionIdExternal
         party := party
         office := row.positionId.map fun p => officeLane E row p start
         positionTerm := row.positionId.map fun p => termLane E row p start }]

/-! ## Votes -/

/-- A row of the votes table (`vote_rslts_kmmbr_shadow.csv`). -/
structure VoteCsvRow where
  voteId : Option String
  kmmbrId : Option String
  voteResult : Option String

/-- A vote row, as `parse_votes` yields it. -/
structure VoteRow where
  voteIdExternal : String
  personIdExternal : String
  voteResult : ℤ

/-- `parse_votes`, for one row. -/
def parseVote (row : VoteCsvRow) : Option VoteRow := do
  let voteId ← orNone row.voteId
  let kmmbrId ← orNone row.kmmbrId
  let digits := String.ofList (kmmbrId.toList.dropWhile (· == '0'))
  return { voteIdExternal := voteId
           personIdExternal := (orNone (some digits)).getD "0"
           voteResult := ((orNone row.voteResult).bind parseInt).getD 0 }

/-- `_KNS_VOTE_RESULT`. -/
def knsVoteResult : List (ℤ × String) := [(1, "for"), (2, "against"), (3, "abstain")]

/-- `NormalizedCastVote`. -/
structure NormalizedCastVote where
  personId : String
  value : String

/-- `NormalizedVoteEvent`. -/
structure NormalizedVoteEvent where
  voteEventId : String
  billId : Option String
  occurredAt : Option String
  voteType : Option String
  castVotes : List NormalizedCastVote := []

/-- `normalize_vote`. -/
def normalizeVote (row : VoteRow) : List NormalizedVoteEvent :=
  let castVotes := match knsVoteResult.lookup row.voteResult, orNone (some row.personIdExternal) with
    | some value, some person => [⟨extUuid E "knesset_person" person, value⟩]
    | _, _ => []
  -- the feed has neither the bill nor the time of a vote
  [{ voteEventId := extUuid E "knesset_vote" row.voteIdExternal
     billId := none
     occurredAt := none
     voteType := none
     castVotes := castVotes }]

/-! ## Attendance -/

/-- A session row, as `parse_attendance` yields it, its attendees read by
`_parse_attended_ids`. -/
structure AttendanceRow where
  sessionIdExternal : String
  committeeIdExternal : String
  occurredAt : Option String := none
  attendedIds : List String := []

/-- `NormalizedAttendee`. -/
structure NormalizedAttendee where
  personId : String
  presence : String

/-- `NormalizedAttendanceEvent`. -/
structure NormalizedAttendanceEvent where
  attendanceEventId : String
  committeeId : String
  occurredAt : Option String
  attendees : List NormalizedAttendee := []

/-- `normalize_attendance`, with the MK lookup. Presence is always `present`. -/
def normalizeAttendance (row : AttendanceRow) : List NormalizedAttendanceEvent :=
  [{ attendanceEventId := extUuid E "knesset_attendance_event" row.sessionIdExternal
     committeeId := extUuid E "knesset_committee" row.committeeIdExternal
     occurredAt := row.occurredAt
     attendees := (row.attendedIds.filterMap E.lookup).map fun person =>
       ⟨extUuid E "knesset_person" person, "present"⟩ }]

/-! ## Committees and their members -/

/-- A row of `KNS_Committee`, as `parse_committees` yields it. -/
structure CommitteeRow where
  committeeIdExternal : String
  nameHe : Option String := none

/-- `NormalizedMembership`. -/
structure NormalizedMembership where
  membershipTermId : String
  personId : String
  committeeId : String
  validFrom : Option String
  validTo : Option String

/-- `NormalizedCommittee`. -/
structure NormalizedCommittee where
  committeeId : String
  canonicalName : String
  hebrewName : Option String
  memberships : List NormalizedMembership := []

/-- `normalize_committee`. The feed has no members. -/
def normalizeCommittee (row : CommitteeRow) : List NormalizedCommittee :=
  [{ committeeId := extUuid E "knesset_committee" row.committeeIdExternal
     canonicalName := (orNone row.nameHe).getD ("committee:" ++ row.committeeIdExternal)
     hebrewName := row.nameHe
     memberships := [] }]

/-- A row of `mk_individual_committees.csv`, as `parse_committee_memberships` yields it. -/
structure MembershipRow where
  mkIndividualId : String
  committeeIdExternal : String
  committeeName : Option String := none
  startDate : Option String := none
  finishDate : Option String := none

/-- `_as_iso_datetime`: a calendar date becomes its midnight. -/
def asIsoDatetime (dateStr : Option String) : Option String :=
  (orNone (dateStr.map strip)).map fun s =>
    if 'T' ∈ s.toList then s else if s.length = 10 then s ++ "T00:00:00" else s

/-- `NormalizedCommitteeMembership`. -/
structure NormalizedCommitteeMembership where
  personId : String
  committeeId : String
  committeeName : Option String
  validFrom : String
  validTo : Option String

/-- `normalize_committee_membership`. Rows of unknown MKs, or without a start, are dropped. -/
def normalizeCommitteeMembership (row : MembershipRow) : List NormalizedCommitteeMembership :=
  match E.lookup row.mkIndividualId, asIsoDatetime row.startDate with
  | some person, some validFrom =>
    [{ personId := extUuid E "knesset_person" person
       committeeId := extUuid E "knesset_committee" row.committeeIdExternal
       committeeName := row.committeeName
       validFrom := validFrom
       validTo := asIsoDatetime row.finishDate }]
  | _, _ => []

/-! ## Bills -/

/-- A row of `KNS_Bill`, as `parse_bills` yields it. -/
structure BillRow where
  billIdExternal : String
  titleHe : Option String := none
  knessetNumber : Option ℤ := none
  statusId : Option ℤ := none

/-- `NormalizedBill`; its `sponsorships` are the ids of the sponsors. -/
structure NormalizedBill where
  billId : String
  title : String
  knessetNumber : Option ℤ
  status : Option String
  sponsorships : List String := []

/-- `normalize_bill`. The feed has no initiators. -/
def normalizeBill (row : BillRow) : List NormalizedBill :=
  [{ billId := extUuid E "knesset_bill" row.billIdExternal
     title := strip ((orNone row.titleHe).getD ("bill:" ++ row.billIdExternal))
     knessetNumber := row.knessetNumber
     status := row.statusId.map fun s => "status:" ++ toString s
     sponsorships := [] }]

/-- A row of `KNS_BillInitiator`, as `parse_bill_initiators` yields it. -/
structure BillInitiatorRow where
  billIdExternal : String
  personIdExternal : String

/-- `NormalizedBillSponsorship`. -/
structure NormalizedBillSponsorship where
  billId : String
  personId : String

/-- `normalize_bill_initiator`. -/
def normalizeBillInitiator (row : BillInitiatorRow) : List NormalizedBillSponsorship :=
  [⟨extUuid E "knesset_bill" row.billIdExternal, extUuid E "knesset_person" row.personIdExternal⟩]

/-! ## Elections -/

/-- A section of `party_list_mapping.yaml`: an election, its date, and the factions of its
lists (`null` where a list did not enter the Knesset). -/
structure ElectionSection where
  knessetNumber : ℕ
  electionDate : String
  lists : List (String × Option ℕ)

/-- `party_list_mapping.yaml`. -/
def partyListMapping : List ElectionSection :=
  [{ knessetNumber := 24
     electionDate := "2021-03-23T00:00:00"
     lists :=
       [("מחל", some 962), ("פה", some 967), ("שס", some 971), ("כן", some 969), ("ב", some 966),
         ("אמת", some 963), ("ג", some 965), ("ל", some 968), ("ט", some 961), ("ודעם", some 964),
         ("ת", some 972), ("מרצ", some 970), ("עם", some 973), ("יז", none), ("ר", none),
         ("ףז", none), ("כך", none), ("רנ", none), ("י", none), ("קץ", none), ("זץ", none),
         ("רף", none), ("קך", none), ("נ", none), ("ק", none), ("כ", none), ("צי", none),
         ("יק", none), ("ני", none), ("ז", none), ("קי", none), ("ץ", none), ("יר", none),
         ("צכ", none), ("צף", none), ("נר", none), ("יף", none), ("רק", none)] },
    { knessetNumber := 25
      electionDate := "2022-11-01T00:00:00"
      lists :=
        [("מחל", some 1096), ("פה", some 1102), ("ט", some 1097), ("כן", some 1098),
          ("שס", some 1095), ("ג", some 1101), ("ל", some 1104), ("עם", some 1099),
          ("ום", some 1103), ("אמת", some 1100), ("מרצ", none), ("ב", none), ("אצ", none),
          ("קץ", none), ("יז", none), ("צ", none), ("ף", none), ("ק", none), ("ת", none),
          ("ני", none), ("קנ", none), ("נק", none), ("י", none), ("קך", none), ("נץ", none),
          ("ץ", none), ("רז", none), ("ך", none), ("ז", none), ("קי", none), ("יק", none),
          ("נז", none), ("נר", none), ("זץ", none), ("יץ", none), ("נף", none), ("ינ", none),
          ("זנ", none)] }]

/-- `_section`; `none` where it raises `KeyError`. -/
def electionSection (knessetNumber : ℕ) : Option ElectionSection :=
  partyListMapping.find? (·.knessetNumber = knessetNumber)

/-- `get_election_date`. -/
def getElectionDate (knessetNumber : ℕ) : Option String :=
  (electionSection knessetNumber).map (·.electionDate)

/-- `resolve_party_id`; `none` where it raises `KeyError`. -/
def resolvePartyId (knessetNumber : ℕ) (ballotLetters : String) : Option String :=
  (electionSection knessetNumber).map fun s =>
    match (s.lists.lookup ballotLetters).join with
    | some faction => extUuid E "knesset_party" (toString faction)
    | none => extUuid E "cec_list" (toString knessetNumber ++ ":" ++ ballotLetters)

/-- `ParsedElectionRow`. -/
structure ParsedElectionRow where
  listName : String
  ballotLetters : String
  seatsWon : ℤ
  voteSharePct : String
  votes : ℤ

/-- `ParsedElectionPage`, its rows apart. -/
structure ParsedElectionPage where
  knessetNumber : ℕ
  electionDate : String
  totalValidVotes : ℤ

/-- `NormalizedElectionResult`. -/
structure NormalizedElectionResult where
  electionResultId : String
  knessetNumber : ℕ
  electionDate : String
  listPartyId : String
  listName : String
  ballotLetters : String
  votes : ℤ
  seatsWon : ℤ
  voteShare : ℚ
  passedThreshold : Bool

/-- `normalize_election_result`; `none` where it raises `KeyError`. -/
def normalizeElectionResult (row : ParsedElectionRow) (page : ParsedElectionPage) :
    Option (List NormalizedElectionResult) :=
  if row.ballotLetters = "" then some []
  else
    (resolvePartyId E page.knessetNumber row.ballotLetters).map fun party =>
      [{ electionResultId := extUuid E "cec_election"
           (toString page.knessetNumber ++ ":" ++ row.ballotLetters)
         knessetNumber := page.knessetNumber
         electionDate := page.electionDate
         listPartyId := party
         listName := row.listName
         ballotLetters := row.ballotLetters
         votes := row.votes
         seatsWon := row.seatsWon
         voteShare := E.voteShare row.voteSharePct
         passedThreshold := E.thresholdVotes page.totalValidVotes ≤ row.votes }]

/-! ## Government decisions -/

/-- `BudgetKeyDecisionRow`. -/
structure BudgetKeyDecisionRow where
  budgetkeyId : String
  procedureNumberStr : Option String := none
  governmentRaw : Option String := none
  publishDate : Option String := none
  title : String
  text : Option String := none
  office : Option String := none

/-- `NormalizedGovernmentDecision`. -/
structure NormalizedGovernmentDecision where
  governmentDecisionId : String
  decisionNumber : Option String
  governmentNumber : Option ℤ
  decisionDate : Option String
  title : String
  summary : Option String
  issuingBody : Option String

/-- `_GOV_NUMBER_RE`. -/
def govNumberPattern : Re TimeGroup :=
  cat [word "ה", opt (word "-"), .rep isSpace 0 none true, .group .n (.rep isDigit 1 none true)]

/-- `_parse_government_number`. -/
def parseGovernmentNumber (governmentRaw : Option String) : Option ℤ :=
  (orNone governmentRaw).bind fun raw =>
    (govNumberPattern.search raw.toList).map fun m => (groupNat m .n : ℤ)

/-- `_SUMMARY_MAX_CHARS`. -/
def summaryMaxChars : ℕ := 2000

/-- `normalize_decision`. -/
def normalizeDecision (row : BudgetKeyDecisionRow) : NormalizedGovernmentDecision where
  governmentDecisionId := extUuid E "budgetkey_gov_decision" row.budgetkeyId
  decisionNumber := row.procedureNumberStr
  governmentNumber := parseGovernmentNumber row.governmentRaw
  decisionDate := row.publishDate
  title := row.title
  summary := (orNone row.text).map fun t => String.ofList ((strip t).toList.take summaryMaxChars)
  issuingBody := row.office

end CivicProof
