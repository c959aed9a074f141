import CivicProof.Spec.Normalize
import CivicProof.Spec.Upserts

/-!
# The ingestion adapters

`upsert_person` and its siblings: the statements each one issues for a normalized record, one
transaction a statement. A record comes from a normalizer (`IngestRecord.Normalized`).

* `IngestRecord.Normalized.selfContained`: every relationship a record's statements merge finds
  its endpoints, and no statement tells a created node from a matched one.
-/

namespace CivicProof

open PropGraph Cypher

/-! ## `json.dumps` -/

/-- One character of a JSON string with `ensure_ascii=False`: quotes, backslashes and control
characters are escaped, everything from `U+007F` on stands as it is. -/
def jsonCharRaw (c : Char) : String := if c.toNat < 0x7F then jsonChar c else String.singleton c

/-- A JSON string literal with `ensure_ascii=False`. -/
def jsonStringRaw (s : String) : String :=
  "\"" ++ String.join (s.toList.map jsonCharRaw) ++ "\""

/-- `json.dumps(d, ensure_ascii=False)` of a mapping of texts. -/
def jsonDumps (d : List (String × String)) : String :=
  "\x7b" ++ joinWith ", " (d.map fun e => jsonStringRaw e.1 ++ ": " ++ jsonStringRaw e.2) ++ "\x7d"

/-! ## The statements of a record -/

section Upserts

variable (T : CypherTime) (nowIso : String)

/-- A template run without one of its parameters: the database refuses it. -/
def missingParameter (n : NodeKey) : CivicStmt := .mergeNode n none

/-- A person nothing is known of. -/
def personStub (personId : String) (sourceTier : ℤ) : CivicStmt :=
  personUpsert personId none none none none (some sourceTier)

/-- `upsert_person`. `nowIso` is the time the party and office lanes write. -/
def upsertPerson (person : NormalizedPerson) : List CivicStmt :=
  personUpsert person.personId (some person.canonicalName) person.hebrewName none
      (some (jsonDumps person.externalIds)) (some 1) ::
    ((person.party.toList.flatMap fun party =>
      [partyUpsert party.partyId (some party.canonicalName) party.hebrewName none none,
        memberOf T person.personId party.partyId (some nowIso) none]) ++
    person.office.toList.flatMap fun office =>
      -- the template's `$hebrew_name` and `$english_name` are not passed here
      [missingParameter (.office, office.officeId),
        heldOffice T person.personId office.officeId (some nowIso) none])

/-- The party lane of `upsert_position`. -/
def upsertPartyLane (personId : String) (party : NormalizedPartyMembership) : List CivicStmt :=
  [partyUpsert party.partyId (some party.partyName) (some party.partyName) none none,
    memberOf T personId party.partyId (some party.validFrom) party.validTo]

/-- The office lane of `upsert_position`. -/
def upsertOfficeLane (personId : String) (office : NormalizedOfficeHeld) : List CivicStmt :=
  [officeUpsert office.officeId office.canonicalName office.canonicalName none
      (some office.officeType) (some office.scope),
    heldOffice T personId office.officeId (some office.validFrom) office.validTo]

/-- The position term lane of `upsert_position`. -/
def upsertTermLane (personId : String) (pt : NormalizedPositionTerm) : List CivicStmt :=
  [positionTermUpsert T pt.positionTermId (some pt.personId) (some pt.officeId) pt.appointingBody
      (some pt.validFrom) pt.validTo (some pt.isActing) none,
    hasPositionTerm personId pt.positionTermId, aboutOffice pt.positionTermId pt.officeId]

/-- `upsert_position`. -/
def upsertPosition (bundle : NormalizedPositionBundle) : List CivicStmt :=
  personStub bundle.personId 1 ::
    (bundle.party.toList.flatMap (upsertPartyLane T bundle.personId) ++
      bundle.office.toList.flatMap (upsertOfficeLane T bundle.personId) ++
      bundle.positionTerm.toList.flatMap (upsertTermLane T bundle.personId))

/-- `upsert_vote`. -/
def upsertVote (event : NormalizedVoteEvent) : List CivicStmt :=
  voteEventUpsert T event.voteEventId event.billId event.occurredAt event.voteType ::
    event.castVotes.flatMap fun cv =>
      [personStub cv.personId 2, castVote cv.personId event.voteEventId (some cv.value)]

/-- `_VALID_PRESENCE`. -/
def validPresence : List String := ["present", "absent", "partial"]

/-- `upsert_attendance`. -/
def upsertAttendance (event : NormalizedAttendanceEvent) : List CivicStmt :=
  attendanceEventUpsert T event.attendanceEventId (some event.committeeId) event.occurredAt ::
    (event.attendees.filter fun a => a.presence ∈ validPresence).flatMap fun a =>
      [personStub a.personId 2, attended a.personId event.attendanceEventId (some a.presence)]

/-- `upsert_committee`. `nowIso` stands in for a membership's missing start. -/
def upsertCommittee (committee : NormalizedCommittee) : List CivicStmt :=
  committeeUpsert committee.committeeId (some committee.canonicalName) committee.hebrewName none ::
    committee.memberships.flatMap fun m =>
      let validFrom := (orNone m.validFrom).getD nowIso
      [membershipTermUpsert T m.membershipTermId (some m.personId) (some m.committeeId)
          (some "committee") (some validFrom) m.validTo,
        memberOfCommittee T m.personId m.committeeId (some validFrom) m.validTo]

/-- `upsert_committee_membership`. -/
def upsertCommitteeMembership (m : NormalizedCommitteeMembership) : List CivicStmt :=
  [personStub m.personId 2,
    -- a stub, but for the name the feed gives the committee
    committeeUpsert m.committeeId none m.committeeName none,
    memberOfCommittee T m.personId m.committeeId (some m.validFrom) m.validTo]

/-- `upsert_bill`. -/
def upsertBill (bill : NormalizedBill) : List CivicStmt :=
  billUpsert bill.billId (some bill.title) (some bill.title) none bill.knessetNumber bill.status ::
    bill.sponsorships.map fun personId => Cypher.sponsored personId bill.billId

/-- `upsert_bill_sponsorship`. -/
def upsertBillSponsorship (s : NormalizedBillSponsorship) : List CivicStmt :=
  [personStub s.personId 1, billUpsert s.billId none none none none none,
    Cypher.sponsored s.personId s.billId]

/-- `upsert_election_result`. -/
def upsertElectionResult (r : NormalizedElectionResult) : List CivicStmt :=
  [partyUpsert r.listPartyId (some r.listName) (some r.listName) none (some r.ballotLetters),
    electionResultUpsert T r.electionResultId (some r.electionDate) (some r.knessetNumber)
      (some r.listName) (some r.ballotLetters) (some r.listPartyId) (some r.votes) (some r.seatsWon)
      (some r.voteShare) (some r.passedThreshold) none,
    forParty r.electionResultId r.listPartyId]

/-- `upsert_government_decision`. -/
def upsertGovernmentDecision (d : NormalizedGovernmentDecision) : List CivicStmt :=
  [governmentDecisionUpsert T d.governmentDecisionId d.decisionNumber d.governmentNumber
      d.decisionDate (some d.title) d.summary d.issuingBody none]

end Upserts

/-! ## Records -/

/-- A normalized record of one of the adapters. -/
inductive IngestRecord where
  | person (r : NormalizedPerson)
  | position (r : NormalizedPositionBundle)
  | vote (r : NormalizedVoteEvent)
  | attendance (r : NormalizedAttendanceEvent)
  | committee (r : NormalizedCommittee)
  | committeeMembership (r : NormalizedCommitteeMembership)
  | bill (r : NormalizedBill)
  | billSponsorship (r : NormalizedBillSponsorship)
  | electionResult (r : NormalizedElectionResult)
  | governmentDecision (r : NormalizedGovernmentDecision)

namespace IngestRecord

/-- The statements the record's upsert function issues. -/
def statements (T : CypherTime) (nowIso : String) : IngestRecord → List CivicStmt
  | .person r => upsertPerson T nowIso r
  | .position r => upsertPosition T r
  | .vote r => upsertVote T r
  | .attendance r => upsertAttendance T r
  | .committee r => upsertCommittee T nowIso r
  | .committeeMembership r => upsertCommitteeMembership T r
  | .bill r => upsertBill r
  | .billSponsorship r => upsertBillSponsorship r
  | .electionResult r => upsertElectionResult T r
  | .governmentDecision r => upsertGovernmentDecision T r

/-- The record is one its normalizer produces. -/
def Normalized (E : IngestEnv) : IngestRecord → Prop
  | .person r => ∃ row, r ∈ normalizePerson E row
  | .position r => ∃ row, r ∈ normalizePosition E row
  | .vote r => ∃ row, r ∈ normalizeVote E row
  | .attendance r => ∃ row, r ∈ normalizeAttendance E row
  | .committee r => ∃ row, r ∈ normalizeCommittee E row
  | .committeeMembership r => ∃ row, r ∈ normalizeCommitteeMembership E row
  | .bill r => ∃ row, r ∈ normalizeBill E row
  | .billSponsorship r => ∃ row, r ∈ normalizeBillInitiator E row
  | .electionResult r => ∃ row page l, normalizeElectionResult E row page = some l ∧ r ∈ l
  | .governmentDecision r => ∃ row, r = normalizeDecision E row

end IngestRecord

/-! ## What the statements have in common -/

attribute [simp] keep_regular keepOrBlank_regular keepOrElse_regular

theorem stmt_regular {s : CivicStmt} (h : ∀ i ∈ s.items, CivicItem.Regular i) :
    s.Regular Datum.blank :=
  ⟨fun i hi => (h i hi).1, fun i hi => (h i hi).2⟩

section Regular

variable (T : CypherTime)

theorem personUpsert_regular (id : String) (c h e x : Option String) (t : Option ℤ) :
    (personUpsert id c h e x t).Regular Datum.blank :=
  stmt_regular (by simp [personUpsert, Stmt.items])

theorem partyUpsert_regular (id : String) (c h e a : Option String) :
    (partyUpsert id c h e a).Regular Datum.blank :=
  stmt_regular (by simp [partyUpsert, Stmt.items])

theorem committeeUpsert_regular (id : String) (c h e : Option String) :
    (committeeUpsert id c h e).Regular Datum.blank :=
  stmt_regular (by simp [committeeUpsert, Stmt.items])

/-- The Hebrew name passed for an office is its canonical name. -/
theorem officeUpsert_regular (id : String) (c e t s : Option String) :
    (officeUpsert id c c e t s).Regular Datum.blank :=
  stmt_regular (by simp [officeUpsert, Stmt.items])

/-- The Hebrew name passed for a bill is its title. -/
theorem billUpsert_regular (id : String) (t e : Option String) (n : Option ℤ) (s : Option String) :
    (billUpsert id t t e n s).Regular Datum.blank :=
  stmt_regular (by simp [billUpsert, Stmt.items])

theorem voteEventUpsert_regular (id : String) (b o v : Option String) :
    (voteEventUpsert T id b o v).Regular Datum.blank :=
  stmt_regular (by cases h : moment T o <;> simp [voteEventUpsert, Stmt.items, h])

theorem attendanceEventUpsert_regular (id : String) (c o : Option String) :
    (attendanceEventUpsert T id c o).Regular Datum.blank :=
  stmt_regular (by cases h : moment T o <;> simp [attendanceEventUpsert, Stmt.items, h])

theorem positionTermUpsert_regular (id : String) (p o a f t : Option String) (i : Option Bool)
    (s : Option String) : (positionTermUpsert T id p o a f t i s).Regular Datum.blank :=
  stmt_regular (by
    cases h : moment T f <;> cases h' : moment T t <;>
      simp [positionTermUpsert, Stmt.items, h, h'])

theorem electionResultUpsert_regular (id : String) (d : Option String) (k : Option ℤ)
    (l b p : Option String) (v s : Option ℤ) (q : Option ℚ) (t : Option Bool) (x : Option String) :
    (electionResultUpsert T id d k l b p v s q t x).Regular Datum.blank :=
  stmt_regular (by cases h : moment T d <;> simp [electionResultUpsert, Stmt.items, h])

theorem governmentDecisionUpsert_regular (id : String) (n : Option String) (g : Option ℤ)
    (d t s i x : Option String) :
    (governmentDecisionUpsert T id n g d t s i x).Regular Datum.blank :=
  stmt_regular (by cases h : moment T d <;> simp [governmentDecisionUpsert, Stmt.items, h])

/-- A relationship with a start is never given a null one. -/
theorem spanMerge_regular (t : RelType) (a b : NodeKey) (start : String) (stop : Option String) :
    (spanMerge T t a b (some start) stop).Regular Datum.blank :=
  stmt_regular (by
    cases h : T.datetime start <;> cases h' : moment T stop <;>
      simp [spanMerge, Stmt.items, h, h', overwrite_regular])

theorem choiceMerge_regular (t : RelType) (a b : NodeKey) (f : Field) (l : List String)
    (x : String) : (choiceMerge t a b f l (some x)).Regular Datum.blank :=
  stmt_regular (by simp [choiceMerge, Stmt.items, text, overwrite_regular])

theorem plainMerge_regular (t : RelType) (a b : NodeKey) :
    (.mergeRel t a b true (some []) : CivicStmt).Regular Datum.blank :=
  stmt_regular (by simp [Stmt.items])

/-! ## What a record's statements do -/

variable {T}

theorem closed_flatMap {α : Type} {P : NodeKey → Prop} {l : List α} {f : α → List CivicStmt}
    (h : ∀ a ∈ l, Closed P (f a)) : Closed P (l.flatMap f) := by
  induction l with
  | nil => trivial
  | cons a l ih =>
    rw [List.flatMap_cons]
    exact (h a List.mem_cons_self).append (ih fun b hb => h b (List.mem_cons_of_mem a hb))

/-- Statements that need no node to be there and treat create and match alike. -/
structure SelfContained (u : List CivicStmt) : Prop where
  closed : Closed (fun _ => False) u
  regular : ∀ s ∈ u, s.Regular Datum.blank

theorem SelfContained.append {u v : List CivicStmt} (hu : SelfContained u)
    (hv : SelfContained v) : SelfContained (u ++ v) :=
  ⟨hu.closed.append hv.closed, List.forall_mem_append.2 ⟨hu.regular, hv.regular⟩⟩

theorem upsertPerson_selfContained (nowIso : String) {person : NormalizedPerson}
    (hparty : person.party = none) (hoffice : person.office = none) :
    SelfContained (upsertPerson T nowIso person) := by
  unfold upsertPerson
  rw [hparty, hoffice]
  exact ⟨⟨trivial, trivial⟩, List.forall_mem_singleton.2 (personUpsert_regular ..)⟩

/-- The statements of a position, lane by lane. -/
theorem mem_upsertPosition {b : NormalizedPositionBundle} {s : CivicStmt} :
    s ∈ upsertPosition T b ↔ s = personStub b.personId 1 ∨
      (∃ p ∈ b.party, s = partyUpsert p.partyId (some p.partyName) (some p.partyName) none none ∨
        s = memberOf T b.personId p.partyId (some p.validFrom) p.validTo) ∨
      (∃ o ∈ b.office, s = officeUpsert o.officeId o.canonicalName o.canonicalName none
          (some o.officeType) (some o.scope) ∨
        s = heldOffice T b.personId o.officeId (some o.validFrom) o.validTo) ∨
      ∃ pt ∈ b.positionTerm, s = positionTermUpsert T pt.positionTermId (some pt.personId)
          (some pt.officeId) pt.appointingBody (some pt.validFrom) pt.validTo (some pt.isActing)
          none ∨
        s = hasPositionTerm b.personId pt.positionTermId ∨
        s = aboutOffice pt.positionTermId pt.officeId := by
  simp [upsertPosition, upsertPartyLane, upsertOfficeLane, upsertTermLane]

/-- The position term names the office of the office lane. -/
theorem upsertPosition_selfContained {bundle : NormalizedPositionBundle}
    (hterm : ∀ pt ∈ bundle.positionTerm, ∃ o ∈ bundle.office, pt.officeId = o.officeId) :
    SelfContained (upsertPosition T bundle) := by
  constructor
  · refine ⟨trivial, Closed.append_of (Closed.append ?_ ?_) ?_⟩
    · exact closed_flatMap fun p _ => ⟨trivial, ⟨Or.inl (Or.inr rfl), Or.inr rfl⟩, trivial⟩
    · exact closed_flatMap fun o _ => ⟨trivial, ⟨Or.inl (Or.inr rfl), Or.inr rfl⟩, trivial⟩
    · refine closed_flatMap fun pt hpt => ?_
      obtain ⟨o, ho, hid⟩ := hterm pt (Option.mem_toList.1 hpt)
      have hoffice : (officeUpsert o.officeId o.canonicalName o.canonicalName none
          (some o.officeType) (some o.scope)).Merges (.office, pt.officeId) := by
        rw [hid]
        rfl
      refine ⟨trivial, ⟨Or.inl (Or.inl (Or.inr rfl)), Or.inr rfl⟩, ⟨Or.inl (Or.inr rfl), ?_⟩, trivial⟩
      refine Or.inl (Or.inl (Or.inr ⟨_, ?_, hoffice⟩))
      exact List.mem_append_right _ (List.mem_flatMap.2
        ⟨o, Option.mem_toList.2 ho, List.mem_cons_self⟩)
  · unfold upsertPosition
    rw [List.forall_mem_cons, List.forall_mem_append, List.forall_mem_append]
    simp only [List.forall_mem_flatMap]
    refine ⟨personUpsert_regular .., ⟨fun p _ => ?_, fun o _ => ?_⟩, fun pt _ => ?_⟩
    · exact List.forall_mem_cons.2 ⟨partyUpsert_regular ..,
        List.forall_mem_singleton.2 (spanMerge_regular ..)⟩
    · exact List.forall_mem_cons.2 ⟨officeUpsert_regular ..,
        List.forall_mem_singleton.2 (spanMerge_regular ..)⟩
    · exact List.forall_mem_cons.2 ⟨positionTermUpsert_regular ..,
        List.forall_mem_cons.2 ⟨plainMerge_regular .., List.forall_mem_singleton.2 (plainMerge_regular ..)⟩⟩

theorem upsertVote_selfContained (event : NormalizedVoteEvent) :
    SelfContained (upsertVote T event) := by
  constructor
  · exact ⟨trivial, closed_flatMap fun cv _ =>
      ⟨trivial, ⟨Or.inr rfl, Or.inl (Or.inr rfl)⟩, trivial⟩⟩
  · unfold upsertVote
    rw [List.forall_mem_cons, List.forall_mem_flatMap]
    refine ⟨voteEventUpsert_regular .., fun cv _ => ?_⟩
    exact List.forall_mem_cons.2 ⟨personUpsert_regular ..,
      List.forall_mem_singleton.2 (choiceMerge_regular ..)⟩

theorem upsertAttendance_selfContained (event : NormalizedAttendanceEvent) :
    SelfContained (upsertAttendance T event) := by
  constructor
  · exact ⟨trivial, closed_flatMap fun a _ =>
      ⟨trivial, ⟨Or.inr rfl, Or.inl (Or.inr rfl)⟩, trivial⟩⟩
  · unfold upsertAttendance
    rw [List.forall_mem_cons, List.forall_mem_flatMap]
    refine ⟨attendanceEventUpsert_regular .., fun a _ => ?_⟩
    exact List.forall_mem_cons.2 ⟨personUpsert_regular ..,
      List.forall_mem_singleton.2 (choiceMerge_regular ..)⟩

theorem upsertCommittee_selfContained (nowIso : String) {committee : NormalizedCommittee}
    (h : committee.memberships = []) : SelfContained (upsertCommittee T nowIso committee) := by
  unfold upsertCommittee
  rw [h]
  exact ⟨⟨trivial, trivial⟩, List.forall_mem_singleton.2 (committeeUpsert_regular ..)⟩

theorem upsertCommitteeMembership_selfContained (m : NormalizedCommitteeMembership) :
    SelfContained (upsertCommitteeMembership T m) := by
  constructor
  · exact ⟨trivial, trivial, ⟨Or.inl (Or.inr rfl), Or.inr rfl⟩, trivial⟩
  · exact List.forall_mem_cons.2 ⟨personUpsert_regular .., List.forall_mem_cons.2
      ⟨committeeUpsert_regular .., List.forall_mem_singleton.2 (spanMerge_regular ..)⟩⟩

theorem upsertBill_selfContained {bill : NormalizedBill} (h : bill.sponsorships = []) :
    SelfContained (upsertBill bill) := by
  unfold upsertBill
  rw [h]
  exact ⟨⟨trivial, trivial⟩, List.forall_mem_singleton.2 (billUpsert_regular ..)⟩

theorem upsertBillSponsorship_selfContained (s : NormalizedBillSponsorship) :
    SelfContained (upsertBillSponsorship s) := by
  constructor
  · exact ⟨trivial, trivial, ⟨Or.inl (Or.inr rfl), Or.inr rfl⟩, trivial⟩
  · exact List.forall_mem_cons.2 ⟨personUpsert_regular .., List.forall_mem_cons.2
      ⟨billUpsert_regular .., List.forall_mem_singleton.2 (plainMerge_regular ..)⟩⟩

theorem upsertElectionResult_selfContained (r : NormalizedElectionResult) :
    SelfContained (upsertElectionResult T r) := by
  constructor
  · exact ⟨trivial, trivial, ⟨Or.inr rfl, Or.inl (Or.inr rfl)⟩, trivial⟩
  · exact List.forall_mem_cons.2 ⟨partyUpsert_regular .., List.forall_mem_cons.2
      ⟨electionResultUpsert_regular .., List.forall_mem_singleton.2 (plainMerge_regular ..)⟩⟩

theorem upsertGovernmentDecision_selfContained (d : NormalizedGovernmentDecision) :
    SelfContained (upsertGovernmentDecision T d) :=
  ⟨⟨trivial, trivial⟩, List.forall_mem_singleton.2 (governmentDecisionUpsert_regular ..)⟩

/-- The one record of a position row that has one. -/
theorem mem_normalizePosition {E : IngestEnv} {row : PositionRow}
    {bundle : NormalizedPositionBundle} (h : bundle ∈ normalizePosition E row) :
    ∃ start, orNone row.startDate = some start ∧
      bundle =
        { personId := extUuid E "knesset_person" row.personIdExternal
          personToPositionIdExternal := row.personToPositionIdExternal
          party := partyLane E row start
          office := row.positionId.map fun p => officeLane E row p start
          positionTerm := row.positionId.map fun p => termLane E row p start } := by
  unfold normalizePosition at h
  split at h
  · cases h
  · rename_i start hstart
    dsimp only at h
    split at h
    · cases h
    · exact ⟨start, hstart, List.mem_singleton.1 h⟩

/-- **The statements of a normalized record** need no node to be there, and treat create and
match alike. -/
theorem IngestRecord.Normalized.selfContained {E : IngestEnv} {r : IngestRecord}
    (h : r.Normalized E) (nowIso : String) : SelfContained (r.statements T nowIso) := by
  cases r with
  | person r =>
    obtain ⟨row, hr⟩ := h
    obtain rfl := List.mem_singleton.1 hr
    exact upsertPerson_selfContained nowIso rfl rfl
  | position r =>
    obtain ⟨row, hr⟩ := h
    obtain ⟨start, -, rfl⟩ := mem_normalizePosition hr
    refine upsertPosition_selfContained fun pt hpt => ?_
    obtain ⟨p, hp, rfl⟩ := Option.map_eq_some_iff.1 hpt
    exact ⟨officeLane E row p start, Option.map_eq_some_iff.2 ⟨p, hp, rfl⟩, rfl⟩
  | vote r => exact upsertVote_selfContained r
  | attendance r => exact upsertAttendance_selfContained r
  | committee r =>
    obtain ⟨row, hr⟩ := h
    obtain rfl := List.mem_singleton.1 hr
    exact upsertCommittee_selfContained nowIso rfl
  | committeeMembership r => exact upsertCommitteeMembership_selfContained r
  | bill r =>
    obtain ⟨row, hr⟩ := h
    obtain rfl := List.mem_singleton.1 hr
    exact upsertBill_selfContained rfl
  | billSponsorship r => exact upsertBillSponsorship_selfContained r
  | electionResult r => exact upsertElectionResult_selfContained r
  | governmentDecision r => exact upsertGovernmentDecision_selfContained r

end Regular

end CivicProof
