import CivicProof.Proof.Reingest
import CivicProof.Spec.GraphQueries
import CivicProof.Spec.VoteFeed
import Mathlib.Data.Set.Finite.Lemmas
import Mathlib.Data.Set.Finite.List
import CivicProof.TimeSpan.Scope

/-!
# Retrievals without a link

`vote_cast` asks a vote event for its bill and `committee_attendance` asks an attendance event
for a relationship of its own. No program of the repository writes either, so both retrievals
are empty on every graph of the ingestion.

* `votes_retrievable`, `attendance_retrievable`: they are complete when nothing is to be found.
-/

namespace CivicProof

open PropGraph Cypher TimeSpan

/-! ## Later ones -/

/-- At least `n` of some dated events are later than `t`. -/
def LaterThan (n : ℕ) (dated : Set (String × ℤ)) (t : ℤ) : Prop :=
  ∃ s : Finset String, n ≤ s.card ∧ ∀ x ∈ s, ∃ t', (x, t') ∈ dated ∧ t < t'

/-- None is later than the last one. -/
theorem exists_latest {n : ℕ} (hn : 0 < n) {dated : Set (String × ℤ)} (hfin : dated.Finite)
    (hne : dated.Nonempty) : ∃ e ∈ dated, ¬LaterThan n dated e.2 := by
  obtain ⟨e, he, hmax⟩ := Set.exists_max_image dated Prod.snd hfin hne
  refine ⟨e, he, fun ⟨s, hs, hlater⟩ => ?_⟩
  obtain ⟨x, hx⟩ := Finset.card_pos.1 (hn.trans_le hs)
  obtain ⟨t', ht', hlt⟩ := hlater x hx
  exact absurd hlt (hmax _ ht').not_gt

variable {T : CypherTime} {E : IngestEnv}

/-! ## Votes -/

/-- The pages of a feed, from a URL to the page without a next link. -/
def FeedPages (fetch : PageFetch) : Option String → List ODataPage → Prop
  | none, pages => pages = []
  | some _, [] => False
  | some url, page :: rest => fetch url = .ok page ∧ FeedPages fetch page.nextLink rest

/-- The records of a votes feed. -/
def voteRecords (E : IngestEnv) (feed : List VoteCsvRow) : List IngestRecord :=
  ((feed.filterMap parseVote).flatMap (normalizeVote E)).map .vote

/-- A row of the votes feed records a person's vote. -/
def VoteRecorded (E : IngestEnv) (feed : List VoteCsvRow) (personId voteId value : String) :
    Prop :=
  ∃ row ∈ feed.filterMap parseVote, extUuid E "knesset_person" row.personIdExternal = personId ∧
    row.voteIdExternal = voteId ∧ knsVoteResult.lookup row.voteResult = some value

/-- The vote, the bill and the time of a row of `KNS_Vote`. -/
def KnsVoteRow.dated (T : CypherTime) (E : IngestEnv) (row : KnsVoteRow) :
    Option (String × String × ℤ) := do
  let voteId ← presentId row.voteId
  let billId ← presentId row.billId
  let t ← row.startDate.bind T.datetime
  return (toString voteId, extUuid E "knesset_bill" (toString billId), t)

/-- The votes of a person on a bill, with their times. -/
def votesOn (T : CypherTime) (E : IngestEnv) (feed : List VoteCsvRow) (pages : List ODataPage)
    (personId billId : String) : Set (String × ℤ) :=
  {e | (∃ value, VoteRecorded E feed personId e.1 value) ∧
    (e.1, billId, e.2) ∈ (pages.flatMap (·.value)).filterMap (KnsVoteRow.dated T E)}

/-- The vote value of a row of `vote_cast`. -/
def votedValue (r : Record) : Value := (r.properties.getD ∅).prop "vote_value"

/-- After the votes adapter and the script, every recorded vote on a bill of the graph is
retrieved by every scope of its time, unless ten later ones are. -/
def VotesRetrievable (T : CypherTime) (E : IngestEnv) (feed : List VoteCsvRow) (fetch : PageFetch)
    (g : CivicGraph) : Prop :=
  ∀ pages, FeedPages fetch (some knsVoteUrl) pages → ∀ (iso : String) (now now' : ℕ → ℤ),
    let g' := (enrichVoteBills T E (pages.length + 1) fetch none false now'
      (run now (ingestStatements T iso (voteRecords E feed)) g)).1
    ∀ personId billId, (.bill, billId) ∈ g.nodes → ∀ e ∈ votesOn T E feed pages personId billId,
      ¬LaterThan 10 (votesOn T E feed pages personId billId) e.2 →
        ∀ value, VoteRecorded E feed personId e.1 value → ∀ lo hi, InScope lo hi e.2 →
          ∀ out, VoteCastAnswer T g' personId billId lo hi out →
            ∃ r ∈ out, votedValue r = .str value

theorem votesOn_finite (feed : List VoteCsvRow) (pages : List ODataPage)
    (personId billId : String) : (votesOn T E feed pages personId billId).Finite := by
  refine Set.Finite.subset (List.finite_toSet
    (((pages.flatMap (·.value)).filterMap (KnsVoteRow.dated T E)).map fun e => (e.1, e.2.2))) ?_
  rintro ⟨x, t⟩ ⟨-, he⟩
  exact List.mem_map.2 ⟨_, he, rfl⟩

/-- Without a link to a bill the template answers with no row. -/
theorem voteCastAnswer_nil {g : CivicGraph} (hg : LinksOK g) (personId billId : String)
    (lo hi : Option ℤ) : VoteCastAnswer T g personId billId lo hi [] := by
  have hempty : votesCast g personId billId lo hi = ∅ := by
    refine Finset.filter_eq_empty_iff.2 fun v _ hv => ?_
    exact (hg _ hv.2.2.1).2 rfl
  refine ⟨[], ⟨[], ⟨?_, .nil⟩, rfl⟩, rfl⟩
  rw [hempty]
  rfl

theorem voteRecords_normalized (feed : List VoteCsvRow) :
    ∀ r ∈ voteRecords E feed, r.Normalized E := by
  intro r hr
  obtain ⟨event, hevent, rfl⟩ := List.mem_map.1 hr
  obtain ⟨row, -, hevent⟩ := List.mem_flatMap.1 hevent
  exact ⟨row, hevent⟩

/-- The links of a graph after records of the adapters. -/
theorem LinksOK.ingest {g : CivicGraph} (hg : LinksOK g) {u : List IngestRecord}
    (hu : ∀ r ∈ u, r.Normalized E) (iso : String) (now : ℕ → ℤ) :
    LinksOK (run now (ingestStatements T iso u) g) := by
  refine hg.after (ingestStatements_selfContained hu iso) (fun s hs k hk => ?_) now
  obtain ⟨r, hr, hs⟩ := List.mem_flatMap.1 hs
  exact (hu r hr).linksOK hs hk

/-- A vote that is recorded is not retrieved. -/
theorem VotesRetrievable.votesOn_eq_empty {feed : List VoteCsvRow} {fetch : PageFetch}
    {g : CivicGraph} (h : VotesRetrievable T E feed fetch g) (hg : Built T E g)
    {pages : List ODataPage} (hpages : FeedPages fetch (some knsVoteUrl) pages)
    (personId : String) {billId : String} (hbill : (.bill, billId) ∈ g.nodes) :
    votesOn T E feed pages personId billId = ∅ := by
  by_contra hne
  obtain ⟨e, he, hlast⟩ := exists_latest (n := 10) (by decide)
    (votesOn_finite feed pages personId billId) (Set.nonempty_iff_ne_empty.2 hne)
  obtain ⟨value, hvalue⟩ := he.1
  have hlinks : LinksOK (enrichVoteBills T E (pages.length + 1) fetch none false (fun _ => 0)
      (run (fun _ => 0) (ingestStatements T "" (voteRecords E feed)) g)).1 := by
    rw [enrichVoteBills_eq]
    exact hg.linksOK.ingest (voteRecords_normalized feed) "" fun _ => 0
  have hanswer := voteCastAnswer_nil (T := T) hlinks personId billId none none
  obtain ⟨r, hr, -⟩ := h pages hpages "" (fun _ => 0) (fun _ => 0) personId billId hbill e he hlast
    value hvalue none none (inScope_none _) [] hanswer
  exact List.not_mem_nil hr

/-- **Ingested votes are retrievable** only where there are none: the votes of each person on
each bill of the graph, as the two feeds give them, must be empty. -/
theorem votes_retrievable (feed : List VoteCsvRow) (fetch : PageFetch) (g : CivicGraph)
    (hg : Built T E g) :
    VotesRetrievable T E feed fetch g ↔
      ∀ pages, FeedPages fetch (some knsVoteUrl) pages → ∀ personId billId,
        (.bill, billId) ∈ g.nodes → votesOn T E feed pages personId billId = ∅ := by
  constructor
  · intro h pages hpages personId billId hbill
    exact h.votesOn_eq_empty hg hpages personId hbill
  · intro h pages hpages iso now now' g' personId billId hbill e he
    rw [h pages hpages personId billId hbill] at he
    exact he.elim

/-- The page of the feed. -/
def demoPage : ODataPage := ⟨[⟨some 38123, some 5, some "2021-03-23T00:00:00", none⟩], none⟩

def demoFetch : PageFetch := fun url =>
  if url = knsVoteUrl then .ok demoPage else .error .external

def demoVotes : List VoteCsvRow := [⟨some "38123", some "965", some "1"⟩]

/-- The graph with a bill. -/
def billGraph : CivicGraph :=
  run (fun _ => 0)
    ((normalizeBill demoEnv ⟨"5", some "חוק התקציב", none, none⟩).flatMap upsertBill) ∅

theorem billGraph_built : Built demoTime demoEnv billGraph := by
  have hmem : ∃ r, r ∈ normalizeBill demoEnv ⟨"5", some "חוק התקציב", none, none⟩ :=
    ⟨_, List.mem_singleton_self _⟩
  obtain ⟨r, hr⟩ := hmem
  obtain rfl := List.mem_singleton.1 hr
  exact Built.upsert .empty (r := .bill _) ⟨_, hr⟩ "" (fun _ => 0) (List.prefix_refl _)

theorem demoVotes_votesOn :
    ("38123", 1616457600) ∈
      votesOn demoTime demoEnv demoVotes [demoPage] "knesset_person:965" "knesset_bill:5" :=
  ⟨⟨"for", ⟨"38123", "965", 1⟩, List.mem_singleton_self _, rfl, rfl, rfl⟩, List.mem_singleton_self _⟩

theorem votes_retrievable_one :
    VotesRetrievable demoTime demoEnv demoVotes demoFetch billGraph ↔
      ∀ pages, FeedPages demoFetch (some knsVoteUrl) pages → ∀ personId billId,
        (.bill, billId) ∈ billGraph.nodes →
          votesOn demoTime demoEnv demoVotes pages personId billId = ∅ :=
  votes_retrievable demoVotes demoFetch billGraph billGraph_built

/-- A vote for a bill that the graph contains. -/
theorem vote_unretrieved : Built demoTime demoEnv billGraph ∧
    ¬VotesRetrievable demoTime demoEnv demoVotes demoFetch billGraph := by
  refine ⟨billGraph_built, fun h => ?_⟩
  have hpages : FeedPages demoFetch (some knsVoteUrl) [demoPage] := ⟨if_pos rfl, rfl⟩
  have hbill : (Label.bill, "knesset_bill:5") ∈ billGraph.nodes := by decide
  have hempty := h.votesOn_eq_empty billGraph_built hpages "knesset_person:965" hbill
  exact Set.notMem_empty _ (hempty ▸ demoVotes_votesOn)

/-! ## Attendance -/

/-- The events of a committee that a person attended, with their times, as far as the
statements `written` say so. -/
def attendedOn (T : CypherTime) (u : List IngestRecord) (written : List CivicStmt)
    (personId committeeId : String) : Set (String × ℤ) :=
  {e | ∃ event, .attendance event ∈ u ∧ event.attendanceEventId = e.1 ∧
    event.committeeId = committeeId ∧ event.occurredAt.bind T.datetime = some e.2 ∧
    ∃ a ∈ event.attendees, a.personId = personId ∧ a.presence ∈ validPresence ∧
      attended personId e.1 (some a.presence) ∈ written}

/-- The event of a row of `committee_attendance`. -/
def attendedEvent (r : Record) : Option Value := (r.nodeIds.getD ∅).lookup "attendance_event_id"

/-- Every attendance that was written is retrieved by every scope of its event's time, unless
twenty later ones are. -/
def AttendanceRetrievable (T : CypherTime) (u : List IngestRecord) (written : List CivicStmt)
    (g : CivicGraph) : Prop :=
  ∀ personId committeeId, (.committee, committeeId) ∈ g.nodes →
    ∀ e ∈ attendedOn T u written personId committeeId,
      ¬LaterThan 20 (attendedOn T u written personId committeeId) e.2 →
        ∀ lo hi, InScope lo hi e.2 → ∀ out,
          CommitteeAttendanceAnswer T g personId committeeId lo hi out →
            ∃ r ∈ out, attendedEvent r = some (.str e.1)

theorem attendedOn_finite (u : List IngestRecord) (written : List CivicStmt)
    (personId committeeId : String) : (attendedOn T u written personId committeeId).Finite := by
  refine Set.Finite.subset (List.finite_toSet (u.filterMap fun r => match r with
    | .attendance event =>
      (event.occurredAt.bind T.datetime).map fun t => (event.attendanceEventId, t)
    | _ => none)) ?_
  rintro ⟨x, t⟩ ⟨event, hevent, rfl, -, ht, -⟩
  exact List.mem_filterMap.2 ⟨_, hevent, Option.map_eq_some_iff.2 ⟨t, ht, rfl⟩⟩

/-- Without a relationship of the event the template answers with no row. -/
theorem committeeAttendanceAnswer_nil {g : CivicGraph} (hg : LinksOK g)
    (personId committeeId : String) (lo hi : Option ℤ) :
    CommitteeAttendanceAnswer T g personId committeeId lo hi [] := by
  have hempty : attendedEvents g personId committeeId lo hi = ∅ := by
    refine Finset.filter_eq_empty_iff.2 fun k hk hrow => ?_
    have hends := (hg k (Finmap.mem_keys.1 hk)).1
    rw [hrow.2.1] at hends
    obtain ⟨t, a, b⟩ := k
    have htype : t ∈ attendanceLinks := hrow.1
    simp only [attendanceLinks, List.mem_cons, List.not_mem_nil, or_false] at htype
    obtain rfl | rfl | rfl := htype
    · cases hends
    · cases hends
    · cases hends
  refine ⟨[], ⟨[], ⟨?_, .nil⟩, rfl⟩, rfl⟩
  rw [hempty]
  rfl

section Sequence

variable {u : List IngestRecord} (hu : ∀ r ∈ u, r.Normalized E ∨ ∃ event, r = .attendance event)
  {iso : String}

include hu

theorem attendanceStatements_selfContained : SelfContained (ingestStatements T iso u) := by
  refine SelfContained.flatMap fun r hr => ?_
  rcases hu r hr with h | ⟨event, rfl⟩
  · exact h.selfContained iso
  · exact upsertAttendance_selfContained event

theorem attendance_linksOK {g : CivicGraph} (hg : LinksOK g) (now : ℕ → ℤ) :
    LinksOK (run now (ingestStatements T iso u) g) := by
  refine hg.after (attendanceStatements_selfContained hu) (fun s hs k hk => ?_) now
  obtain ⟨r, hr, hs⟩ := List.mem_flatMap.1 hs
  rcases hu r hr with h | ⟨event, rfl⟩
  · exact h.linksOK hs hk
  · obtain ⟨htype, hends⟩ := (touches_upsertAttendance event s hs).2 k hk
    exact ⟨hends, by simp [List.mem_singleton.1 htype]⟩

theorem attendance_nodes (g : CivicGraph) (now : ℕ → ℤ) (n : NodeKey) :
    n ∈ (run now (ingestStatements T iso u) g).nodes ↔
      n ∈ g.nodes ∨ ∃ s ∈ issued (ingestStatements T iso u), s.Merges n := by
  have hself : SelfContained (ingestStatements T iso u) := attendanceStatements_selfContained hu
  exact (run_effect (fun s hs => (hself.regular s hs).uniform) now
    (hself.closed.mono fun _ h => h.elim)).nodes n

end Sequence

/-- An attendance that is written is not retrieved. -/
theorem AttendanceRetrievable.attendedOn_eq_empty {u : List IngestRecord}
    {written : List CivicStmt} {g : CivicGraph} (h : AttendanceRetrievable T u written g)
    (hg : LinksOK g) (personId : String) {committeeId : String}
    (hcommittee : (.committee, committeeId) ∈ g.nodes) :
    attendedOn T u written personId committeeId = ∅ := by
  by_contra hne
  obtain ⟨e, he, hlast⟩ := exists_latest (n := 20) (by decide)
    (attendedOn_finite u written personId committeeId) (Set.nonempty_iff_ne_empty.2 hne)
  have hanswer := committeeAttendanceAnswer_nil (T := T) hg personId committeeId none none
  obtain ⟨r, hr, -⟩ := h personId committeeId hcommittee e he hlast none none (inScope_none _)
    [] hanswer
  exact List.not_mem_nil hr

/-- **Ingested attendance is retrievable** only where there is none: nobody may attend, in the
records as far as they are written, a dated event of a committee of the graph. -/
theorem attendance_retrievable (u : List IngestRecord)
    (hu : ∀ r ∈ u, r.Normalized E ∨ ∃ event, r = .attendance event) (g : CivicGraph)
    (hg : Built T E g) (iso : String) (now : ℕ → ℤ) :
    AttendanceRetrievable T u (issued (ingestStatements T iso u))
        (run now (ingestStatements T iso u) g) ↔
      ∀ personId committeeId,
        ((.committee, committeeId) ∈ g.nodes ∨
          ∃ s ∈ issued (ingestStatements T iso u), s.Merges (.committee, committeeId)) →
        attendedOn T u (issued (ingestStatements T iso u)) personId committeeId = ∅ := by
  constructor
  · intro h personId committeeId hcommittee
    exact h.attendedOn_eq_empty (attendance_linksOK hu hg.linksOK now) personId
      ((attendance_nodes hu g now _).2 hcommittee)
  · intro h personId committeeId hcommittee e he
    rw [h personId committeeId ((attendance_nodes hu g now _).1 hcommittee)] at he
    exact he.elim

/-- A committee, and a session of it that one MK attended. -/
def demoSession : List IngestRecord :=
  ((normalizeCommittee demoEnv ⟨"1", some "ועדת הכספים"⟩).map .committee) ++
    (normalizeAttendance demoEnv ⟨"77", "1", some "2021-03-23T00:00:00", ["965"]⟩).map .attendance

theorem demoSession_normalized :
    ∀ r ∈ demoSession, r.Normalized demoEnv ∨ ∃ event, r = .attendance event := by
  intro r hr
  rcases List.mem_append.1 hr with hr | hr
  · obtain ⟨c, hc, rfl⟩ := List.mem_map.1 hr
    exact Or.inl ⟨_, hc⟩
  · obtain ⟨event, -, rfl⟩ := List.mem_map.1 hr
    exact Or.inr ⟨event, rfl⟩

theorem attendance_retrievable_one :
    AttendanceRetrievable demoTime demoSession (issued (ingestStatements demoTime "" demoSession))
        (run (fun _ => 0) (ingestStatements demoTime "" demoSession) ∅) ↔
      ∀ personId committeeId,
        ((.committee, committeeId) ∈ (∅ : CivicGraph).nodes ∨
          ∃ s ∈ issued (ingestStatements demoTime "" demoSession),
            s.Merges (.committee, committeeId)) →
        attendedOn demoTime demoSession (issued (ingestStatements demoTime "" demoSession)) personId
          committeeId = ∅ :=
  attendance_retrievable demoSession demoSession_normalized ∅ Built.empty "" fun _ => 0

/-- The session is in the graph with its committee, and is not retrieved. -/
theorem attendance_unretrieved :
    ¬AttendanceRetrievable demoTime demoSession
      (issued (ingestStatements demoTime "" demoSession))
      (run (fun _ => 0) (ingestStatements demoTime "" demoSession) ∅) := by
  intro h
  have hlinks : LinksOK (run (fun _ => 0) (ingestStatements demoTime "" demoSession) ∅) :=
    attendance_linksOK demoSession_normalized (fun _ hk => absurd hk Finmap.notMem_empty) _
  have hcommittee : (Label.committee, "knesset_committee:1") ∈
      (run (fun _ => 0) (ingestStatements demoTime "" demoSession) ∅).nodes := by decide
  have hempty := h.attendedOn_eq_empty hlinks "knesset_person:965" hcommittee
  have hmem : ("knesset_attendance_event:77", 1616457600) ∈ attendedOn demoTime demoSession
      (issued (ingestStatements demoTime "" demoSession)) "knesset_person:965"
      "knesset_committee:1" := by
    rw [issued_eq_self (by decide)]
    exact ⟨_, .tail _ (.head _), rfl, rfl, by decide, _, .head _, rfl, .head _,
      .tail _ (.tail _ (.tail _ (.head _)))⟩
  exact Set.notMem_empty _ (hempty ▸ hmem)

end CivicProof
