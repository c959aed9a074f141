import CivicProof.Proof.Degrade
import CivicProof.Proof.Noninterference
import CivicProof.Proof.Reingest
import CivicProof.Spec.GraphQueries

/-!
# Row limits and verdicts

Three templates return the first rows of an order and leave out the others. Their comparisons ask
whether some row has a property, so a verdict keeps its status where every row that decides it has a
peer among those returned.

* `LimitedQuery.kept_iff`: when each answer has a row with a property.
* `compareVoteCast_status`: the status of a vote comparison, by the rows that there are.
* `limits_kept_iff`: when the limit of a template does not change a verdict.
-/

namespace CivicProof

open PropGraph

/-! ## Verdicts on the rows of a query -/

/-- The claim's inputs with these rows and texts as evidence. -/
def VerdictInputs.onRows (inputs : VerdictInputs) (texts : List LexicalEvidence)
    (scope : Option TimeScope) (ids : Dict String) (rows : List Record) : VerdictInputs :=
  inputs.withEvidence
    ((rows.map (recordToEvidence inputs.claimType)).map .graph ++ texts.map .lexical) scope ids

/-- Above the threshold, the rows that a template returns and all the rows that it matches give the
same status. -/
def LimitKept (inputs : VerdictInputs) (texts : List LexicalEvidence) (scope : Option TimeScope)
    (ids : Dict String) (answers : List Record → Prop) (matched : Multiset Record) : Prop :=
  ∀ out, answers out → (∃ c, PassesThreshold (inputs.onRows texts scope ids out) c) →
    ∀ all : List Record, (all : Multiset Record) = matched →
      verdictStatus (inputs.onRows texts scope ids out) =
        verdictStatus (inputs.onRows texts scope ids all)

section Status

variable {inputs : VerdictInputs} (texts : List LexicalEvidence) (scope : Option TimeScope)
  (ids : Dict String) {rows : List Record}

theorem onRows_passes (hne : rows ≠ []) (htier : ∀ r ∈ rows, r.sourceTier = some 1) :
    ∃ c, PassesThreshold (inputs.onRows texts scope ids rows) c := by
  obtain ⟨r, hr⟩ := List.exists_mem_of_ne_nil rows hne
  have hmem : Evidence.graph (recordToEvidence inputs.claimType r) ∈
      (rows.map (recordToEvidence inputs.claimType)).map Evidence.graph ++
        texts.map Evidence.lexical :=
    List.mem_append_left _ (List.mem_map_of_mem (List.mem_map_of_mem hr))
  have hone : (recordToEvidence inputs.claimType r).sourceTier = 1 := by
    unfold recordToEvidence
    rw [htier r hr]
    rfl
  obtain ⟨c, hconf, hover⟩ := tier1_row_confident scope ids hmem rfl hone
  refine ⟨c, hconf, fun hnil => ?_, hover⟩
  exact List.ne_nil_of_mem hmem (rerank_eq_nil.1 hnil)

/-- With a row there, the status is that of the comparison of the rows. -/
theorem verdictStatus_onRows (hc : inputs.checkability = .checkable) (hne : rows ≠ [])
    (htier : ∀ r ∈ rows, r.sourceTier = some 1) :
    verdictStatus (inputs.onRows texts scope ids rows) =
      (compare inputs (rows.map (recordToEvidence inputs.claimType)) texts.length).map
        Prod.fst := by
  obtain ⟨c, hp⟩ := onRows_passes texts scope ids hne htier
  have hown : (rows.map (recordToEvidence inputs.claimType)).filter
      (fun g => g.claimType = inputs.claimType) = rows.map (recordToEvidence inputs.claimType) := by
    refine List.filter_eq_self.2 fun g hg => ?_
    obtain ⟨r, -, rfl⟩ := List.mem_map.1 hg
    exact decide_eq_true rfl
  have hhits := graphHits_retrieved (rows.map (recordToEvidence inputs.claimType)) texts
    inputs.claimType scope ids
  rw [hown] at hhits
  have hlex := lexCorroborations_retrieved (rows.map (recordToEvidence inputs.claimType)) texts
    inputs.claimType scope ids
  have hstatus : verdictStatus (inputs.onRows texts scope ids rows) = _ :=
    verdictStatus_passes hc hp
  refine hstatus.trans ?_
  change (compare inputs _ _).map Prod.fst = _
  exact compare_status_perm (Or.inr hlex) hhits

end Status

/-! ## Queries with a limit -/

/-- A query that returns Tier-1 rows by descending key, up to a limit. -/
structure LimitedQuery (α : Type) where
  rows : Finset α
  key : α → WithTop ℤ
  limit : ℕ
  record : α → Record
  limit_pos : 0 < limit
  tier : ∀ x, (record x).sourceTier = some 1

namespace LimitedQuery

variable {α : Type} (Q : LimitedQuery α) (ct : ClaimType)

/-- The answers of the query. -/
def Answers (out : List Record) : Prop :=
  ∃ l, PropGraph.Answer (descending Q.key) Q.limit Q.rows.val l ∧ out = l.map Q.record

/-- A row as evidence. -/
def evidence (x : α) : GraphEvidence := recordToEvidence ct (Q.record x)

/-- If a row has the property, then so few rows without it may come first that one with it is
returned. -/
def Kept (p : GraphEvidence → Bool) : Prop :=
  (∃ x ∈ Q.rows, p (Q.evidence ct x) = true) →
    Secured Q.key Q.limit Q.rows.val fun x => p (Q.evidence ct x) = true

variable {Q ct}

theorem tier_of_mem {l : List α} {r : Record} (h : r ∈ l.map Q.record) : r.sourceTier = some 1 := by
  obtain ⟨x, -, rfl⟩ := List.mem_map.1 h
  exact Q.tier x

theorem rows_of_nil (h : PropGraph.Answer (descending Q.key) Q.limit Q.rows.val []) :
    Q.rows = ∅ := by
  by_contra hsome
  obtain ⟨n, hn⟩ : ∃ n, Q.limit = n + 1 := ⟨Q.limit - 1, by have := Q.limit_pos; omega⟩
  rw [hn] at h
  exact h.ne_nil (mt Finset.val_eq_zero.1 hsome) rfl

theorem toList_ne_nil {l : List α} (hl : PropGraph.Answer (descending Q.key) Q.limit Q.rows.val l)
    (hne : l ≠ []) : Q.rows.toList ≠ [] := by
  obtain ⟨x, hx⟩ := List.exists_mem_of_ne_nil l hne
  exact List.ne_nil_of_mem (Finset.mem_toList.2 (hl.mem_rows hx))

/-- **Each answer has a row with the property**, if there is one. -/
theorem kept_iff {p : GraphEvidence → Bool} : Q.Kept ct p ↔
    ∀ l, PropGraph.Answer (descending Q.key) Q.limit Q.rows.val l →
      ((∃ x ∈ l, p (Q.evidence ct x) = true) ↔ ∃ x ∈ Q.rows, p (Q.evidence ct x) = true) := by
  constructor
  · intro h l hl
    constructor
    · rintro ⟨x, hx, hpx⟩
      exact ⟨x, hl.mem_rows hx, hpx⟩
    · intro hex
      exact (secured_iff hex).1 (h hex) l hl
  · intro h hex
    exact (secured_iff hex).2 fun l hl => (h l hl).2 hex

/-- The status of the comparison of some rows. -/
def status (Q : LimitedQuery α) (inputs : VerdictInputs) (lexHits : ℕ) (l : List α) :
    Except PyError Status :=
  (compare inputs (l.map (Q.evidence inputs.claimType)) lexHits).map Prod.fst

section Status

variable {inputs : VerdictInputs} (hc : inputs.checkability = .checkable)
  (texts : List LexicalEvidence) (scope : Option TimeScope) (ids : Dict String)
include hc

theorem verdictStatus_rows {l : List α} (hne : l ≠ []) :
    verdictStatus (inputs.onRows texts scope ids (l.map Q.record)) =
      Q.status inputs texts.length l := by
  rw [verdictStatus_onRows texts scope ids hc (mt List.map_eq_nil_iff.1 hne)
    fun r hr => tier_of_mem hr, List.map_map]
  rfl

/-- The limit is harmless iff the rows of each answer compare as all of them do. -/
theorem limitKept_iff : LimitKept inputs texts scope ids Q.Answers (Q.rows.val.map Q.record) ↔
    ∀ l, l ≠ [] → PropGraph.Answer (descending Q.key) Q.limit Q.rows.val l →
      Q.status inputs texts.length l = Q.status inputs texts.length Q.rows.toList := by
  have hcoe : ((Q.rows.toList.map Q.record : List Record) : Multiset Record) =
      Q.rows.val.map Q.record := by
    rw [← Multiset.map_coe, Finset.coe_toList]
  constructor
  · intro h l hne hl
    have hpass : ∃ c, PassesThreshold (inputs.onRows texts scope ids (l.map Q.record)) c :=
      onRows_passes texts scope ids (mt List.map_eq_nil_iff.1 hne) fun r hr => tier_of_mem hr
    have heq := h _ ⟨l, hl, rfl⟩ hpass _ hcoe
    rwa [verdictStatus_rows hc texts scope ids hne,
      verdictStatus_rows hc texts scope ids (toList_ne_nil hl hne)] at heq
  · rintro h out ⟨l, hl, rfl⟩ - all hmatched
    have hperm : all.Perm (Q.rows.toList.map Q.record) :=
      Multiset.coe_eq_coe.1 (hmatched.trans hcoe.symm)
    by_cases hne : l = []
    · -- then nothing is matched
      subst hne
      rw [rows_of_nil hl, Finset.empty_val, Multiset.map_zero] at hmatched
      rw [(Multiset.coe_eq_zero _).1 hmatched]
      rfl
    · have hsome : Q.rows.toList.map Q.record ≠ [] := mt List.map_eq_nil_iff.1 (toList_ne_nil hl hne)
      have hsame : verdictStatus (inputs.onRows texts scope ids all) =
          verdictStatus (inputs.onRows texts scope ids (Q.rows.toList.map Q.record)) := by
        rw [verdictStatus_onRows texts scope ids hc hsome fun r hr => tier_of_mem hr,
          verdictStatus_onRows texts scope ids hc (mt (perm_eq_nil hperm).1 hsome)
            fun r hr => tier_of_mem (hperm.mem_iff.1 hr)]
        exact compare_status_perm (Or.inr rfl) (hperm.map _)
      rw [hsame, verdictStatus_rows hc texts scope ids hne,
        verdictStatus_rows hc texts scope ids (toList_ne_nil hl hne)]
      exact h l hne hl

end Status

end LimitedQuery

/-! ## Statuses by the rows that there are -/

section Rows

variable {hits hits' : List GraphEvidence}

theorem rowStatus_eq_iff {ok : GraphEvidence → Bool} (hne : hits ≠ []) (hne' : hits' ≠ []) :
    rowStatus ok hits = rowStatus ok hits' ↔
      ((∃ g ∈ hits, ok g = true) ↔ ∃ g ∈ hits', ok g = true) := by
  unfold rowStatus
  rw [if_neg hne, if_neg hne']
  split_ifs with h h'
  · exact iff_of_true rfl (iff_of_true h h')
  · exact iff_of_false (by decide) fun hiff => h' (hiff.1 h)
  · rename_i h'
    exact iff_of_false (by decide) fun hiff => h (hiff.2 h')
  · rename_i h'
    exact iff_of_true rfl (iff_of_false h h')

/-- The row records this vote. -/
def recordsVote (v : String) (g : GraphEvidence) : Bool := voteValue g = .str v

/-- The row records another value, or none. -/
def recordsOther (v : String) (g : GraphEvidence) : Bool := voteValue g ≠ .str v

/-- The row records a text as its vote. -/
def recordsText (g : GraphEvidence) : Bool := (voteValue g).truthy && (voteValue g).text?.isSome

/-- The row records a number as its vote. -/
def recordsNumber (g : GraphEvidence) : Bool := (voteValue g).truthy && (voteValue g).text?.isNone

theorem mixesKinds_iff : MixesKinds (recordedValues hits) ↔
    (∃ g ∈ hits, recordsText g = true) ∧ ∃ g ∈ hits, recordsNumber g = true := by
  have hkey : ∀ x : Value, x.key.truthy = x.truthy ∧ x.key.text? = x.text? := by
    rintro (_ | _ | _ | _)
    · exact ⟨rfl, rfl⟩
    · rename_i b
      cases b <;> exact ⟨rfl, rfl⟩
    · exact ⟨rfl, rfl⟩
    · exact ⟨rfl, rfl⟩
  have hex : ∀ q : Value → Prop, (∃ v ∈ recordedValues hits, q v) ↔
      ∃ g ∈ hits, q (voteValue g).key := by
    intro q
    unfold recordedValues
    simp only [List.mem_dedup, List.mem_map, exists_exists_and_eq_and]
    rfl
  unfold MixesKinds recordsText recordsNumber
  simp only [hex, hkey, Bool.and_eq_true, Option.isSome_iff_ne_none, Option.isNone_iff_eq_none]

instance (recorded : List Value) : Decidable (MixesKinds recorded) :=
  inferInstanceAs (Decidable ((∃ v ∈ recorded, _) ∧ ∃ v ∈ recorded, _))

/-- The status of a vote comparison: whether the vote is recorded, something else is, and the values
do not compare. -/
def voteStatus (vote other mixes : Prop) [Decidable vote] [Decidable other] [Decidable mixes] :
    Except PyError Status :=
  if vote then if other then .ok .mixed else .ok .supported
  else if mixes then .error .typeError else .ok .contradicted

theorem voteStatus_eq_iff {a b m a' b' m' : Prop} [Decidable a] [Decidable b] [Decidable m]
    [Decidable a'] [Decidable b'] [Decidable m'] : voteStatus a b m = voteStatus a' b' m' ↔
      (a ↔ a') ∧ (a' → (b ↔ b')) ∧ (¬a' → (m ↔ m')) := by
  unfold voteStatus
  split_ifs <;> simp [*]

/-- **The status of a vote comparison**, by the rows that there are. -/
theorem compareVoteCast_status {v : String} (hne : hits ≠ []) :
    (compareVoteCast (some v) hits).map Prod.fst =
      voteStatus (∃ g ∈ hits, recordsVote v g = true) (∃ g ∈ hits, recordsOther v g = true)
        (MixesKinds (recordedValues hits)) := by
  unfold voteStatus recordsVote recordsOther
  simp only [decide_eq_true_eq]
  have hvote : .str v ∈ recordedValues hits ↔ ∃ g ∈ hits, voteValue g = .str v :=
    str_mem_recordedValues
  cases hr : compareVoteCast (some v) hits with
  | error e =>
    obtain ⟨x, hx, hnot, hmix⟩ := compareVoteCast_error_iff.1 ⟨e, hr⟩
    cases hx
    rw [if_neg (mt hvote.2 hnot), if_pos hmix]
    have he : e = .typeError := by
      unfold compareVoteCast at hr
      dsimp only at hr
      split_ifs at hr
      unfold sortedTruthy at hr
      dsimp only at hr
      split_ifs at hr
      · cases hr
        rfl
      · cases hr
    rw [he]
    rfl
  | ok r =>
    have hnomix : (¬∃ g ∈ hits, voteValue g = .str v) → ¬MixesKinds (recordedValues hits) := by
      intro hnot hmix
      obtain ⟨e, he⟩ := compareVoteCast_error_iff.2 ⟨v, rfl, mt hvote.1 hnot, hmix⟩
      rw [hr] at he
      cases he
    rcases compareVoteCast_cases hr with ⟨hnil, -⟩ | ⟨-, hall, hst⟩ | ⟨-, ⟨w, hw, hsome, hother⟩, hst⟩ |
      ⟨-, ⟨w, hw, hnone⟩, hst⟩
    · exact absurd hnil hne
    · obtain ⟨g, hg⟩ := List.exists_mem_of_ne_nil hits hne
      rw [if_pos ⟨g, hg, hall v rfl g hg⟩, if_neg fun ⟨g, hg, h⟩ => h (hall v rfl g hg), ← hst]
      rfl
    · cases hw
      rw [if_pos hsome, if_pos hother, ← hst]
      rfl
    · cases hw
      have hnot : ¬∃ g ∈ hits, voteValue g = .str v := fun ⟨g, hg, h⟩ => hnone g hg h
      rw [if_neg hnot, if_neg (hnomix hnot), ← hst]
      rfl

end Rows

/-! ## When a limit is harmless -/

namespace LimitedQuery

variable {α : Type} {Q : LimitedQuery α} {inputs : VerdictInputs}
  (hc : inputs.checkability = .checkable) (texts : List LexicalEvidence)
  (scope : Option TimeScope) (ids : Dict String)

theorem exists_evidence {ct : ClaimType} {p : GraphEvidence → Bool} {l : List α} :
    (∃ g ∈ l.map (Q.evidence ct), p g = true) ↔ ∃ x ∈ l, p (Q.evidence ct x) = true := by
  simp only [List.mem_map, exists_exists_and_eq_and]

include hc

/-- **A comparison that looks for one row** keeps its status iff such a row is kept. -/
theorem limitKept_rowStatus {ok : GraphEvidence → Bool}
    (hstatus : ∀ hits, (compare inputs hits texts.length).map Prod.fst = .ok (rowStatus ok hits)) :
    LimitKept inputs texts scope ids Q.Answers (Q.rows.val.map Q.record) ↔
      Q.Kept inputs.claimType ok := by
  rw [limitKept_iff hc, kept_iff]
  refine forall_congr' fun l => ?_
  by_cases hne : l = []
  · subst hne
    refine iff_of_true (fun h => absurd rfl h) fun hl => ?_
    rw [rows_of_nil hl]
    simp
  · refine ⟨fun h hl => ?_, fun h _ hl => ?_⟩
    all_goals
      have hrows := toList_ne_nil hl hne
      have heq : Q.status inputs texts.length l = Q.status inputs texts.length Q.rows.toList ↔
          ((∃ x ∈ l, ok (Q.evidence inputs.claimType x) = true) ↔
            ∃ x ∈ Q.rows, ok (Q.evidence inputs.claimType x) = true) := by
        unfold status
        rw [hstatus, hstatus, Except.ok.injEq,
          rowStatus_eq_iff (mt List.map_eq_nil_iff.1 hne) (mt List.map_eq_nil_iff.1 hrows),
          exists_evidence, exists_evidence]
        simp only [Finset.mem_toList]
    · exact heq.1 (h hne hl)
    · exact heq.2 (h hl)

/-- The rows that a vote comparison rests on are kept: one with the expected vote and one with
another, or where there is none with it, those whose values do not compare. -/
structure VotesKept (Q : LimitedQuery α) (ct : ClaimType) (v : String) : Prop where
  vote : Q.Kept ct (recordsVote v)
  other : (∃ x ∈ Q.rows, recordsVote v (Q.evidence ct x) = true) → Q.Kept ct (recordsOther v)
  mixed : (¬∃ x ∈ Q.rows, recordsVote v (Q.evidence ct x) = true) →
    (∃ x ∈ Q.rows, recordsText (Q.evidence ct x) = true) →
      (∃ x ∈ Q.rows, recordsNumber (Q.evidence ct x) = true) →
        Q.Kept ct recordsText ∧ Q.Kept ct recordsNumber

/-- **A vote comparison** keeps its status iff the rows that it rests on are kept. -/
theorem limitKept_votes (hct : inputs.claimType = .voteCast) :
    LimitKept inputs texts scope ids Q.Answers (Q.rows.val.map Q.record) ↔
      ∀ v, inputs.expectedVoteValue = some v → Q.VotesKept .voteCast v := by
  rw [limitKept_iff hc]
  have hcompare : ∀ l : List α, Q.status inputs texts.length l =
      (compareVoteCast inputs.expectedVoteValue (l.map (Q.evidence .voteCast))).map Prod.fst := by
    intro l
    unfold status compare
    rw [hct]
  simp only [hcompare]
  cases hv : inputs.expectedVoteValue with
  | none =>
    refine iff_of_true (fun l hne hl => ?_) fun v h => absurd h (Option.some_ne_none v).symm
    have hrows := toList_ne_nil hl hne
    unfold compareVoteCast
    rw [if_neg (mt List.map_eq_nil_iff.1 hne), if_neg (mt List.map_eq_nil_iff.1 hrows)]
  | some v =>
    have heq : ∀ l, PropGraph.Answer (descending Q.key) Q.limit Q.rows.val l → ((l ≠ [] →
        (compareVoteCast (some v) (l.map (Q.evidence .voteCast))).map Prod.fst =
          (compareVoteCast (some v) (Q.rows.toList.map (Q.evidence .voteCast))).map Prod.fst) ↔
        ((∃ x ∈ l, recordsVote v (Q.evidence .voteCast x) = true) ↔
          ∃ x ∈ Q.rows, recordsVote v (Q.evidence .voteCast x) = true) ∧
        ((∃ x ∈ Q.rows, recordsVote v (Q.evidence .voteCast x) = true) →
          ((∃ x ∈ l, recordsOther v (Q.evidence .voteCast x) = true) ↔
            ∃ x ∈ Q.rows, recordsOther v (Q.evidence .voteCast x) = true)) ∧
        ((¬∃ x ∈ Q.rows, recordsVote v (Q.evidence .voteCast x) = true) →
          ((∃ x ∈ l, recordsText (Q.evidence .voteCast x) = true) ∧
              (∃ x ∈ l, recordsNumber (Q.evidence .voteCast x) = true) ↔
            (∃ x ∈ Q.rows, recordsText (Q.evidence .voteCast x) = true) ∧
              ∃ x ∈ Q.rows, recordsNumber (Q.evidence .voteCast x) = true))) := by
      intro l hl
      by_cases hne : l = []
      · subst hne
        rw [rows_of_nil hl]
        simp
      · have hrows := toList_ne_nil hl hne
        rw [compareVoteCast_status (mt List.map_eq_nil_iff.1 hne),
          compareVoteCast_status (mt List.map_eq_nil_iff.1 hrows), voteStatus_eq_iff,
          mixesKinds_iff, mixesKinds_iff]
        simp only [exists_evidence, Finset.mem_toList, ne_eq, hne, not_false_eq_true,
          forall_const]
    constructor
    · intro h w hw
      cases hw
      have hrest := fun l hl => (heq l hl).1 fun hne => h l hne hl
      exact
        { vote := kept_iff.2 fun l hl => (hrest l hl).1
          other := fun hvote => kept_iff.2 fun l hl => (hrest l hl).2.1 hvote
          mixed := by
            intro hnot htext hnumber
            have hboth := fun l hl => ((hrest l hl).2.2 hnot).2 ⟨htext, hnumber⟩
            exact ⟨kept_iff.2 fun l hl => iff_of_true (hboth l hl).1 htext,
              kept_iff.2 fun l hl => iff_of_true (hboth l hl).2 hnumber⟩ }
    · intro h l hne hl
      have hkept := h v rfl
      have hsub : ∀ p : GraphEvidence → Bool, (∃ x ∈ l, p (Q.evidence .voteCast x) = true) →
          ∃ x ∈ Q.rows, p (Q.evidence .voteCast x) = true :=
        fun p ⟨x, hx, hpx⟩ => ⟨x, hl.mem_rows hx, hpx⟩
      refine (heq l hl).2 ⟨kept_iff.1 hkept.vote l hl, fun hvote => ?_, fun hnot => ?_⟩ hne
      · exact kept_iff.1 (hkept.other hvote) l hl
      · refine ⟨fun hboth => ⟨hsub _ hboth.1, hsub _ hboth.2⟩, fun hboth => ?_⟩
        obtain ⟨htext, hnumber⟩ := hkept.mixed hnot hboth.1 hboth.2
        exact ⟨(kept_iff.1 htext l hl).2 hboth.1, (kept_iff.1 hnumber l hl).2 hboth.2⟩

end LimitedQuery

/-! ## The three templates -/

section Templates

variable (T : CypherTime) (g : CivicGraph)

/-- `vote_cast.cypher`. -/
def votesQuery (speakerPersonId billId : String) (lo hi : Option ℤ) : LimitedQuery NodeKey where
  rows := votesCast g speakerPersonId billId lo hi
  key v := instantKey (g.nodeProp v .occurredAt)
  limit := 10
  record := voteCastRecord T g speakerPersonId billId
  limit_pos := by decide
  tier _ := rfl

/-- `committee_attendance.cypher`. -/
def attendanceQuery (speakerPersonId committeeId : String) (lo hi : Option ℤ) :
    LimitedQuery RelKey where
  rows := attendedEvents g speakerPersonId committeeId lo hi
  key r := instantKey (g.nodeProp r.2.1 .occurredAt)
  limit := 20
  record r := attendanceRecord T g speakerPersonId committeeId r.2.1
  limit_pos := by decide
  tier _ := rfl

/-- `election_result.cypher`. -/
def electionQuery (partyId : String) (lo hi : Option ℤ) : LimitedQuery NodeKey where
  rows := electionResults g partyId lo hi
  key e := numberKey (g.nodeProp e .knessetNumber)
  limit := 10
  record := electionResultRecord T g partyId
  limit_pos := by decide
  tier _ := rfl

variable {inputs : VerdictInputs}

theorem limitKept_election (hc : inputs.checkability = .checkable)
    (hct : inputs.claimType = .electionResult) (texts : List LexicalEvidence)
    (scope : Option TimeScope) (ids : Dict String) (partyId : String) (lo hi : Option ℤ) :
    LimitKept inputs texts scope ids (ElectionResultAnswer T g partyId lo hi)
        ((electionResults g partyId lo hi).val.map (electionResultRecord T g partyId)) ↔
      (electionQuery T g partyId lo hi).Kept .electionResult
        (electionRowOk inputs.expectedSeats inputs.expectPassedThreshold) := by
  rw [← hct]
  refine LimitedQuery.limitKept_rowStatus (Q := electionQuery T g partyId lo hi) hc texts scope ids
    fun hits => ?_
  unfold compare
  rw [hct]
  exact congrArg Except.ok (compareElectionResult_status _ _)

/-- **When the limit of a template does not change a verdict**: wherever some row decides it, too few
rows that do not may come first to push all those out. -/
theorem limits_kept_iff (hc : inputs.checkability = .checkable) (texts : List LexicalEvidence)
    (scope : Option TimeScope) (ids : Dict String) (lo hi : Option ℤ) :
    (inputs.claimType = .voteCast → ∀ speakerPersonId billId,
      LimitKept inputs texts scope ids (VoteCastAnswer T g speakerPersonId billId lo hi)
          ((votesCast g speakerPersonId billId lo hi).val.map
            (voteCastRecord T g speakerPersonId billId)) ↔
        ∀ v, inputs.expectedVoteValue = some v →
          (votesQuery T g speakerPersonId billId lo hi).VotesKept .voteCast v) ∧
    (inputs.claimType = .committeeAttendance → ∀ speakerPersonId committeeId,
      LimitKept inputs texts scope ids (CommitteeAttendanceAnswer T g speakerPersonId committeeId lo hi)
          ((attendedEvents g speakerPersonId committeeId lo hi).val.map fun r =>
            attendanceRecord T g speakerPersonId committeeId r.2.1) ↔
        (attendanceQuery T g speakerPersonId committeeId lo hi).Kept .committeeAttendance
          isPresent) ∧
    (inputs.claimType = .electionResult → ∀ partyId,
      LimitKept inputs texts scope ids (ElectionResultAnswer T g partyId lo hi)
          ((electionResults g partyId lo hi).val.map (electionResultRecord T g partyId)) ↔
        (electionQuery T g partyId lo hi).Kept .electionResult
          (electionRowOk inputs.expectedSeats inputs.expectPassedThreshold)) := by
  refine ⟨fun hct speaker bill => ?_, fun hct speaker committee => ?_, fun hct party =>
    limitKept_election T g hc hct texts scope ids party lo hi⟩
  · exact LimitedQuery.limitKept_votes (Q := votesQuery T g speaker bill lo hi) hc texts scope ids hct
  · rw [← hct]
    refine LimitedQuery.limitKept_rowStatus (Q := attendanceQuery T g speaker committee lo hi) hc
      texts scope ids fun hits => ?_
    unfold compare
    rw [hct]
    exact congrArg Except.ok compareAttendance_status

end Templates

/-! ## A party in eleven elections -/

/-- The properties of the result in an election: as many seats as the number of the Knesset. -/
def resultProps (knessetNumber : ℕ) : Field → Option Datum
  | .knessetNumber => some (.int knessetNumber)
  | .seatsWon => some (.int knessetNumber)
  | _ => none

def elections : List ℕ := [15, 16, 17, 18, 19, 20, 21, 22, 23, 24, 25]

/-- A party with a result in each of these elections. -/
def electionsGraph : CivicGraph where
  nodes := (⟨(.party, "party"), ⟨0, none, fun _ => none⟩⟩ :: elections.map fun k =>
    ⟨(.electionResult, toString k), ⟨0, none, resultProps k⟩⟩).toFinmap
  rels := (elections.map fun k => ⟨(.forParty, (.electionResult, toString k), (.party, "party")),
    ⟨0, none, fun _ => none⟩⟩).toFinmap
  endpoints r hr := by
    rw [Finmap.mem_list_toFinmap] at hr
    obtain ⟨e, he⟩ := hr
    obtain ⟨k, hk, heq⟩ := List.mem_map.1 he
    cases heq
    rw [Finmap.mem_list_toFinmap, Finmap.mem_list_toFinmap]
    exact ⟨⟨_, List.mem_cons_of_mem _ (List.mem_map_of_mem hk)⟩, ⟨_, List.mem_cons_self⟩⟩

/-- A claim about the party's fifteen seats. -/
def fifteenSeats : VerdictInputs where
  claimId := "claim"
  claimType := .electionResult
  checkability := .checkable
  expectedSeats := some 15

theorem limits_kept_fifteen :
    LimitKept fifteenSeats [] none ∅ (ElectionResultAnswer demoTime electionsGraph "party" none none)
        ((electionResults electionsGraph "party" none none).val.map
          (electionResultRecord demoTime electionsGraph "party")) ↔
      (electionQuery demoTime electionsGraph "party" none none).Kept .electionResult
        (electionRowOk (some 15) none) :=
  (limits_kept_iff demoTime electionsGraph (rfl : fifteenSeats.checkability = .checkable) [] none ∅
    none none).2.2 rfl "party"

/-- The result with fifteen seats is the eleventh from the last. -/
theorem fifteen_seats_cut : ¬LimitKept fifteenSeats [] none ∅
    (ElectionResultAnswer demoTime electionsGraph "party" none none)
    ((electionResults electionsGraph "party" none none).val.map
      (electionResultRecord demoTime electionsGraph "party")) := by
  rw [limitKept_election demoTime electionsGraph rfl rfl]
  intro h
  exact absurd (h (by decide)) (by decide)

end CivicProof
