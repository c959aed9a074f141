import CivicProof.Proof.Reingest
import CivicProof.Proof.Retrieval
import CivicProof.Spec.GraphQueries
import CivicProof.Spec.Pipeline
import Mathlib.Data.Fintype.EquivFin

/-!
# Elections and terms

An election claim that names a Knesset is looked up by the dates of that Knesset's term, but an
election precedes the term it elects. The 24th term contains its own election and the one after
it; the 25th starts after its own.

* `election_judged`: exactly when such a claim is judged by the election it names.
-/

namespace CivicProof

open PropGraph Regex

/-! ## Dates -/

/-- The first second of a day since 1970, counted in years that start in March. -/
def CivilDate.instant (d : CivilDate) : ℤ :=
  let year : ℤ := if d.month ≤ 2 then d.year - 1 else d.year
  let month : ℤ := if d.month ≤ 2 then d.month + 9 else d.month - 3
  let day := 365 * year + year / 4 - year / 100 + year / 400 + (153 * month + 2) / 5 + d.day - 1
  (day - 719468) * 86400

/-- The dates between which the 24th term lies, and those of the two mapped elections. -/
def electionCalendar : List CivilDate :=
  [⟨2020, 12, 22⟩, ⟨2021, 3, 23⟩, ⟨2022, 11, 1⟩, ⟨2022, 11, 15⟩]

/-- `datetime` reads ISO texts of these dates, in UTC where no zone is given. -/
structure ReadsIso (T : CypherTime) : Prop where
  midnight : ∀ d ∈ electionCalendar, T.datetime (d.iso ++ "T00:00:00") = some d.instant
  dayStart : ∀ d ∈ electionCalendar, T.datetime d.dayStart = some d.instant
  dayEnd : ∀ d ∈ electionCalendar, T.datetime d.dayEnd = some (d.instant + 86399)

/-! ## The claim and its retrieval -/

/-- A time phrase that names the `n`-th Knesset, and no day and no month. -/
def NamesKnesset (phrase : Option String) (n : ℕ) : Prop :=
  ∃ p, orNone phrase = some p ∧
    let text := (strip p).toList
    (isoDate.matchAt [] text).isNone ∧ (heMonth.search text).isNone ∧
      ((heTerm.search text).map (groupNat · .n) = some n ∨
        ((heTerm.search text).isNone ∧ (enTerm.search text).map (groupNat · .n) = some n))

/-- The election template on the parameters of a claim. -/
def ElectionRetrieval (T : CypherTime) (g : CivicGraph) (params : Params) (out : List Record) :
    Prop :=
  match params (.slot .partyId), params .timeStart, params .timeEnd with
  | some (some partyId), some start, some stop =>
    match timeBound T start, timeBound T stop with
    | .ok lo, .ok hi => ElectionResultAnswer T g partyId lo hi out
    | _, _ => out = []
  -- a parameter that is not bound refuses the query, and `_retrieve` goes on without rows
  | _, _, _ => out = []

/-- The results of a party in an election. -/
def resultsOf (g : CivicGraph) (partyId : String) (knessetNumber : ℕ) : Finset NodeKey :=
  g.nodes.keys.filter fun e => e.1 = .electionResult ∧ (.forParty, e, (.party, partyId)) ∈ g.rels ∧
    g.nodeProp e .knessetNumber = some (.int knessetNumber)

/-- Every result carries the date that the mapping gives its election. -/
def CarriesElectionDates (T : CypherTime) (g : CivicGraph) : Prop :=
  ∀ e ∈ g.nodes, e.1 = .electionResult → ∃ (k : ℕ) (text : String) (t : ℤ),
    g.nodeProp e .knessetNumber = some (.int k) ∧ getElectionDate k = some text ∧
      T.datetime text = some t ∧ g.nodeProp e .electionDate = some (.instant t)

/-- The rows that the comparison rests on: the first that fits, or all of them. -/
def decidingRows (expectedSeats : Option ℤ) (expectPassedThreshold : Option Bool)
    (hits : List GraphEvidence) : List GraphEvidence :=
  match hits.find? (electionRowOk expectedSeats expectPassedThreshold) with
  | some row => [row]
  | none => hits

/-- The rows that a claim's comparison is made of: those retrieved, ranked among the spans. -/
def electionHits (slots : Slots) (scope : TimeScope) (out : List Record)
    (lexHits : List LexicalEvidence) : List GraphEvidence :=
  graphHits .electionResult
    (rerank ((out.map (recordToEvidence .electionResult)).map .graph ++ lexHits.map .lexical)
      .electionResult (some scope) (VerifyPipeline.resolvedIds slots))

/-- The answer holds the party's results of the `n`-th election, and whatever the claim expects
and the texts say, only rows of that election decide. -/
structure Judged (T : CypherTime) (g : CivicGraph) (n : ℕ) (partyId : String) (slots : Slots)
    (scope : TimeScope) (out : List Record) : Prop where
  retrieved : ∀ e ∈ resultsOf g partyId n, electionResultRecord T g partyId e ∈ out
  decided : ∀ (lexHits : List LexicalEvidence) (expectedSeats : Option ℤ)
    (expectPassedThreshold : Option Bool),
    ∀ row ∈ decidingRows expectedSeats expectPassedThreshold (electionHits slots scope out lexHits),
      row.properties.prop "knesset_number" = .int n

/-- Every election claim about a party that names the `n`-th Knesset is judged by the `n`-th
election. -/
def JudgedByElection (T : CypherTime) (U : Unicode) (g : CivicGraph) (n : ℕ) (partyId : String) :
    Prop :=
  ∀ (phrase : Option String) (ref : CivilDate) (slots : Slots), NamesKnesset phrase n →
    slots .partyId = some partyId → ∀ out,
      ElectionRetrieval T g (graphParams slots (normalizeTimeScope U ref phrase)) out →
        Judged T g n partyId slots (normalizeTimeScope U ref phrase) out

/-- **No other row matters**: the comparison is that of the deciding rows. -/
theorem compareElectionResult_decidingRows (expectedSeats : Option ℤ)
    (expectPassedThreshold : Option Bool) (hits : List GraphEvidence) :
    compareElectionResult expectedSeats expectPassedThreshold
        (decidingRows expectedSeats expectPassedThreshold hits) =
      compareElectionResult expectedSeats expectPassedThreshold hits := by
  unfold decidingRows
  split
  · rename_i row hrow
    have hfits := List.find?_some hrow
    have hne : hits ≠ [] := List.ne_nil_of_mem (List.mem_of_find?_eq_some hrow)
    unfold compareElectionResult
    rw [if_neg (List.cons_ne_nil _ _), if_neg hne, hrow, List.find?_cons_of_pos hfits]
  · rfl

theorem decidingRows_subset (expectedSeats : Option ℤ) (expectPassedThreshold : Option Bool)
    (hits : List GraphEvidence) :
    decidingRows expectedSeats expectPassedThreshold hits ⊆ hits := by
  unfold decidingRows
  split
  · rename_i row hrow
    exact List.cons_subset.2 ⟨List.mem_of_find?_eq_some hrow, List.nil_subset _⟩
  · exact List.Subset.refl _

/-- Some number of seats fits no row, so that all of them decide. -/
theorem exists_decidingRows_all (hits : List GraphEvidence) :
    ∃ seats : ℤ, decidingRows (some seats) none hits = hits := by
  obtain ⟨seats, hseats⟩ := Infinite.exists_notMem_finset
    (hits.filterMap fun row => (row.properties.prop "seats_won").toInt).toFinset
  rw [List.mem_toFinset, List.mem_filterMap] at hseats
  have hnone : hits.find? (electionRowOk (some seats) none) = none := by
    refine List.find?_eq_none.2 fun row hrow hfits => hseats ⟨row, hrow, ?_⟩
    exact of_decide_eq_true (Bool.and_eq_true_iff.1 hfits).1
  refine ⟨seats, ?_⟩
  unfold decidingRows
  rw [hnone]

/-! ## The scope of a Knesset -/

/-- A phrase that names a Knesset of the table is read as its term. -/
theorem NamesKnesset.scope {phrase : Option String} {n : ℕ} (h : NamesKnesset phrase n)
    {scope : TimeScope} (hscope : termScope n = some scope) (U : Unicode) (ref : CivilDate) :
    normalizeTimeScope U ref phrase = scope := by
  obtain ⟨p, hp, hiso, hmonth, hterm⟩ := h
  have hnumber : ∀ {o : Option (Match TimeGroup)}, o.map (groupNat · .n) = some n →
      (o.bind fun m => termScope (groupNat m .n)) = some scope := by
    intro o ho
    obtain ⟨m, rfl, hm⟩ := Option.map_eq_some_iff.1 ho
    exact (congrArg termScope hm).trans hscope
  have hne : (strip p).toList ≠ [] := by
    intro hnil
    rw [hnil] at hterm
    rcases hterm with h | ⟨-, h⟩ <;> cases h
  unfold normalizeTimeScope
  rw [hp]
  dsimp only
  rw [if_neg hne]
  unfold scopeOfText
  rw [Option.isNone_iff_eq_none.1 hiso, Option.isNone_iff_eq_none.1 hmonth]
  dsimp only
  rcases hterm with hhe | ⟨hhe, hen⟩
  · rw [hnumber hhe]
  · rw [Option.isNone_iff_eq_none.1 hhe, hnumber hen]
    rfl

/-- The slots of a claim about a party. -/
def partySlots (partyId : String) : Slots := fun s => if s = .partyId then some partyId else none

theorem namesKnesset_24 : NamesKnesset (some "24th Knesset") 24 :=
  ⟨"24th Knesset", by decide, by decide +kernel⟩

theorem namesKnesset_25 : NamesKnesset (some "25th Knesset") 25 :=
  ⟨"25th Knesset", by decide, by decide +kernel⟩

/-! ## Results by date -/

section Retrieval

variable {T : CypherTime} {g : CivicGraph} {partyId : String} {slots : Slots} {out : List Record}

/-- The scope of a claim about the 24th Knesset. -/
def term24 : TimeScope :=
  ⟨some (CivilDate.dayStart ⟨2020, 12, 22⟩), some (CivilDate.dayEnd ⟨2022, 11, 15⟩), .term⟩

/-- Its first second. -/
def term24Start : ℤ := CivilDate.instant ⟨2020, 12, 22⟩

/-- Its last second. -/
def term24Stop : ℤ := CivilDate.instant ⟨2022, 11, 15⟩ + 86399

theorem mem_resultsOf {e : NodeKey} {k : ℕ} : e ∈ resultsOf g partyId k ↔ e ∈ g.nodes ∧
    e.1 = .electionResult ∧ (.forParty, e, (.party, partyId)) ∈ g.rels ∧
      g.nodeProp e .knessetNumber = some (.int k) := by
  unfold resultsOf
  rw [Finset.mem_filter, Finmap.mem_keys]

theorem numberKey_of_mem {e : NodeKey} {k : ℕ} (he : e ∈ resultsOf g partyId k) :
    numberKey (g.nodeProp e .knessetNumber) = ((k : ℤ) : WithTop ℤ) := by
  rw [(mem_resultsOf.1 he).2.2.2]
  rfl

/-- The elections of the mapping. -/
theorem getElectionDate_eq_some {k : ℕ} {text : String} (h : getElectionDate k = some text) :
    (k = 24 ∧ text = CivilDate.iso ⟨2021, 3, 23⟩ ++ "T00:00:00") ∨
      (k = 25 ∧ text = CivilDate.iso ⟨2022, 11, 1⟩ ++ "T00:00:00") := by
  obtain ⟨entry, hentry, rfl⟩ := Option.map_eq_some_iff.1 h
  unfold electionSection at hentry
  have hnumber := List.find?_some hentry
  rw [decide_eq_true_eq] at hnumber
  have hmem := List.mem_of_find?_eq_some hentry
  simp only [partyListMapping, List.mem_cons, List.not_mem_nil, or_false] at hmem
  rcases hmem with rfl | rfl
  · exact Or.inl ⟨hnumber.symm, by decide⟩
  · exact Or.inr ⟨hnumber.symm, by decide⟩

/-- **The 24th term contains two elections.** -/
theorem electionResults_term24 (hT : ReadsIso T) (hg : CarriesElectionDates T g) :
    electionResults g partyId (some term24Start) (some term24Stop) =
      resultsOf g partyId 24 ∪ resultsOf g partyId 25 := by
  ext e
  rw [Finset.mem_union, mem_resultsOf, mem_resultsOf]
  unfold electionResults
  rw [Finset.mem_filter, Finmap.mem_keys]
  constructor
  · rintro ⟨he, hlabel, hparty, -⟩
    obtain ⟨k, text, t, hk, htext, -, -⟩ := hg e he hlabel
    rcases getElectionDate_eq_some htext with ⟨rfl, -⟩ | ⟨rfl, -⟩
    · exact Or.inl ⟨he, hlabel, hparty, hk⟩
    · exact Or.inr ⟨he, hlabel, hparty, hk⟩
  · intro h
    have hnode : e ∈ g.nodes ∧ e.1 = .electionResult ∧
        (RelType.forParty, e, (Label.party, partyId)) ∈ g.rels := by
      rcases h with ⟨he, hlabel, hparty, -⟩ | ⟨he, hlabel, hparty, -⟩
      · exact ⟨he, hlabel, hparty⟩
      · exact ⟨he, hlabel, hparty⟩
    obtain ⟨he, hlabel, hparty⟩ := hnode
    refine ⟨he, hlabel, hparty, ?_⟩
    obtain ⟨k, text, t, -, htext, ht, hdate⟩ := hg e he hlabel
    unfold datedWithin
    rw [hdate]
    -- both dates lie in the term
    rcases getElectionDate_eq_some htext with ⟨-, rfl⟩ | ⟨-, rfl⟩
    · rw [hT.midnight _ (by decide)] at ht
      cases ht
      decide
    · rw [hT.midnight _ (by decide)] at ht
      cases ht
      decide

/-- The retrieval of a claim about the 24th Knesset. -/
theorem electionRetrieval_24 (hT : ReadsIso T) (hslots : slots .partyId = some partyId) :
    ElectionRetrieval T g (graphParams slots term24) out ↔
      ElectionResultAnswer T g partyId (some term24Start) (some term24Stop) out := by
  have hparty : graphParams slots term24 (.slot .partyId) = some (some partyId) :=
    congrArg some hslots
  have hstart : graphParams slots term24 .timeStart =
      some (some (CivilDate.dayStart ⟨2020, 12, 22⟩)) := by
    unfold term24 graphParams
    rw [orNone_isSome (dayStart_ne_empty _)]
    rfl
  have hstop : graphParams slots term24 .timeEnd =
      some (some (CivilDate.dayEnd ⟨2022, 11, 15⟩)) := by
    unfold term24 graphParams
    rw [orNone_isSome (dayEnd_ne_empty _)]
    rfl
  unfold ElectionRetrieval timeBound
  rw [hparty, hstart, hstop]
  dsimp only
  rw [hT.dayStart _ (by decide), hT.dayEnd _ (by decide)]
  rfl

/-- The query of a claim about the 25th Knesset is refused: its term has no end. -/
theorem electionRetrieval_25 :
    ElectionRetrieval T g (graphParams slots currentTermScope) out ↔ out = [] := by
  have hstop : graphParams slots currentTermScope .timeEnd = none := rfl
  unfold ElectionRetrieval
  rw [hstop]
  split
  · rename_i h
    cases h
  · rfl

theorem mem_electionHits {scope : TimeScope} {lexHits : List LexicalEvidence} {row : GraphEvidence} :
    row ∈ electionHits slots scope out lexHits ↔
      ∃ r ∈ out, recordToEvidence .electionResult r = row := by
  unfold electionHits
  rw [(graphHits_retrieved _ lexHits .electionResult _ _).mem_iff, List.mem_filter, List.mem_map]
  refine ⟨And.left, fun h => ⟨h, ?_⟩⟩
  obtain ⟨r, -, rfl⟩ := h
  exact decide_eq_true rfl

/-- A row shows the number of its election. -/
theorem electionRow_number {e : NodeKey} {k : ℕ} (he : e ∈ resultsOf g partyId k) :
    (recordToEvidence .electionResult (electionResultRecord T g partyId e)).properties.prop
      "knesset_number" = .int k := by
  change returned (g.nodeProp e .knessetNumber) = _
  rw [(mem_resultsOf.1 he).2.2.2]
  rfl

theorem electionResultRecord_injOn {e e' : NodeKey} (he : e.1 = .electionResult)
    (he' : e'.1 = .electionResult)
    (h : electionResultRecord T g partyId e = electionResultRecord T g partyId e') : e = e' := by
  have hid : (Value.str e.2) = .str e'.2 := by
    have hids := congrArg (fun r => (r.nodeIds.getD ∅).prop "election_result_id") h
    exact hids
  exact Prod.ext (he.trans he'.symm) (Value.str.inj hid)

variable {U : Unicode}

/-- A result of the next election comes first, and with an expectation that fits no row it
decides as well. -/
theorem not_judged_of_next (hT : ReadsIso T) (hg : CarriesElectionDates T g) {e : NodeKey}
    (he : e ∈ resultsOf g partyId 25) (slots : Slots) :
    ∃ out, ElectionResultAnswer T g partyId (some term24Start) (some term24Stop) out ∧
      ¬Judged T g 24 partyId slots term24 out := by
  have hanswer : ∃ l, PropGraph.Answer (descending fun e => numberKey (g.nodeProp e .knessetNumber)) 10
      (electionResults g partyId (some term24Start) (some term24Stop)).val l := exists_answer 10 _
  obtain ⟨l, hl⟩ := hanswer
  have hrows : electionResults g partyId (some term24Start) (some term24Stop) =
      resultsOf g partyId 24 ∪ resultsOf g partyId 25 := electionResults_term24 hT hg
  have hrow : e ∈ electionResults g partyId (some term24Start) (some term24Stop) := by
    rw [hrows]
    exact Finset.mem_union_right _ he
  obtain ⟨first, hfirst, hbefore⟩ := hl.exists_before hrow
  have hnext : first ∈ resultsOf g partyId 25 := by
    have hmem : first ∈ electionResults g partyId (some term24Start) (some term24Stop) :=
      hl.mem_rows hfirst
    rw [hrows, Finset.mem_union] at hmem
    rcases hmem with h24 | h25
    · rcases hbefore with rfl | hbefore
      · exact he
      · -- the numbers descend
        have hle : numberKey (g.nodeProp e .knessetNumber) ≤
            numberKey (g.nodeProp first .knessetNumber) := hbefore
        rw [numberKey_of_mem he, numberKey_of_mem h24] at hle
        exact absurd (WithTop.coe_le_coe.1 hle) (by decide)
    · exact h25
  refine ⟨_, ⟨l, hl, rfl⟩, fun hjudged => ?_⟩
  obtain ⟨seats, hall⟩ := exists_decidingRows_all
    (electionHits slots term24 (l.map (electionResultRecord T g partyId)) [])
  have hdecides := hjudged.decided [] (some seats) none _
    (hall.symm ▸ mem_electionHits.2 ⟨_, List.mem_map_of_mem hfirst, rfl⟩)
  rw [electionRow_number hnext] at hdecides
  exact absurd (Value.int.inj hdecides) (by decide)

/-- Of more than ten results of one election any may be missing. -/
theorem not_judged_of_card (hT : ReadsIso T) (hg : CarriesElectionDates T g)
    (hnext : resultsOf g partyId 25 = ∅) (hcard : 10 < (resultsOf g partyId 24).card)
    (slots : Slots) :
    ∃ out, ElectionResultAnswer T g partyId (some term24Start) (some term24Stop) out ∧
      ¬Judged T g 24 partyId slots term24 out := by
  have hrows : electionResults g partyId (some term24Start) (some term24Stop) =
      resultsOf g partyId 24 := by
    rw [electionResults_term24 hT hg, hnext, Finset.union_empty]
  obtain ⟨e, he⟩ := Finset.card_pos.1 (Nat.zero_lt_of_lt hcard)
  have hties : ∀ x ∈ (resultsOf g partyId 24).val, ∀ y ∈ (resultsOf g partyId 24).val,
      descending (fun e => numberKey (g.nodeProp e .knessetNumber)) x y := by
    intro x hx y hy
    exact ((numberKey_of_mem hy).trans (numberKey_of_mem hx).symm).le
  obtain ⟨l, hl, hmiss⟩ := exists_answer_omits hties he (resultsOf g partyId 24).nodup hcard
  refine ⟨_, ⟨l, hrows.symm ▸ hl, rfl⟩, fun hjudged => hmiss ?_⟩
  obtain ⟨e', he', heq⟩ := List.mem_map.1 (hjudged.retrieved e he)
  have hlabel : e'.1 = .electionResult := (mem_resultsOf.1 (hl.mem_rows he')).2.1
  exact electionResultRecord_injOn hlabel (mem_resultsOf.1 he).2.1 heq ▸ he'

/-- Otherwise the answer is the party's results of the 24th election. -/
theorem judged_24 (hT : ReadsIso T) (hg : CarriesElectionDates T g)
    (hnext : resultsOf g partyId 25 = ∅) (hcard : (resultsOf g partyId 24).card ≤ 10)
    (hout : ElectionResultAnswer T g partyId (some term24Start) (some term24Stop) out) :
    Judged T g 24 partyId slots term24 out := by
  obtain ⟨l, hl, rfl⟩ := hout
  rw [electionResults_term24 hT hg, hnext, Finset.union_empty] at hl
  have hmem : ∀ e, e ∈ l ↔ e ∈ resultsOf g partyId 24 := by
    intro e
    rw [← Finset.mem_val, ← hl.coe_of_card_le hcard, Multiset.mem_coe]
  constructor
  · exact fun e he => List.mem_map_of_mem ((hmem e).2 he)
  · intro lexHits seats passed row hrow
    obtain ⟨r, hr, rfl⟩ := mem_electionHits.1 (decidingRows_subset _ _ _ hrow)
    obtain ⟨e, he, rfl⟩ := List.mem_map.1 hr
    exact electionRow_number ((hmem e).1 he)

/-- A claim about the 25th Knesset finds nothing. -/
theorem not_judged_25 (hparty : (resultsOf g partyId 25).Nonempty) :
    ¬JudgedByElection T U g 25 partyId := by
  intro h
  obtain ⟨e, he⟩ := hparty
  have hscope : termScope 25 = some currentTermScope := by decide
  have hjudged := h _ ⟨2023, 1, 1⟩ (partySlots partyId) namesKnesset_25 (if_pos rfl) []
  rw [namesKnesset_25.scope hscope] at hjudged
  exact List.not_mem_nil ((hjudged (electionRetrieval_25.2 rfl)).retrieved e he)

end Retrieval

/-- **An election claim is judged by the election it names** only for the 24th Knesset, and for a
party without a result in the next election and with at most ten in this one. -/
theorem election_judged {T : CypherTime} (hT : ReadsIso T) (U : Unicode) {g : CivicGraph}
    (hg : CarriesElectionDates T g) {n : ℕ} (hn : (electionSection n).isSome) {partyId : String}
    (hparty : (resultsOf g partyId n).Nonempty) :
    JudgedByElection T U g n partyId ↔
      n = 24 ∧ resultsOf g partyId 25 = ∅ ∧ (resultsOf g partyId 24).card ≤ 10 := by
  have hslots : partySlots partyId .partyId = some partyId := if_pos rfl
  have hscope : termScope 24 = some term24 := by decide
  constructor
  · intro h
    obtain ⟨text, htext⟩ : ∃ text, getElectionDate n = some text :=
      Option.isSome_iff_exists.1 (Option.isSome_map.trans hn)
    rcases getElectionDate_eq_some htext with ⟨rfl, -⟩ | ⟨rfl, -⟩
    · have hjudged : ∀ out,
          ElectionResultAnswer T g partyId (some term24Start) (some term24Stop) out →
            Judged T g 24 partyId (partySlots partyId) term24 out := by
        intro out hout
        rw [← namesKnesset_24.scope hscope U ⟨2022, 11, 15⟩]
        refine h _ _ _ namesKnesset_24 hslots out ?_
        rw [namesKnesset_24.scope hscope]
        exact (electionRetrieval_24 hT hslots).2 hout
      have hnext : resultsOf g partyId 25 = ∅ := by
        refine Finset.eq_empty_of_forall_notMem fun e he => ?_
        obtain ⟨out, hout, hnot⟩ := not_judged_of_next hT hg he (partySlots partyId)
        exact hnot (hjudged out hout)
      refine ⟨rfl, hnext, ?_⟩
      by_contra hcard
      obtain ⟨out, hout, hnot⟩ :=
        not_judged_of_card hT hg hnext (not_le.1 hcard) (partySlots partyId)
      exact hnot (hjudged out hout)
    · exact absurd h (not_judged_25 hparty)
  · rintro ⟨rfl, hnext, hcard⟩ phrase ref slots hphrase hslots out hout
    rw [hphrase.scope hscope] at hout ⊢
    exact judged_24 hT hg hnext hcard ((electionRetrieval_24 hT hslots).1 hout)

/-! ## The Likud in two elections, as two factions -/

/-- Reads the texts of the election calendar. -/
def calendarTime : CypherTime where
  datetime s := (electionCalendar.flatMap fun d => [(d.iso ++ "T00:00:00", d.instant),
    (d.dayStart, d.instant), (d.dayEnd, d.instant + 86399)]).lookup s
  text t := toString t

theorem calendarTime_readsIso : ReadsIso calendarTime :=
  ⟨by decide, by decide +kernel, by decide +kernel⟩

/-- The results of the list `מחל` in an election. -/
def likudResults (knessetNumber : ℕ) : List NormalizedElectionResult :=
  (normalizeElectionResult demoEnv
    { listName := "הליכוד", ballotLetters := "מחל", seatsWon := 30, voteSharePct := "24.19",
      votes := 1066892 }
    { knessetNumber, electionDate := (getElectionDate knessetNumber).getD "",
      totalValidVotes := 4410052 }).getD []

def likudGraph : CivicGraph :=
  run (fun _ => 0)
    ((likudResults 24 ++ likudResults 25).flatMap (upsertElectionResult calendarTime)) ∅

theorem likudGraph_dates : CarriesElectionDates calendarTime likudGraph := by
  intro e he hlabel
  have hnodes : ∀ e ∈ likudGraph.nodes.keys, e.1 = .electionResult →
      e = (.electionResult, "cec_election:24:מחל") ∨ e = (.electionResult, "cec_election:25:מחל") := by
    decide
  rcases hnodes e (Finmap.mem_keys.2 he) hlabel with rfl | rfl
  · exact ⟨24, "2021-03-23T00:00:00", 1616457600, by decide⟩
  · exact ⟨25, "2022-11-01T00:00:00", 1667260800, by decide⟩

theorem likud_25_nonempty : (resultsOf likudGraph "knesset_party:1096" 25).Nonempty :=
  ⟨(.electionResult, "cec_election:25:מחל"), by decide⟩

theorem election_judged_24 :
    JudgedByElection calendarTime demoEnv.unicode likudGraph 24 "knesset_party:962" ↔
      24 = 24 ∧ resultsOf likudGraph "knesset_party:962" 25 = ∅ ∧
        (resultsOf likudGraph "knesset_party:962" 24).card ≤ 10 :=
  election_judged calendarTime_readsIso demoEnv.unicode likudGraph_dates (by decide)
    ⟨(.electionResult, "cec_election:24:מחל"), by decide⟩

/-- The result of the 25th election is in the graph under its date. -/
theorem election_25_unjudged : CarriesElectionDates calendarTime likudGraph ∧
    (resultsOf likudGraph "knesset_party:1096" 25).Nonempty ∧
      ¬JudgedByElection calendarTime demoEnv.unicode likudGraph 25 "knesset_party:1096" :=
  ⟨likudGraph_dates, likud_25_nonempty, not_judged_25 likud_25_nonempty⟩

end CivicProof
