import CivicProof.Regex.Places
import CivicProof.Spec.ElectionPage
import Mathlib.Data.List.ReduceOption

/-!
# The electoral threshold

A list is marked as having passed by 3.25% of the valid votes as the summary table gives them; the
votes of the lists stand in another table.

* `validVotes_eq`: the base is the number in the summary row, and zero where that cannot be read.
* `pageRows_votes_nonneg`: a list never has fewer votes than none.
* `passes_iff`: with the rule exact, the rounded threshold decides as the fraction does.
* `passed_sound_iff`: the pages on which a mark of passing stands for 3.25% of the votes of all
  lists. Without a readable base every list is marked.
-/

namespace CivicProof

open Regex Re

/-! ## All of a list -/

section

variable {α β : Type} {f : α → Option β} {l : List α}

theorem mem_mapM {ys : List β} (h : l.mapM f = some ys) {y : β} :
    y ∈ ys ↔ ∃ x ∈ l, f x = some y := by
  induction l generalizing ys with
  | nil =>
    obtain rfl := Option.some.inj h
    simp
  | cons x l ih =>
    rw [List.mapM_cons] at h
    obtain ⟨z, hz, h⟩ := Option.bind_eq_some_iff.1 h
    obtain ⟨zs, hzs, h⟩ := Option.bind_eq_some_iff.1 h
    obtain rfl := Option.some.inj h
    rw [List.mem_cons, ih hzs, List.exists_mem_cons_iff, hz, Option.some.injEq, eq_comm]

theorem exists_mapM (h : ∀ x ∈ l, ∃ y, f x = some y) : ∃ ys, l.mapM f = some ys := by
  induction l with
  | nil => exact ⟨[], rfl⟩
  | cons x l ih =>
    obtain ⟨y, hy⟩ := h x List.mem_cons_self
    obtain ⟨ys, hys⟩ := ih fun z hz => h z (List.mem_cons_of_mem _ hz)
    exact ⟨y :: ys, by rw [List.mapM_cons, hy, hys]; rfl⟩

end

/-! ## The votes of a list -/

/-- A number written without a minus sign is not negative. -/
theorem parseInt_nonneg {s : String} {n : ℤ} (hs : '-' ∉ s.toList) (h : parseInt s = some n) :
    0 ≤ n := by
  unfold parseInt at h
  split at h
  · rename_i cs hcs
    exact absurd (mem_of_mem_strip (hcs ▸ List.mem_cons_self)) hs
  all_goals
    obtain ⟨k, -, rfl⟩ := Option.map_eq_some_iff.1 h
    exact Int.natCast_nonneg k

theorem parseIntLimited_nonneg {s : String} {n : ℤ} (hs : '-' ∉ s.toList)
    (h : parseIntLimited s = some n) : 0 ≤ n := by
  unfold parseIntLimited at h
  split at h
  · cases h
  · exact parseInt_nonneg hs h

/-- What stands in a votes cell is made of digits and commas. -/
theorem floatDir_marks {cell : List Char} {m : Match Unit} (h : floatDir.search cell = some m) :
    ∀ c ∈ m.text (), isVotesMark c = true := by
  obtain ⟨u, v, -, hm, -⟩ := search_eq_some h
  obtain ⟨w, post, g', -, hmatch, rfl⟩ := matchAt_sound hm
  have hcaptures : floatDir.Captures () fun w => ∀ c ∈ w, isVotesMark c = true := by
    refine Or.inr (Or.inr (Or.inl ⟨⟨rfl, ?_⟩, ?_⟩))
    · rintro g pre w post g' ⟨hrun, -⟩
      exact hrun.1
    · exact Bool.and_eq_true_iff.2 ⟨rfl, avoids_lit⟩
  obtain ⟨text, hgroup, htext⟩ := hcaptures.exists_group hmatch
  unfold Match.text
  dsimp only
  rw [hgroup]
  exact htext

theorem cellVotes_nonneg {cell : List Char} {votes : ℤ} (h : cellVotes cell = some votes) :
    0 ≤ votes := by
  unfold cellVotes at h
  split at h
  · rename_i m hm
    refine parseIntLimited_nonneg (fun hmem => ?_) h
    unfold dropMarks at hmem
    rw [String.toList_ofList] at hmem
    have hmark := floatDir_marks hm '-' (List.mem_of_mem_filter hmem)
    revert hmark
    decide
  · exact Int.le_of_eq (Option.some.inj h)

theorem parseChunk_votes_nonneg {chunk : List Char} {row : ParsedElectionRow}
    (h : parseChunk chunk = some (some row)) : 0 ≤ row.votes := by
  unfold parseChunk at h
  split at h
  · cases h
  · split at h
    · dsimp only at h
      split at h
      · cases h
      · split at h
        · cases h
        · obtain ⟨votes, hvotes, hrow⟩ := Option.map_eq_some_iff.1 h
          obtain rfl := Option.some.inj hrow
          exact cellVotes_nonneg hvotes
    · cases h

/-- **A list never has fewer votes than none.** -/
theorem pageRows_votes_nonneg {content : List Char} {rows : List ParsedElectionRow}
    (h : pageRows content = some rows) {row : ParsedElectionRow} (hrow : row ∈ rows) :
    0 ≤ row.votes := by
  unfold pageRows at h
  split at h
  · unfold parseTbody at h
    obtain ⟨found, hfound, rfl⟩ := Option.map_eq_some_iff.1 h
    obtain ⟨chunk, -, hchunk⟩ := (mem_mapM hfound).1 (List.reduceOption_mem_iff.1 hrow)
    exact parseChunk_votes_nonneg hchunk
  · obtain rfl := Option.some.inj h
    cases hrow

/-! ## The base of the threshold -/

/-- The valid votes of a page, where they can be read: the summary table is there, its row has four
numbers, and the first, the second and the fourth of them are integers. -/
def validTotal (content : List Char) : Option ℤ :=
  (summaryTable.search content).bind fun m =>
    let nums := summaryNumbers (m.text ())
    (nums[0]?.bind parseIntLimited).bind fun _ =>
      (nums[1]?.bind parseIntLimited).bind fun _ => nums[3]?.bind parseIntLimited

theorem readTotals_validVotes (nums : List String) : (readTotals nums).validVotes =
    ((nums[0]?.bind parseIntLimited).bind fun _ =>
      (nums[1]?.bind parseIntLimited).bind fun _ => nums[3]?.bind parseIntLimited).getD 0 := by
  unfold readTotals numberAt
  rcases nums with _ | ⟨a, _ | ⟨b, _ | ⟨c, _ | ⟨d, nums⟩⟩⟩⟩
  · rfl
  · cases ha : parseIntLimited a <;> simp [ha]
  · cases ha : parseIntLimited a <;> cases hb : parseIntLimited b <;> simp [ha, hb]
  · cases ha : parseIntLimited a <;> cases hb : parseIntLimited b <;> simp [ha, hb]
  · cases ha : parseIntLimited a <;> cases hb : parseIntLimited b <;>
      cases hd : parseIntLimited d <;> simp [ha, hb, hd]
    split <;> rfl

/-- **The base of the threshold** is the number in the summary row, and zero where that cannot be
read. -/
theorem validVotes_eq (content : List Char) :
    (summaryTotals content).validVotes = (validTotal content).getD 0 := by
  unfold summaryTotals validTotal
  cases summaryTable.search content with
  | none => rfl
  | some m => exact readTotals_validVotes _

/-! ## The marks of a page -/

/-- The rounded threshold decides as the fraction does. -/
theorem passes_iff (total votes : ℤ) :
    ⌈(total : ℚ) * (325 / 10000)⌉ ≤ votes ↔ 325 * total ≤ 10000 * votes := by
  rw [Int.ceil_le]
  constructor
  · intro h
    have hq : (325 : ℚ) * total ≤ 10000 * votes := by linarith
    exact_mod_cast hq
  · intro h
    have hq : (325 : ℚ) * total ≤ 10000 * votes := by exact_mod_cast h
    linarith

variable {E : IngestEnv}

/-- What a result says of the row that it comes from. -/
theorem normalizeElectionResult_spec {row : ParsedElectionRow} {page : ParsedElectionPage}
    {l : List NormalizedElectionResult} {r : NormalizedElectionResult}
    (h : normalizeElectionResult E.exactThreshold row page = some l) (hr : r ∈ l) :
    row.ballotLetters ≠ "" ∧ (electionSection page.knessetNumber).isSome ∧ r.votes = row.votes ∧
      (r.passedThreshold = true ↔ 325 * page.totalValidVotes ≤ 10000 * r.votes) := by
  unfold normalizeElectionResult at h
  split at h
  · obtain rfl := Option.some.inj h
    cases hr
  · rename_i hletters
    obtain ⟨party, hparty, rfl⟩ := Option.map_eq_some_iff.1 h
    obtain ⟨s, hs, -⟩ := Option.map_eq_some_iff.1 hparty
    obtain rfl := List.mem_singleton.1 hr
    refine ⟨hletters, Option.isSome_iff_exists.2 ⟨s, hs⟩, rfl, ?_⟩
    rw [decide_eq_true_iff]
    exact passes_iff _ _

/-- A list with ballot letters has a result, in an election that the mapping knows. -/
theorem exists_normalizeElectionResult (row : ParsedElectionRow) {page : ParsedElectionPage}
    (hs : (electionSection page.knessetNumber).isSome) :
    ∃ l, normalizeElectionResult E.exactThreshold row page = some l ∧
      (row.ballotLetters ≠ "" → l ≠ []) := by
  obtain ⟨s, hs⟩ := Option.isSome_iff_exists.1 hs
  unfold normalizeElectionResult resolvePartyId
  rw [hs]
  split
  · rename_i hletters
    exact ⟨[], rfl, fun h => absurd hletters h⟩
  · exact ⟨_, rfl, fun _ => List.cons_ne_nil _ _⟩

variable {page : ParsedResultsPage} {results : List NormalizedElectionResult}

theorem mem_normalizePage (h : normalizePage E.exactThreshold page = some results)
    {r : NormalizedElectionResult} : r ∈ results ↔ ∃ row ∈ page.rows, ∃ l,
      normalizeElectionResult E.exactThreshold row page.toParsedElectionPage = some l ∧ r ∈ l := by
  unfold normalizePage at h
  obtain ⟨ls, hls, rfl⟩ := Option.map_eq_some_iff.1 h
  rw [List.mem_flatten]
  constructor
  · rintro ⟨l, hl, hr⟩
    obtain ⟨row, hrow, hresult⟩ := (mem_mapM hls).1 hl
    exact ⟨row, hrow, l, hresult, hr⟩
  · rintro ⟨row, hrow, l, hresult, hr⟩
    exact ⟨l, (mem_mapM hls).2 ⟨row, hrow, hresult⟩, hr⟩

/-- Every result is that of a list with ballot letters. -/
theorem normalizePage_row (h : normalizePage E.exactThreshold page = some results)
    {r : NormalizedElectionResult} (hr : r ∈ results) : ∃ row ∈ page.rows, row.ballotLetters ≠ "" ∧
      (electionSection page.knessetNumber).isSome ∧ r.votes = row.votes ∧
      (r.passedThreshold = true ↔ 325 * page.totalValidVotes ≤ 10000 * r.votes) := by
  obtain ⟨row, hrow, l, hresult, hrl⟩ := (mem_normalizePage h).1 hr
  exact ⟨row, hrow, normalizeElectionResult_spec hresult hrl⟩

/-- Every list with ballot letters has a result. -/
theorem normalizePage_result (h : normalizePage E.exactThreshold page = some results)
    (hs : (electionSection page.knessetNumber).isSome) {row : ParsedElectionRow}
    (hrow : row ∈ page.rows) (hletters : row.ballotLetters ≠ "") :
    ∃ r ∈ results, r.votes = row.votes ∧
      (r.passedThreshold = true ↔ 325 * page.totalValidVotes ≤ 10000 * r.votes) := by
  obtain ⟨l, hresult, hne⟩ := exists_normalizeElectionResult (E := E) row hs
  obtain ⟨r, hr⟩ := List.exists_mem_of_ne_nil l (hne hletters)
  exact ⟨r, (mem_normalizePage h).2 ⟨row, hrow, l, hresult, hr⟩,
    (normalizeElectionResult_spec hresult hr).2.2⟩

theorem exists_normalizePage (hs : (electionSection page.knessetNumber).isSome) :
    ∃ results, normalizePage E.exactThreshold page = some results := by
  have hrows : ∀ row ∈ page.rows, ∃ l,
      normalizeElectionResult E.exactThreshold row page.toParsedElectionPage = some l :=
    fun row _ => (exists_normalizeElectionResult row hs).imp fun _ h => h.1
  obtain ⟨ls, hls⟩ := exists_mapM hrows
  exact ⟨ls.flatten, by unfold normalizePage; rw [hls]; rfl⟩

/-! ## Soundness -/

/-- The votes of all lists. -/
def votesSum (rows : List ParsedElectionRow) : ℤ := (rows.map (·.votes)).sum

/-- **The marks of a page are sound**: a list that is marked has 3.25% of the votes of all lists,
and without readable totals not every list is marked. -/
def PassedSound (E : IngestEnv) (htmlBytes : List UInt8) (knessetNumber : ℕ) (electionDate : String) :
    Prop :=
  ∀ page results, parseElectionPage htmlBytes knessetNumber electionDate = some page →
    normalizePage E page = some results →
      (∀ r ∈ results, r.passedThreshold = true → 325 * votesSum page.rows ≤ 10000 * r.votes) ∧
      (validTotal (decodeUtf8 htmlBytes) = none → results ≠ [] →
        ∃ r ∈ results, r.passedThreshold = false)

/-- The summary row gives a base, and no list with ballot letters has 3.25% of it without having
3.25% of the votes of all lists. -/
def BaseHolds (content : List Char) (rows : List ParsedElectionRow) : Prop :=
  ∃ total, validTotal content = some total ∧ ∀ row ∈ rows, row.ballotLetters ≠ "" →
    ¬(325 * total ≤ 10000 * row.votes ∧ 10000 * row.votes < 325 * votesSum rows)

theorem parseElectionPage_spec {htmlBytes : List UInt8} {knessetNumber : ℕ} {electionDate : String}
    (h : parseElectionPage htmlBytes knessetNumber electionDate = some page) :
    pageRows (decodeUtf8 htmlBytes) = some page.rows ∧ page.knessetNumber = knessetNumber ∧
      page.totalValidVotes = (validTotal (decodeUtf8 htmlBytes)).getD 0 := by
  unfold parseElectionPage at h
  obtain ⟨rows, hrows, rfl⟩ := Option.map_eq_some_iff.1 h
  exact ⟨hrows, rfl, validVotes_eq _⟩

theorem exists_parseElectionPage {htmlBytes : List UInt8} {rows : List ParsedElectionRow}
    (h : pageRows (decodeUtf8 htmlBytes) = some rows) (knessetNumber : ℕ) (electionDate : String) :
    ∃ page, parseElectionPage htmlBytes knessetNumber electionDate = some page ∧ page.rows = rows := by
  unfold parseElectionPage
  dsimp only
  rw [h]
  exact ⟨_, rfl, rfl⟩

/-- **Without a readable base every list is marked.** -/
theorem all_passed_of_unread {htmlBytes : List UInt8} {knessetNumber : ℕ} {electionDate : String}
    (hpage : parseElectionPage htmlBytes knessetNumber electionDate = some page)
    (hresults : normalizePage E.exactThreshold page = some results)
    (hunread : validTotal (decodeUtf8 htmlBytes) = none) {r : NormalizedElectionResult}
    (hr : r ∈ results) : r.passedThreshold = true := by
  obtain ⟨hrows, -, htotal⟩ := parseElectionPage_spec hpage
  obtain ⟨row, hrow, -, -, hvotes, hpassed⟩ := normalizePage_row hresults hr
  have hpos := pageRows_votes_nonneg hrows hrow
  rw [hunread, Option.getD_none] at htotal
  exact hpassed.2 (by omega)

/-- A base as large as the votes of all lists holds. -/
theorem baseHolds_of_sum_le {content : List Char} {rows : List ParsedElectionRow} {total : ℤ}
    (h : validTotal content = some total) (hle : votesSum rows ≤ total) : BaseHolds content rows :=
  ⟨total, h, fun _ _ _ _ => by omega⟩

variable (E)

/-- **When the marks of passing are sound**: where a page can be parsed and its election is known,
the summary row gives a base that holds for the lists, or no list has ballot letters. -/
theorem passed_sound_iff (htmlBytes : List UInt8) (knessetNumber : ℕ) (electionDate : String) :
    PassedSound E.exactThreshold htmlBytes knessetNumber electionDate ↔
      ∀ rows, pageRows (decodeUtf8 htmlBytes) = some rows → (electionSection knessetNumber).isSome →
        (∃ row ∈ rows, row.ballotLetters ≠ "") → BaseHolds (decodeUtf8 htmlBytes) rows := by
  constructor
  · rintro h rows hrows hs ⟨first, hfirst, hletters⟩
    obtain ⟨page, hpage, rfl⟩ := exists_parseElectionPage hrows knessetNumber electionDate
    obtain ⟨-, rfl, htotal⟩ := parseElectionPage_spec hpage
    obtain ⟨results, hresults⟩ := exists_normalizePage (E := E) hs
    obtain ⟨hsound, hunread⟩ := h page results hpage hresults
    cases hread : validTotal (decodeUtf8 htmlBytes) with
    | none =>
      obtain ⟨r, hr, -⟩ := normalizePage_result hresults hs hfirst hletters
      obtain ⟨r, hr, hfailed⟩ := hunread hread (List.ne_nil_of_mem hr)
      rw [all_passed_of_unread hpage hresults hread hr] at hfailed
      cases hfailed
    | some total =>
      rw [hread, Option.getD_some] at htotal
      refine ⟨total, hread, fun row hrow hl hbetween => ?_⟩
      obtain ⟨r, hr, hvotes, hpassed⟩ := normalizePage_result hresults hs hrow hl
      have hpass := hsound r hr (hpassed.2 (by omega))
      omega
  · intro h page results hpage hresults
    obtain ⟨hrows, rfl, htotal⟩ := parseElectionPage_spec hpage
    constructor
    · intro r hr hpass
      obtain ⟨row, hrow, hl, hs, hvotes, hpassed⟩ := normalizePage_row hresults hr
      obtain ⟨total, hread, hholds⟩ := h page.rows hrows hs ⟨row, hrow, hl⟩
      rw [hread, Option.getD_some] at htotal
      have hbase := hpassed.1 hpass
      have hnot := hholds row hrow hl
      omega
    · intro hunread hne
      obtain ⟨r, hr⟩ := List.exists_mem_of_ne_nil results hne
      obtain ⟨row, hrow, hl, hs, -⟩ := normalizePage_row hresults hr
      obtain ⟨total, hread, -⟩ := h page.rows hrows hs ⟨row, hrow, hl⟩
      rw [hunread] at hread
      cases hread

/-! ## A page without its summary table -/

/-- A row of the results table. -/
def tableRow (letters votes : List Char) : List Char :=
  "<tr><td scope=\"row\">List</td><td>".toList ++ letters ++
    "</td><td>0</td><td>1%</td><td><div class=\"FloatDir\">".toList ++ votes ++
    "</div></td></tr>".toList

/-- A results table with two lists, of one and of 99 votes. -/
def twoLists : List Char :=
  "<tbody>".toList ++ tableRow ['a'] ['1'] ++ tableRow ['b'] ['9', '9'] ++ "</tbody>".toList

/-- A page with that table, and no summary table. -/
def pageWithoutTotals : List UInt8 := twoLists.map fun c => UInt8.ofNat c.toNat

theorem decode_pageWithoutTotals : decodeUtf8 pageWithoutTotals = twoLists :=
  decodeUtf8_ascii (by decide +kernel)

theorem twoLists_rows : (pageRows twoLists).map
    (fun rows => rows.map fun row => (row.ballotLetters, row.votes)) = some [("a", 1), ("b", 99)] := by
  decide +kernel

/-- **One vote of a hundred passes the threshold** on a page without its summary table. -/
theorem passedSound_fails : ¬∃ E : IngestEnv,
    PassedSound E.exactThreshold pageWithoutTotals 25 "2022-11-01T00:00:00" := by
  rintro ⟨E, h⟩
  obtain ⟨rows, hrows, hlists⟩ := Option.map_eq_some_iff.1 twoLists_rows
  rw [← decode_pageWithoutTotals] at hrows
  have hs : (electionSection 25).isSome := rfl
  have hunread : validTotal (decodeUtf8 pageWithoutTotals) = none := by
    rw [decode_pageWithoutTotals]
    decide +kernel
  obtain ⟨page, hpage, rfl⟩ := exists_parseElectionPage hrows 25 "2022-11-01T00:00:00"
  obtain ⟨-, hknesset, -⟩ := parseElectionPage_spec hpage
  rw [← hknesset] at hs
  obtain ⟨results, hresults⟩ := exists_normalizePage (E := E) hs
  have hsum : votesSum page.rows = 100 := by
    have hvotes := congrArg (List.map Prod.snd) hlists
    rw [List.map_map] at hvotes
    unfold votesSum
    exact congrArg List.sum hvotes
  have hlist : ("a", 1) ∈ page.rows.map fun row => (row.ballotLetters, row.votes) := by
    rw [hlists]
    exact List.mem_cons_self
  obtain ⟨row, hrow, hsmall⟩ := List.mem_map.1 hlist
  obtain ⟨hletters, hone⟩ := Prod.mk.inj hsmall
  obtain ⟨r, hr, hvotes, -⟩ := normalizePage_result hresults hs hrow (by rw [hletters]; decide)
  have hpass := all_passed_of_unread hpage hresults hunread hr
  have hshare := (h page results hpage hresults).1 r hr hpass
  rw [hsum, hvotes, hone] at hshare
  omega

end CivicProof
