import CivicProof.Proof.Confidence
import CivicProof.Spec.Pipeline

/-!
# The ranked list

`rerank` sorts the scores by overall value and stable key. The scores of a list do not depend on its
order, so neither do the sorted pairs; and a Tier-1 row of the claim's type that shares an id with
the claim scores above every text.

* `rerank_sorted`, `rerank_keys`: the order of the ranked list, whatever the order of its input.
* `official_above_text`: the official direct record against any snippet.
* `ranking_law`: the order, its independence of the input's, and what a cut of the list drops.
-/

namespace CivicProof

variable {evidences evidences' : List Evidence} {ct : ClaimType} {scope : Option TimeScope}
  {ids : Dict String}

/-! ## The order -/

/-- What the sort key of the ranked list is made of. -/
def RerankScore.sortKey (s : RerankScore) : ℚ × String := (s.overall, stableKey s.evidence)

/-- Overall value descending, then stable key. -/
def keyLE (a b : ℚ × String) : Prop := b.1 < a.1 ∨ (a.1 = b.1 ∧ a.2 ≤ b.2)

instance : Std.Total keyLE where
  total a b := by
    rcases lt_trichotomy a.1 b.1 with h | h | h
    · exact Or.inr (Or.inl h)
    · exact (String.le_total a.2 b.2).imp (fun hle => Or.inr ⟨h, hle⟩) fun hle => Or.inr ⟨h.symm, hle⟩
    · exact Or.inl (Or.inl h)

instance : IsTrans (ℚ × String) keyLE where
  trans a b c := by
    rintro (hab | ⟨hab, hkey⟩) (hbc | ⟨hbc, hkey'⟩)
    · exact Or.inl (hbc.trans hab)
    · exact Or.inl (hbc ▸ hab)
    · exact Or.inl (hab ▸ hbc)
    · exact Or.inr ⟨hab.trans hbc, String.le_trans hkey hkey'⟩

theorem keyLE_antisymm {a b : ℚ × String} (hab : keyLE a b) (hba : keyLE b a) : a = b := by
  rcases hab with hab | ⟨heq, hab⟩
  · rcases hba with hba | ⟨heq, -⟩
    · exact absurd hab hba.asymm
    · exact absurd hab (heq ▸ lt_irrefl _)
  · rcases hba with hba | ⟨-, hba⟩
    · exact absurd hba (heq ▸ lt_irrefl _)
    · exact Prod.ext heq (String.le_antisymm hab hba)

instance : Std.Total rankLE where
  total a b := Std.Total.total (r := keyLE) a.sortKey b.sortKey

instance : IsTrans RerankScore rankLE where
  trans a b c := IsTrans.trans (r := keyLE) a.sortKey b.sortKey c.sortKey

/-- **The ranked list is sorted.** -/
theorem rerank_sorted : (rerank evidences ct scope ids).Pairwise rankLE :=
  List.pairwise_insertionSort rankLE _

/-- **The input's order does not show** in the sort keys of the ranked list. -/
theorem rerank_keys (h : evidences.Perm evidences') :
    (rerank evidences ct scope ids).map (·.sortKey) =
      (rerank evidences' ct scope ids).map (·.sortKey) := by
  have hsorted : ∀ l : List Evidence,
      ((rerank l ct scope ids).map (·.sortKey)).Pairwise keyLE :=
    fun l => List.pairwise_map.2 rerank_sorted
  exact ((rerank_perm_of_perm ct scope ids h).map _).eq_of_pairwise
    (fun a b _ _ => keyLE_antisymm) (hsorted evidences) (hsorted evidences')

theorem rerank_evidence : ((rerank evidences ct scope ids).map (·.evidence)).Perm evidences := by
  have hperm : ((rerank evidences ct scope ids).map (·.evidence)).Perm _ := rerank_perm.map _
  rw [List.map_map] at hperm
  have hid : (fun s : RerankScore => s.evidence) ∘
      scoreOf ct scope ids (crossSourceCount evidences) = id := rfl
  rwa [hid, List.map_id] at hperm

/-! ## Official records and texts -/

/-- The row is not put out of range: it is undated, or its date is neither below the start nor above
the end of the scope, as texts. -/
def NotOutOfRange (scope : Option TimeScope) (g : GraphEvidence) : Prop :=
  ∀ ts ∈ scope, timestampText (g.properties.prop "occurred_at") = "" ∨
    (beforeBound (timestampText (g.properties.prop "occurred_at")) ts.start = false ∧
      afterBound (timestampText (g.properties.prop "occurred_at")) ts.stop = false)

/-- **An official direct record**: a Tier-1 row of the claim's type that agrees with a resolved id and
is not out of range. -/
structure Official (ct : ClaimType) (scope : Option TimeScope) (ids : Dict String)
    (g : GraphEvidence) : Prop where
  tier : g.sourceTier = 1
  claimType : g.claimType = ct
  hit : 0 < entityHits g ids
  inRange : NotOutOfRange scope g

theorem entityScore_official {g : GraphEvidence} (h : 0 < entityHits g ids) :
    75 / 100 ≤ entityScore (.graph g) ids := by
  have hne : ids.entries ≠ [] := by
    intro hnil
    unfold entityHits at h
    rw [hnil] at h
    cases h
  unfold entityScore
  rw [if_neg hne]
  dsimp only
  rw [if_neg (Nat.ne_of_gt h)]
  have hhits : (1 : ℚ) ≤ (entityHits g ids : ℚ) := by exact_mod_cast h
  exact le_min (by norm_num) (by linarith)

theorem entityScore_lexical {l : LexicalEvidence} (h : ids.entries ≠ []) :
    entityScore (.lexical l) ids = 6 / 10 := by
  unfold entityScore
  rw [if_neg h]

theorem directnessScore_lexical (ct : ClaimType) (l : LexicalEvidence) :
    directnessScore (.lexical l) ct ≤ 75 / 100 := by
  unfold directnessScore
  dsimp only
  split_ifs <;> norm_num

/-- The time axis takes at most `2 / 10` from the record's lead. -/
theorem temporalScore_lead {g : GraphEvidence} (h : NotOutOfRange scope g) (l : LexicalEvidence) :
    temporalScore (.lexical l) scope ≤ temporalScore (.graph g) scope + 2 / 10 := by
  unfold temporalScore
  cases hscope : scope with
  | none => norm_num
  | some ts =>
    dsimp only
    have hgraph : (6 / 10 : ℚ) ≤ if timestampText (g.properties.prop "occurred_at") = "" then 6 / 10
        else if beforeBound (timestampText (g.properties.prop "occurred_at")) ts.start ||
          afterBound (timestampText (g.properties.prop "occurred_at")) ts.stop then 2 / 10
        else 1 := by
      rcases h ts hscope with hundated | ⟨hstart, hstop⟩
      · rw [if_pos hundated]
      · rw [hstart, hstop, Bool.or_false, if_neg Bool.false_ne_true]
        split_ifs <;> norm_num
    have hlex : (if timestampText (l.properties.prop "captured_at") = "" then 5 / 10
        else if beforeBound (timestampText (l.properties.prop "captured_at")) ts.start ||
          afterBound (timestampText (l.properties.prop "captured_at")) ts.stop then 4 / 10
        else 8 / 10 : ℚ) ≤ 8 / 10 := by
      split_ifs <;> norm_num
    linarith

/-- **An official direct record scores above any text.** -/
theorem official_above_text {g : GraphEvidence} (h : Official ct scope ids g) (cross : ℕ)
    (l : LexicalEvidence) :
    (scoreOf ct scope ids cross (.lexical l)).overall <
      (scoreOf ct scope ids cross (.graph g)).overall := by
  have hne : ids.entries ≠ [] := by
    intro hnil
    have hhit := h.hit
    unfold entityHits at hhit
    rw [hnil] at hhit
    cases hhit
  have htier : sourceTierScore (Evidence.graph g).sourceTier = 1 := by
    change sourceTierScore g.sourceTier = 1
    rw [h.tier]
    rfl
  have hdirect : directnessScore (.graph g) ct = 1 := if_pos h.claimType
  have hentity := entityScore_official h.hit
  have htier' := (sourceTierScore_unit (Evidence.lexical l).sourceTier).2
  have hdirect' := directnessScore_lexical ct l
  have hentity' := entityScore_lexical (l := l) hne
  have htime := temporalScore_lead h.inRange l
  have hgraph : weightedSum (scoreOf ct scope ids cross (.graph g)).toAxes =
      30 / 100 * sourceTierScore (Evidence.graph g).sourceTier +
        25 / 100 * directnessScore (.graph g) ct + 20 / 100 * temporalScore (.graph g) scope +
        15 / 100 * entityScore (.graph g) ids + 10 / 100 * crossSourceScore cross := rfl
  have hlex : weightedSum (scoreOf ct scope ids cross (.lexical l)).toAxes =
      30 / 100 * sourceTierScore (Evidence.lexical l).sourceTier +
        25 / 100 * directnessScore (.lexical l) ct + 20 / 100 * temporalScore (.lexical l) scope +
        15 / 100 * entityScore (.lexical l) ids + 10 / 100 * crossSourceScore cross := rfl
  have hround := (round4_near (weightedSum (scoreOf ct scope ids cross (.graph g)).toAxes)).1
  have hround' := (round4_near (weightedSum (scoreOf ct scope ids cross (.lexical l)).toAxes)).2
  have hover : (scoreOf ct scope ids cross (.graph g)).overall =
      round4 (weightedSum (scoreOf ct scope ids cross (.graph g)).toAxes) := rfl
  have hover' : (scoreOf ct scope ids cross (.lexical l)).overall =
      round4 (weightedSum (scoreOf ct scope ids cross (.lexical l)).toAxes) := rfl
  rw [htier, hdirect] at hgraph
  rw [hentity'] at hlex
  rw [hover, hover']
  linarith

/-- No text stands before an official direct record. -/
theorem rerank_official : (rerank evidences ct scope ids).Pairwise fun a b =>
    ∀ g, b.evidence = .graph g → Official ct scope ids g → a.evidence.isLexical = false := by
  refine (List.Pairwise.and_mem.1 rerank_sorted).imp ?_
  rintro a b ⟨ha, hb, hle⟩ g hg hofficial
  obtain ⟨e, -, rfl⟩ := mem_rerank.1 ha
  obtain ⟨e', -, rfl⟩ := mem_rerank.1 hb
  have he' : e' = .graph g := hg
  rw [he'] at hle
  cases e with
  | graph g' => rfl
  | lexical l =>
    have habove := official_above_text hofficial (crossSourceCount evidences) l
    rcases hle with hlt | ⟨heq, -⟩
    · exact absurd hlt habove.asymm
    · exact absurd heq habove.ne

/-! ## The cut -/

/-- The records that stand in front of a position, if no text does, reach past a cut before it. -/
theorem topRanked_drops {topK : ℤ} {ranked : List RerankScore} {i : ℕ}
    (hdrop : (topRanked topK ranked).length ≤ i) (hi : i < ranked.length)
    (hgraph : ∀ s ∈ ranked.take i, s.evidence.isLexical = false) :
    topK ≤ ((ranked.take i).countP fun s => !s.evidence.isLexical : ℕ) := by
  have hall : (ranked.take i).countP (fun s => !s.evidence.isLexical) = (ranked.take i).length :=
    List.countP_eq_length.2 fun s hs => by rw [hgraph s hs]; rfl
  rw [hall, List.length_take, Nat.min_eq_left hi.le]
  unfold topRanked at hdrop
  split at hdrop
  · rw [List.length_take] at hdrop
    omega
  · omega

/-- **The ranking law.** -/
structure RankingLaw (ct : ClaimType) (scope : Option TimeScope) (ids : Dict String)
    (evidences : List Evidence) : Prop where
  perm : ((rerank evidences ct scope ids).map (·.evidence)).Perm evidences
  sorted : (rerank evidences ct scope ids).Pairwise rankLE
  order : ∀ l, evidences.Perm l → (rerank evidences ct scope ids).map (·.sortKey) =
    (rerank l ct scope ids).map (·.sortKey)
  official : (rerank evidences ct scope ids).Pairwise fun a b =>
    ∀ g, b.evidence = .graph g → Official ct scope ids g → a.evidence.isLexical = false
  cut : ∀ (topK : ℤ) (i : ℕ) (hi : i < (rerank evidences ct scope ids).length) (g : GraphEvidence),
    (rerank evidences ct scope ids)[i].evidence = .graph g → Official ct scope ids g →
      (topRanked topK (rerank evidences ct scope ids)).length ≤ i →
      topK ≤ (((rerank evidences ct scope ids).take i).countP fun s => !s.evidence.isLexical : ℕ)

/-- **The ranking law holds** of every list of evidence. -/
theorem ranking_law (ct : ClaimType) (scope : Option TimeScope) (ids : Dict String)
    (evidences : List Evidence) : RankingLaw ct scope ids evidences := by
  refine ⟨rerank_evidence, rerank_sorted, fun l hl => rerank_keys hl, rerank_official, ?_⟩
  intro topK i hi g hg hofficial hdrop
  refine topRanked_drops hdrop hi fun s hs => ?_
  obtain ⟨j, hj, rfl⟩ := List.mem_take_iff_getElem.1 hs
  have hji : j < i := by omega
  exact (List.pairwise_iff_getElem.1 rerank_official) j i (by omega) hi hji g hg hofficial

end CivicProof
