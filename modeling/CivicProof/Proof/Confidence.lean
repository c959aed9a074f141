import CivicProof.Spec.Engine
import Mathlib.Data.List.Dedup
import Mathlib.Order.Lattice
import Mathlib.Tactic.Linarith
import Mathlib.Tactic.NormNum

/-!
# Confidence of reranked evidence

Scores form a semilattice under the axiswise order, and the rubric is its supremum, so it
does not depend on the order of the list. Scores of reranked evidence stay in `[0, 1]`, so
`computeConfidence` never raises on them.

* `round4_mono`: rounding keeps the order.
* `computeConfidence_rerank`: the confidence of reranked evidence exists, and depends on
  the multiset of evidence only.
* `tier1_row_confident`: a Tier-1 row of the claim's type puts the confidence above the
  abstention threshold.
-/

namespace CivicProof

/-! ## The axiswise order -/

def Axes.toProd (a : Axes) : ℚ × ℚ × ℚ × ℚ × ℚ :=
  (a.sourceTier, a.directness, a.temporalAlignment, a.entityResolution, a.crossSourceConsistency)

theorem Axes.toProd_injective : Function.Injective Axes.toProd := by
  intro a b h
  cases a
  cases b
  simpa only [Axes.toProd, Prod.mk.injEq, Axes.mk.injEq] using h

instance : PartialOrder Axes := PartialOrder.lift Axes.toProd Axes.toProd_injective

theorem Axes.le_def {a b : Axes} : a ≤ b ↔
    a.sourceTier ≤ b.sourceTier ∧ a.directness ≤ b.directness ∧
      a.temporalAlignment ≤ b.temporalAlignment ∧ a.entityResolution ≤ b.entityResolution ∧
      a.crossSourceConsistency ≤ b.crossSourceConsistency := Iff.rfl

instance : SemilatticeSup Axes where
  sup := Axes.max
  le_sup_left _ _ := Axes.le_def.2
    ⟨le_max_left _ _, le_max_left _ _, le_max_left _ _, le_max_left _ _, le_max_left _ _⟩
  le_sup_right _ _ := Axes.le_def.2
    ⟨le_max_right _ _, le_max_right _ _, le_max_right _ _, le_max_right _ _, le_max_right _ _⟩
  sup_le _ _ _ hac hbc := by
    obtain ⟨h1, h2, h3, h4, h5⟩ := Axes.le_def.1 hac
    obtain ⟨k1, k2, k3, k4, k5⟩ := Axes.le_def.1 hbc
    exact Axes.le_def.2
      ⟨max_le h1 k1, max_le h2 k2, max_le h3 k3, max_le h4 k4, max_le h5 k5⟩

def Axes.zero : Axes := ⟨0, 0, 0, 0, 0⟩

def Axes.one : Axes := ⟨1, 1, 1, 1, 1⟩

theorem bestAxes_eq (ranked : List RerankScore) :
    bestAxes ranked = (ranked.map (·.toAxes)).foldl (· ⊔ ·) Axes.zero := by
  rw [List.foldl_map]
  rfl

theorem foldl_sup_le {α : Type} [SemilatticeSup α] {l : List α} {x b : α} :
    l.foldl (· ⊔ ·) b ≤ x ↔ b ≤ x ∧ ∀ a ∈ l, a ≤ x := by
  induction l generalizing b with
  | nil => simp
  | cons a l ih => simp [ih, and_assoc]

/-- **The rubric is the supremum of the scores**, from zero. -/
theorem bestAxes_le {ranked : List RerankScore} {x : Axes} :
    bestAxes ranked ≤ x ↔ Axes.zero ≤ x ∧ ∀ s ∈ ranked, s.toAxes ≤ x := by
  rw [bestAxes_eq, foldl_sup_le]
  simp only [List.mem_map, forall_exists_index, and_imp, forall_apply_eq_imp_iff₂]

theorem zero_le_bestAxes (ranked : List RerankScore) : Axes.zero ≤ bestAxes ranked :=
  (bestAxes_le.1 le_rfl).1

theorem le_bestAxes {ranked : List RerankScore} {s : RerankScore} (hs : s ∈ ranked) :
    s.toAxes ≤ bestAxes ranked :=
  (bestAxes_le.1 le_rfl).2 s hs

theorem bestAxes_perm {l l' : List RerankScore} (h : l.Perm l') : bestAxes l = bestAxes l' :=
  -- both are the least upper bound of the same scores
  eq_of_forall_ge_iff fun x => by
    rw [bestAxes_le, bestAxes_le]
    exact and_congr_right fun _ => forall_congr' fun s => by rw [h.mem_iff]

theorem computeConfidence_perm {l l' : List RerankScore} (h : l.Perm l') :
    computeConfidence l = computeConfidence l' := by
  unfold computeConfidence
  rw [bestAxes_perm h]

theorem weightedSum_mono {a b : Axes} (h : a ≤ b) : weightedSum a ≤ weightedSum b := by
  obtain ⟨h1, h2, h3, h4, h5⟩ := Axes.le_def.1 h
  unfold weightedSum weights
  dsimp only
  linarith

/-! ## Rounding -/

/-- Rounding moves a number by half a unit of the fourth digit at most. -/
theorem round4_near (x : ℚ) : x - 1 / 20000 ≤ round4 x ∧ round4 x ≤ x + 1 / 20000 := by
  unfold round4
  dsimp only
  have hle := Rat.floor_le (x * 10000)
  have hlt := Rat.lt_floor_add_one (x * 10000)
  push_cast at hlt
  split_ifs with h
  · constructor
    · rcases h with h | h <;> linarith
    · linarith
  · have hhalf : ¬(x * 10000 - (x * 10000).floor < 1 / 2) := fun hl => h (Or.inl hl)
    push_cast
    constructor <;> linarith

theorem round4_unit {x : ℚ} (hx : UnitRange x) : UnitRange (round4 x) := by
  have hnn : (0 : ℤ) ≤ (x * 10000).floor := Rat.le_floor_iff.2 (by push_cast; linarith [hx.1])
  have hle := Rat.floor_le (x * 10000)
  have hnnq : (0 : ℚ) ≤ ((x * 10000).floor : ℚ) := by exact_mod_cast hnn
  unfold round4
  dsimp only
  split_ifs with h
  · constructor
    · linarith
    · linarith [hx.2]
  · have hne : ((x * 10000).floor : ℚ) < 10000 := by
      rcases lt_or_eq_of_le (le_trans hle (by linarith [hx.2] : x * 10000 ≤ 10000)) with hl | heq
      · exact hl
      · -- at the top there is no remainder to round up
        refine absurd (Or.inl ?_) h
        rw [heq]
        linarith [hx.2]
    have hint : (x * 10000).floor + 1 ≤ 10000 := by exact_mod_cast hne
    have hintq : ((x * 10000).floor : ℚ) + 1 ≤ 10000 := by exact_mod_cast hint
    push_cast
    constructor <;> linarith

/-- **Rounding keeps the order.** -/
theorem round4_mono {x y : ℚ} (h : x ≤ y) : round4 x ≤ round4 y := by
  unfold round4
  dsimp only
  have hx := Rat.floor_le (x * 10000)
  have hy := Rat.floor_le (y * 10000)
  have hfloor : (x * 10000).floor ≤ (y * 10000).floor := Rat.le_floor_iff.2 (by linarith)
  rcases lt_or_eq_of_le hfloor with hlt | heq
  · -- a whole unit between the two leaves room for both roundings
    have hint : (x * 10000).floor + 1 ≤ (y * 10000).floor := hlt
    have hcast : ((x * 10000).floor : ℚ) + 1 ≤ ((y * 10000).floor : ℚ) := by exact_mod_cast hint
    split_ifs <;> push_cast <;> linarith
  · rw [← heq]
    rw [← heq] at hy
    split_ifs with hdown hdown' hdown'
    · exact le_rfl
    · push_cast
      linarith
    · -- what is rounded down lies no higher than what is rounded up
      exfalso
      apply hdown
      rcases hdown' with hlow | ⟨htie, heven⟩
      · exact Or.inl (by linarith)
      · rcases lt_or_eq_of_le (show x * 10000 - (x * 10000).floor ≤ 1 / 2 by linarith) with hl | he
        · exact Or.inl hl
        · exact Or.inr ⟨he, heven⟩
    · exact le_rfl

/-! ## The scores of reranked evidence -/

theorem crossSourceScore_unit (n : ℕ) : UnitRange (crossSourceScore n) := by
  unfold crossSourceScore
  split_ifs <;> exact ⟨by norm_num, by norm_num⟩

theorem sourceTierScore_unit (tier : ℤ) : UnitRange (sourceTierScore tier) := by
  unfold sourceTierScore
  split_ifs <;> exact ⟨by norm_num, by norm_num⟩

theorem directnessScore_unit (e : Evidence) (ct : ClaimType) : UnitRange (directnessScore e ct) := by
  unfold directnessScore
  cases e with
  | graph g =>
    dsimp only
    split_ifs <;> exact ⟨by norm_num, by norm_num⟩
  | lexical l =>
    dsimp only
    split_ifs <;> exact ⟨by norm_num, by norm_num⟩

theorem temporalScore_unit (e : Evidence) (scope : Option TimeScope) :
    UnitRange (temporalScore e scope) := by
  unfold temporalScore
  cases scope with
  | none => exact ⟨by norm_num, by norm_num⟩
  | some ts =>
    cases e with
    | graph g =>
      dsimp only
      split_ifs <;> exact ⟨by norm_num, by norm_num⟩
    | lexical l =>
      dsimp only
      split_ifs <;> exact ⟨by norm_num, by norm_num⟩

theorem entityScore_unit (e : Evidence) (ids : Dict String) : UnitRange (entityScore e ids) := by
  unfold entityScore
  split_ifs
  · exact ⟨by norm_num, by norm_num⟩
  cases e with
  | lexical l => exact ⟨by norm_num, by norm_num⟩
  | graph g =>
    dsimp only
    split_ifs
    · exact ⟨by norm_num, by norm_num⟩
    · refine ⟨le_min zero_le_one ?_, min_le_left _ _⟩
      have : (0 : ℚ) ≤ (entityHits g ids : ℚ) := Nat.cast_nonneg _
      linarith

section Rerank

variable {evidences evidences' : List Evidence} {ct : ClaimType} {scope : Option TimeScope}
  {ids : Dict String}

theorem scoreOf_unit (ct : ClaimType) (scope : Option TimeScope) (ids : Dict String) (cross : ℕ)
    (e : Evidence) :
    Axes.zero ≤ (scoreOf ct scope ids cross e).toAxes ∧
      (scoreOf ct scope ids cross e).toAxes ≤ Axes.one := by
  have h1 := sourceTierScore_unit e.sourceTier
  have h2 := directnessScore_unit e ct
  have h3 := temporalScore_unit e scope
  have h4 := entityScore_unit e ids
  have h5 := crossSourceScore_unit cross
  exact ⟨Axes.le_def.2 ⟨h1.1, h2.1, h3.1, h4.1, h5.1⟩,
    Axes.le_def.2 ⟨h1.2, h2.2, h3.2, h4.2, h5.2⟩⟩

theorem rerank_perm : (rerank evidences ct scope ids).Perm
    (evidences.map (scoreOf ct scope ids (crossSourceCount evidences))) :=
  List.perm_insertionSort _ _

theorem mem_rerank {s : RerankScore} : s ∈ rerank evidences ct scope ids ↔
    ∃ e ∈ evidences, scoreOf ct scope ids (crossSourceCount evidences) e = s := by
  rw [rerank_perm.mem_iff, List.mem_map]

theorem rerank_eq_nil : rerank evidences ct scope ids = [] ↔ evidences = [] := by
  rw [← List.length_eq_zero_iff, rerank_perm.length_eq, List.length_map, List.length_eq_zero_iff]

theorem crossSourceCount_perm (h : evidences.Perm evidences') :
    crossSourceCount evidences = crossSourceCount evidences' :=
  ((h.flatMap_right _).dedup).length_eq

variable (ct scope ids) in
theorem rerank_perm_of_perm (h : evidences.Perm evidences') :
    (rerank evidences ct scope ids).Perm (rerank evidences' ct scope ids) := by
  refine rerank_perm.trans (List.Perm.trans ?_ rerank_perm.symm)
  rw [crossSourceCount_perm h]
  exact h.map _

variable (ct scope ids) in
theorem graphHits_rerank : (graphHits ct (rerank evidences ct scope ids)).Perm
    ((evidences.filterMap Evidence.graph?).filter fun g => g.claimType = ct) := by
  refine (List.Perm.trans (rerank_perm.filterMap _) ?_).filter _
  rw [List.filterMap_map]
  exact List.Perm.refl _

variable (ct scope ids) in
theorem lexCorroborations_rerank :
    lexCorroborations (rerank evidences ct scope ids) = evidences.countP Evidence.isLexical := by
  unfold lexCorroborations
  rw [rerank_perm.countP_eq, List.countP_map]
  rfl

/-- The graph rows of what the two retrievers returned. -/
theorem graphHits_retrieved (G : List GraphEvidence) (L : List LexicalEvidence) (ct : ClaimType)
    (scope : Option TimeScope) (ids : Dict String) :
    (graphHits ct (rerank (G.map .graph ++ L.map .lexical) ct scope ids)).Perm
      (G.filter fun g => g.claimType = ct) := by
  have hrows : (G.map Evidence.graph ++ L.map Evidence.lexical).filterMap Evidence.graph? = G := by
    rw [List.filterMap_append, List.filterMap_map, List.filterMap_map]
    have hG : (Evidence.graph? ∘ Evidence.graph) = some := rfl
    have hL : (Evidence.graph? ∘ Evidence.lexical) = fun _ => none := rfl
    rw [hG, hL, List.filterMap_some]
    simp
  have hperm : (graphHits ct (rerank (G.map .graph ++ L.map .lexical) ct scope ids)).Perm _ :=
    graphHits_rerank ct scope ids
  rwa [hrows] at hperm

theorem lexCorroborations_retrieved (G : List GraphEvidence) (L : List LexicalEvidence)
    (ct : ClaimType) (scope : Option TimeScope) (ids : Dict String) :
    lexCorroborations (rerank (G.map .graph ++ L.map .lexical) ct scope ids) = L.length := by
  have hG : Evidence.isLexical ∘ Evidence.graph = fun _ => false := rfl
  have hL : Evidence.isLexical ∘ Evidence.lexical = fun _ => true := rfl
  rw [lexCorroborations_rerank, List.countP_append, List.countP_map, List.countP_map, hG, hL]
  simp

/-! ## The confidence of reranked evidence -/

theorem bestAxes_rerank_unit : Axes.zero ≤ bestAxes (rerank evidences ct scope ids) ∧
    bestAxes (rerank evidences ct scope ids) ≤ Axes.one := by
  have h01 : Axes.zero ≤ Axes.one :=
    Axes.le_def.2 ⟨zero_le_one, zero_le_one, zero_le_one, zero_le_one, zero_le_one⟩
  refine ⟨zero_le_bestAxes _, bestAxes_le.2 ⟨h01, fun s hs => ?_⟩⟩
  obtain ⟨e, -, rfl⟩ := mem_rerank.1 hs
  exact (scoreOf_unit ct scope ids _ e).2

/-- The rubric accepts axes in `[0, 1]`. -/
theorem asConfidence_ok {a : Axes} (h0 : Axes.zero ≤ a) (h1 : a ≤ Axes.one) :
    ∃ confidence, a.asConfidence = .ok confidence ∧
      confidence.overall = round4 (weightedSum a) := by
  -- the weights add up to one
  have hz : weightedSum Axes.zero = 0 := by decide +kernel
  have ho : weightedSum Axes.one = 1 := by decide +kernel
  have hs : UnitRange (weightedSum a) :=
    ⟨hz ▸ weightedSum_mono h0, ho ▸ weightedSum_mono h1⟩
  obtain ⟨l1, l2, l3, l4, l5⟩ := Axes.le_def.1 h0
  obtain ⟨u1, u2, u3, u4, u5⟩ := Axes.le_def.1 h1
  unfold Axes.asConfidence Confidence.mk?
  rw [dif_pos ⟨⟨l1, u1⟩, ⟨l2, u2⟩, ⟨l3, u3⟩, ⟨l4, u4⟩, ⟨l5, u5⟩, round4_unit hs⟩]
  exact ⟨_, rfl, rfl⟩

/-- **The confidence of reranked evidence exists.** -/
theorem computeConfidence_rerank (evidences : List Evidence) (ct : ClaimType)
    (scope : Option TimeScope) (ids : Dict String) :
    ∃ confidence, computeConfidence (rerank evidences ct scope ids) = .ok confidence ∧
      confidence.overall = round4 (weightedSum (bestAxes (rerank evidences ct scope ids))) :=
  asConfidence_ok bestAxes_rerank_unit.1 bestAxes_rerank_unit.2

variable (scope ids) in
/-- **A Tier-1 row of the claim's type is enough confidence**, whatever else was found: tier
and directness alone weigh more than the threshold. -/
theorem tier1_row_confident {g : GraphEvidence} (hg : .graph g ∈ evidences)
    (hct : g.claimType = ct) (htier : g.sourceTier = 1) :
    ∃ confidence, computeConfidence (rerank evidences ct scope ids) = .ok confidence ∧
      abstainOverall ≤ confidence.overall := by
  obtain ⟨confidence, hc, hover⟩ := computeConfidence_rerank evidences ct scope ids
  refine ⟨confidence, hc, ?_⟩
  have hrow : (⟨1, 1, 0, 0, 0⟩ : Axes) ≤ bestAxes (rerank evidences ct scope ids) := by
    refine le_trans ?_ (le_bestAxes (mem_rerank.2 ⟨_, hg, rfl⟩))
    have hz := Axes.le_def.1 (scoreOf_unit ct scope ids (crossSourceCount evidences) (.graph g)).1
    refine Axes.le_def.2 ⟨?_, ?_, hz.2.2.1, hz.2.2.2.1, hz.2.2.2.2⟩
    · change (1 : ℚ) ≤ sourceTierScore g.sourceTier
      rw [htier]
      exact le_rfl
    · change (1 : ℚ) ≤ if g.claimType = ct then 1 else 6 / 10
      rw [if_pos hct]
  -- 30 % for the tier and 25 % for directness
  have hsum := weightedSum_mono hrow
  have hval : weightedSum ⟨1, 1, 0, 0, 0⟩ = 55 / 100 := by decide +kernel
  rw [hval] at hsum
  have hround := (round4_near (weightedSum (bestAxes (rerank evidences ct scope ids)))).1
  rw [hover]
  unfold abstainOverall
  linarith

end Rerank

end CivicProof
