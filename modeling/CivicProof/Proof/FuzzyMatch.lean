import CivicProof.Proof.Fallback
import Mathlib.Tactic.Linarith
import Mathlib.Tactic.NormNum

/-!
# The fuzzy step

The fuzzy step scans the first nodes of a label and keeps the five best scored ones. It resolves
when a single node reaches the floor, whatever its score, and else by threshold and margin.

* `Ranked.resolved_iff`: which nodes stand alone among those scanned.
* `fuzzy_winner_iff`: when the winner obeys the threshold and the margin.
* `homonyms_resolved_iff`: when a name that two nodes bear is resolved all the same.
-/

namespace CivicProof

open PropGraph

variable {σ : Type}

/-! ## Scores -/

/-- The score of a node, before the floor of 60. -/
def nodeScore (U : Unicode) (fuzz : RapidFuzz) (normalizedHe normalizedEn : String)
    (row : NodeRow) : ℚ :=
  let nodeHe := normalizeHebrew U (row.he.getD "")
  let nodeCn := U.lower (strip (row.cn.getD ""))
  let nodeEn := U.lower (strip (row.en.getD ""))
  let scoreHe := if normalizedHe ≠ "" ∧ nodeHe ≠ "" then fuzz.ratio normalizedHe nodeHe else 0
  let scoreCn := if normalizedEn ≠ "" ∧ nodeCn ≠ "" then fuzz.ratio normalizedEn nodeCn else 0
  let scoreEn := if normalizedEn ≠ "" ∧ nodeEn ≠ "" then fuzz.ratio normalizedEn nodeEn else 0
  let partialHe :=
    if normalizedHe ≠ "" ∧ nodeHe ≠ "" then fuzz.partialRatio normalizedHe nodeHe else 0
  max (max scoreHe (max scoreCn scoreEn)) (((partialHe * (92 / 100)).floor : ℤ) : ℚ)

/-- A node below the floor has no score. -/
theorem fuzzyScore_map (U : Unicode) (fuzz : RapidFuzz) (he en : String) (row : NodeRow) :
    (fuzzyScore U fuzz he en row).map Prod.fst =
      if nodeScore U fuzz he en row < 60 then none else some (nodeScore U fuzz he en row) := by
  unfold fuzzyScore nodeScore
  exact apply_ite (Option.map Prod.fst) _ _ _

/-- A node above the threshold that leads all others by the margin. -/
def LeadsBy (nodes : List NodeKey) (score : NodeKey → ℚ) (n : NodeKey) : Prop :=
  fuzzyResolveThreshold ≤ score n ∧ ∀ n' ∈ nodes, n' ≠ n → score n' + fuzzyMargin ≤ score n

/-- A node that no other one competes with: it is the only one that reaches the floor, or it
leads. -/
def StandsAlone (nodes : List NodeKey) (score : NodeKey → ℚ) (n : NodeKey) : Prop :=
  (60 ≤ score n ∧ ∀ n' ∈ nodes, n' ≠ n → score n' < 60) ∨ LeadsBy nodes score n

theorem threshold_ge_floor : 60 + fuzzyMargin ≤ fuzzyResolveThreshold := by
  norm_num [fuzzyMargin, fuzzyResolveThreshold]

theorem fuzzyMargin_pos : 0 < fuzzyMargin := by norm_num [fuzzyMargin]

theorem StandsAlone.floor {nodes : List NodeKey} {score : NodeKey → ℚ} {n : NodeKey}
    (h : StandsAlone nodes score n) : 60 ≤ score n := by
  have hgap := threshold_ge_floor
  have hmargin := fuzzyMargin_pos
  rcases h with ⟨hfloor, -⟩ | ⟨hthreshold, -⟩
  · exact hfloor
  · linarith

/-! ## Rankings -/

/-- The scored nodes with their candidates, best first. -/
structure Ranked (nodes : List NodeKey) (score : NodeKey → ℚ) (ranking : List (NodeKey × Candidate)) :
    Prop where
  order : ranking.Pairwise fun a b => b.2.score ≤ a.2.score
  nodup : (ranking.map Prod.fst).Nodup
  complete : ∀ n ∈ nodes, 60 ≤ score n → ∃ c, (n, c) ∈ ranking
  mem : ∀ e ∈ ranking, e.1 ∈ nodes ∧ 60 ≤ score e.1
  score : ∀ e ∈ ranking, e.2.score = score e.1
  step : ∀ e ∈ ranking, e.2.matchStep = 5
  ids : ∀ e ∈ ranking, ∀ e' ∈ ranking, e.2.entityId = e'.2.entityId → e.1 = e'.1

namespace Ranked

variable {nodes : List NodeKey} {score : NodeKey → ℚ} {ranking : List (NodeKey × Candidate)}

/-- The candidates of a ranking. -/
def candidates (ranking : List (NodeKey × Candidate)) : List Candidate :=
  (ranking.map Prod.snd).take 5

theorem mem_candidates {c : Candidate} (h : c ∈ candidates ranking) : ∃ n, (n, c) ∈ ranking := by
  obtain ⟨e, he, rfl⟩ := List.mem_map.1 (List.mem_of_mem_take h)
  exact ⟨e.1, he⟩

theorem candidates_eq_nil : candidates ranking = [] ↔ ranking = [] := by
  cases ranking <;> simp [candidates]

/-- The candidates are divided iff two nodes are scored. -/
theorem divided_iff (h : Ranked nodes score ranking) :
    Divided (candidates ranking) ↔ 2 ≤ ranking.length := by
  constructor
  · rintro ⟨c, hc, c', hc', hne⟩
    rcases ranking with _ | ⟨e, _ | ⟨e', rest⟩⟩
    · exact absurd hc List.not_mem_nil
    · obtain rfl := List.mem_singleton.1 hc
      obtain rfl := List.mem_singleton.1 hc'
      exact absurd rfl hne
    · simp
  · intro hlen
    rcases ranking with _ | ⟨e, _ | ⟨e', rest⟩⟩
    · simp at hlen
    · simp at hlen
    · refine ⟨e.2, by simp [candidates], e'.2, by simp [candidates], fun hid => ?_⟩
      have hnd := h.nodup
      rw [List.map_cons, List.nodup_cons] at hnd
      refine hnd.1 ?_
      rw [h.ids e (by simp) e' (by simp) hid]
      simp

/-- The threshold and margin rule on a ranking of two nodes or more. -/
theorem fuzzyWinner_eq {e e' : NodeKey × Candidate} {rest : List (NodeKey × Candidate)}
    (h : Ranked nodes score (e :: e' :: rest)) :
    fuzzyWinner (candidates (e :: e' :: rest)) =
      if fuzzyResolveThreshold ≤ score e.1 ∧ score e'.1 + fuzzyMargin ≤ score e.1 then some e.2
      else none := by
  have hstep : (candidates (e :: e' :: rest)).filter (·.matchStep = 5) =
      candidates (e :: e' :: rest) := by
    refine List.filter_eq_self.2 fun c hc => ?_
    obtain ⟨n, hn⟩ := mem_candidates hc
    exact decide_eq_true (h.step (n, c) hn)
  have hsorted : (candidates (e :: e' :: rest)).insertionSort (fun a b => b.score ≤ a.score) =
      candidates (e :: e' :: rest) := by
    refine List.Pairwise.insertionSort_eq (List.Pairwise.sublist (List.take_sublist _ _) ?_)
    exact List.pairwise_map.2 h.order
  unfold fuzzyWinner
  rw [hstep, hsorted, ← h.score e (by simp), ← h.score e' (by simp)]
  change (if fuzzyResolveThreshold ≤ e.2.score ∧ fuzzyMargin ≤ e.2.score - e'.2.score then some e.2
    else none) = _
  exact if_congr (and_congr_right fun _ => le_sub_iff_add_le') rfl rfl

/-- A node that stands alone is the best of a ranking. -/
theorem first_of_standsAlone {e : NodeKey × Candidate} {rest : List (NodeKey × Candidate)}
    (h : Ranked nodes score (e :: rest)) {n : NodeKey} (hn : n ∈ nodes)
    (hs : StandsAlone nodes score n) : n = e.1 := by
  by_contra hne
  have hmem := h.mem e List.mem_cons_self
  obtain ⟨c, hc⟩ := h.complete n hn hs.floor
  rcases hs with ⟨-, hothers⟩ | ⟨hthreshold, hlead⟩
  · exact absurd hmem.2 (not_le.2 (hothers e.1 hmem.1 fun heq => hne heq.symm))
  · -- the best would trail by the margin, and it does not trail
    have hrest := (List.mem_cons.1 hc).resolve_left fun heq => hne (congrArg Prod.fst heq)
    have hle := List.rel_of_pairwise_cons h.order hrest
    rw [h.score e List.mem_cons_self, h.score (n, c) hc] at hle
    have hgap := hlead e.1 hmem.1 fun heq => hne heq.symm
    have hmargin := fuzzyMargin_pos
    linarith

/-- The only scored node stands alone. -/
theorem standsAlone_single {e : NodeKey × Candidate} (h : Ranked nodes score [e]) :
    StandsAlone nodes score e.1 := by
  refine Or.inl ⟨(h.mem e List.mem_cons_self).2, fun n hn hne => ?_⟩
  by_contra hfloor
  obtain ⟨c, hc⟩ := h.complete n hn (not_lt.1 hfloor)
  exact hne (congrArg Prod.fst (List.mem_singleton.1 hc))

/-- Of two scored nodes or more, the first stands alone iff it obeys threshold and margin. -/
theorem standsAlone_iff {e e' : NodeKey × Candidate} {rest : List (NodeKey × Candidate)}
    (h : Ranked nodes score (e :: e' :: rest)) :
    StandsAlone nodes score e.1 ↔
      fuzzyResolveThreshold ≤ score e.1 ∧ score e'.1 + fuzzyMargin ≤ score e.1 := by
  have hmem' := h.mem e' (by simp)
  have hne : e'.1 ≠ e.1 := by
    have hnd := h.nodup
    rw [List.map_cons, List.nodup_cons] at hnd
    intro heq
    exact hnd.1 (heq ▸ by simp)
  constructor
  · rintro (⟨-, hothers⟩ | ⟨hthreshold, hlead⟩)
    · exact absurd hmem'.2 (not_le.2 (hothers e'.1 hmem'.1 hne))
    · exact ⟨hthreshold, hlead e'.1 hmem'.1 hne⟩
  · rintro ⟨hthreshold, hlead⟩
    refine Or.inr ⟨hthreshold, fun n hn hdiff => ?_⟩
    rcases lt_or_ge (score n) 60 with hlow | hfloor
    · have hgap := threshold_ge_floor
      linarith
    · obtain ⟨c, hc⟩ := h.complete n hn hfloor
      have hrest := (List.mem_cons.1 hc).resolve_left fun heq => hdiff (congrArg Prod.fst heq)
      have horder := h.order
      rw [List.pairwise_cons] at horder
      rcases List.mem_cons.1 hrest with heq | hrest
      · rw [show n = e'.1 from congrArg Prod.fst heq]
        exact hlead
      · have hle := List.rel_of_pairwise_cons horder.2 hrest
        rw [h.score e' (by simp), h.score (n, c) hc] at hle
        dsimp only at hle
        linarith

/-- **Without a tiebreaker a ranking is resolved** iff one of the nodes scanned stands alone, and
then to that node. -/
theorem resolved_iff (h : Ranked nodes score ranking) {kind : EntityKind} {args : ResolveArgs σ}
    (htie : args.llmTiebreaker = none) {s s' : σ} {r : ResolveResult}
    (hexit : Exit kind args (candidates ranking) s s' r) :
    (r.status = .resolved → ∃ e ∈ ranking, r.entityId = some e.2.entityId ∧
      StandsAlone nodes score e.1) ∧
      ((∃ n ∈ nodes, StandsAlone nodes score n) → r.status = .resolved) := by
  cases hexit with
  | unresolved hnil hs =>
    rw [candidates_eq_nil] at hnil
    subst hnil
    refine ⟨fun hst => LadderStatus.noConfusion hst, ?_⟩
    rintro ⟨n, hn, hs⟩
    obtain ⟨c, hc⟩ := h.complete n hn hs.floor
    exact absurd hc List.not_mem_nil
  | single best hdiv hbest hs =>
    refine ⟨fun _ => ?_, fun _ => rfl⟩
    obtain ⟨n, hn⟩ := mem_candidates (bestCandidate_mem hbest)
    have hlen : ranking.length < 2 := by
      rw [h.divided_iff] at hdiv
      omega
    obtain ⟨e, rfl⟩ : ∃ e, ranking = [e] := by
      rcases ranking with _ | ⟨e, _ | ⟨e', rest⟩⟩
      · exact absurd hn List.not_mem_nil
      · exact ⟨e, rfl⟩
      · rw [List.length_cons, List.length_cons] at hlen
        omega
    obtain rfl := List.mem_singleton.1 hn
    exact ⟨(n, best), hn, rfl, h.standsAlone_single⟩
  | clear top hdiv htop hs =>
    refine ⟨fun _ => ?_, fun _ => rfl⟩
    rw [h.divided_iff] at hdiv
    rcases ranking with _ | ⟨e, _ | ⟨e', rest⟩⟩
    · simp at hdiv
    · simp at hdiv
    · rw [h.fuzzyWinner_eq] at htop
      split at htop
      · rename_i hrule
        cases htop
        exact ⟨e, List.mem_cons_self, rfl, h.standsAlone_iff.2 hrule⟩
      · cases htop
  | picked id hdiv hno hpick =>
    unfold tiebreak at hpick
    rw [htie] at hpick
    cases hpick
  | ambiguous t hdiv hno hpick hrec =>
    refine ⟨fun hst => LadderStatus.noConfusion hst, ?_⟩
    rintro ⟨n, hn, hs⟩
    rw [h.divided_iff] at hdiv
    rcases ranking with _ | ⟨e, _ | ⟨e', rest⟩⟩
    · simp at hdiv
    · simp at hdiv
    · obtain rfl := h.first_of_standsAlone hn hs
      rw [h.fuzzyWinner_eq, if_pos (h.standsAlone_iff.1 hs)] at hno
      cases hno

end Ranked

/-! ## The scan -/

namespace NameStores

variable (S : NameStores) (U : Unicode) (fuzz : RapidFuzz) (label : String) (he en : Option String)

/-- The nodes the fuzzy step scans. -/
def scanned : List NodeKey := S.found (.allNodes label)

/-- The score of a scanned node for a mention. -/
def mentionScore (n : NodeKey) : ℚ :=
  nodeScore U fuzz (normalizeHebrew U (he.getD "")) (U.lower (strip (en.getD "")))
    (rowOf S.graph n (.allNodes label))

/-- The candidate that a scanned node makes, if it reaches the floor. -/
def candidateOf (n : NodeKey) : Option Candidate := do
  let (best, reason) ← fuzzyScore U fuzz (normalizeHebrew U (he.getD ""))
    (U.lower (strip (en.getD ""))) (rowOf S.graph n (.allNodes label))
  let id ← Uuid.parse n.2
  return ⟨id, 5, reason, best⟩

/-- The scored nodes, best first. -/
def ranking : List (NodeKey × Candidate) :=
  ((S.scanned label).filterMap fun n =>
    (S.candidateOf U fuzz label he en n).map (n, ·)).insertionSort
      fun a b => b.2.score ≤ a.2.score

variable {S U fuzz label he en}

theorem id_of_scanned {n : NodeKey} (hn : n ∈ S.scanned label) :
    ∃ u : Uuid, n.2 = u.str ∧ n.1.text = label := by
  have hmem := Finset.mem_filter.1 (mem_matching hn)
  obtain ⟨u, hu⟩ := S.ids n hmem.1
  exact ⟨u, hu, eq_of_beq hmem.2⟩

variable (S U fuzz label he en) in
theorem fuzzyScore_rowOf (n : NodeKey) :
    (fuzzyScore U fuzz (normalizeHebrew U (he.getD "")) (U.lower (strip (en.getD "")))
      (rowOf S.graph n (.allNodes label))).map Prod.fst =
      if S.mentionScore U fuzz label he en n < 60 then none
      else some (S.mentionScore U fuzz label he en n) :=
  fuzzyScore_map U fuzz _ _ _

theorem candidateOf_eq_some {n : NodeKey} {c : Candidate}
    (h : S.candidateOf U fuzz label he en n = some c) :
    60 ≤ S.mentionScore U fuzz label he en n ∧
      c.score = S.mentionScore U fuzz label he en n ∧ c.matchStep = 5 ∧
        Uuid.parse n.2 = some c.entityId := by
  unfold candidateOf at h
  rw [Option.bind_eq_bind, Option.bind_eq_some_iff] at h
  obtain ⟨⟨best, reason⟩, hscore, h⟩ := h
  rw [Option.bind_eq_bind, Option.bind_eq_some_iff] at h
  obtain ⟨id, hid, h⟩ := h
  cases h
  have hmap := fuzzyScore_rowOf S U fuzz label he en n
  rw [hscore, Option.map_some] at hmap
  split at hmap
  · cases hmap
  · rename_i hfloor
    exact ⟨not_lt.1 hfloor, Option.some.inj hmap, rfl, hid⟩

theorem exists_candidateOf {n : NodeKey} (hn : n ∈ S.scanned label)
    (hfloor : 60 ≤ S.mentionScore U fuzz label he en n) :
    ∃ c, S.candidateOf U fuzz label he en n = some c := by
  obtain ⟨u, hu, -⟩ := id_of_scanned hn
  have hmap := fuzzyScore_rowOf S U fuzz label he en n
  rw [if_neg (not_lt.2 hfloor)] at hmap
  obtain ⟨⟨best, reason⟩, hscore, -⟩ := Option.map_eq_some_iff.1 hmap
  refine ⟨⟨u, 5, reason, best⟩, ?_⟩
  unfold candidateOf
  rw [hscore, hu, Uuid.parse_str]
  rfl

theorem mem_ranking {e : NodeKey × Candidate} : e ∈ S.ranking U fuzz label he en ↔
    e.1 ∈ S.scanned label ∧ S.candidateOf U fuzz label he en e.1 = some e.2 := by
  unfold ranking
  rw [List.mem_insertionSort, List.mem_filterMap]
  constructor
  · rintro ⟨n, hn, h⟩
    obtain ⟨c, hc, rfl⟩ := Option.map_eq_some_iff.1 h
    exact ⟨hn, hc⟩
  · rintro ⟨hn, hc⟩
    exact ⟨e.1, hn, by rw [hc]; rfl⟩

variable (S U fuzz label he en) in
theorem ranking_ranked :
    Ranked (S.scanned label) (S.mentionScore U fuzz label he en) (S.ranking U fuzz label he en) where
  order := List.pairwise_insertionSort (fun a b : NodeKey × Candidate => b.2.score ≤ a.2.score) _
  nodup := by
    have hperm := (List.perm_insertionSort (fun a b : NodeKey × Candidate => b.2.score ≤ a.2.score)
      ((S.scanned label).filterMap fun n => (S.candidateOf U fuzz label he en n).map (n, ·))).map
        Prod.fst
    refine hperm.nodup_iff.2 ?_
    rw [List.map_filterMap]
    refine (found_nodup _).filterMap fun n n' x hn hn' => ?_
    simp only [Option.map_map, Option.mem_def, Option.map_eq_some_iff, Function.comp_apply] at hn hn'
    obtain ⟨c, -, rfl⟩ := hn
    obtain ⟨c', -, heq⟩ := hn'
    exact heq.symm
  complete := by
    intro n hn hfloor
    obtain ⟨c, hc⟩ := exists_candidateOf hn hfloor
    exact ⟨c, mem_ranking.2 ⟨hn, hc⟩⟩
  mem := by
    intro e he
    obtain ⟨hn, hc⟩ := mem_ranking.1 he
    exact ⟨hn, (candidateOf_eq_some hc).1⟩
  score := by
    intro e he
    exact (candidateOf_eq_some (mem_ranking.1 he).2).2.1
  step := by
    intro e he
    exact (candidateOf_eq_some (mem_ranking.1 he).2).2.2.1
  ids := by
    intro e he e' he' hid
    obtain ⟨hn, hc⟩ := mem_ranking.1 he
    obtain ⟨hn', hc'⟩ := mem_ranking.1 he'
    obtain ⟨u, hu, hlabel⟩ := id_of_scanned hn
    obtain ⟨u', hu', hlabel'⟩ := id_of_scanned hn'
    have hid₁ := (candidateOf_eq_some hc).2.2.2
    have hid₂ := (candidateOf_eq_some hc').2.2.2
    rw [hu, Uuid.parse_str] at hid₁
    rw [hu', Uuid.parse_str, ← hid, ← hid₁] at hid₂
    obtain rfl := Option.some.inj hid₂
    refine Prod.ext ?_ (hu.trans hu'.symm)
    exact Label.text_injective (hlabel.trans hlabel'.symm)

variable (U fuzz he en) in
/-- One turn of the scan. -/
def scanRow (acc : List Candidate) (row : NodeRow) : Eff σ (List Candidate) :=
  match fuzzyScore U fuzz (normalizeHebrew U (he.getD "")) (U.lower (strip (en.getD ""))) row with
  | none => pure acc
  | some (best, reason) => do
    let id ← uuidOrRaise row.id
    return acc ++ [⟨id, 5, reason, best⟩]

theorem scanRow_eq {n : NodeKey} (hn : n ∈ S.scanned label) (acc : List Candidate) (s : σ) :
    scanRow U fuzz he en acc (rowOf S.graph n (.allNodes label)) s =
      (.ok (acc ++ (S.candidateOf U fuzz label he en n).toList), s) := by
  obtain ⟨u, hu, -⟩ := id_of_scanned hn
  unfold scanRow candidateOf
  cases fuzzyScore U fuzz (normalizeHebrew U (he.getD "")) (U.lower (strip (en.getD "")))
      (rowOf S.graph n (.allNodes label)) with
  | none =>
    change (Except.ok acc, s) = (Except.ok (acc ++ []), s)
    rw [List.append_nil]
  | some found =>
    have hid : uuidOrRaise (σ := σ) (rowOf S.graph n (.allNodes label)).id = pure u := by
      change uuidOrRaise n.2 = _
      unfold uuidOrRaise
      rw [hu, Uuid.parse_str]
    dsimp only
    rw [Eff.bind_of_ok (congrFun hid s), hu, Uuid.parse_str]
    rfl

variable (U fuzz he en) in
/-- The scan makes a candidate of every node that reaches the floor. -/
theorem scan_eq (nodes : List NodeKey) (hnodes : ∀ n ∈ nodes, n ∈ S.scanned label)
    (acc : List Candidate) (s : σ) :
    Eff.forList (scanRow U fuzz he en) acc (nodes.map fun n => rowOf S.graph n (.allNodes label)) s =
      (.ok (acc ++ nodes.filterMap (S.candidateOf U fuzz label he en)), s) := by
  induction nodes generalizing acc with
  | nil =>
    rw [List.filterMap_nil, List.append_nil]
    rfl
  | cons n nodes ih =>
    rw [List.forall_mem_cons] at hnodes
    rw [List.map_cons, Eff.forList, Eff.bind_of_ok (scanRow_eq hnodes.1 acc s), ih hnodes.2,
      List.append_assoc, List.filterMap_cons]
    cases S.candidateOf U fuzz label he en n <;> rfl

/-- **What the fuzzy step returns**: the five best of the ranking. -/
theorem lookupFuzzy_eq (s : σ) : lookupFuzzy U (some fuzz) S.session label he en s =
    (.ok (Ranked.candidates (S.ranking U fuzz label he en)), s) := by
  have hsort : (S.ranking U fuzz label he en).map Prod.snd =
      ((S.scanned label).filterMap (S.candidateOf U fuzz label he en)).insertionSort
        fun a b => b.score ≤ a.score := by
    unfold ranking
    rw [List.map_insertionSort (fun a b : NodeKey × Candidate => b.2.score ≤ a.2.score)
      (fun a b : Candidate => b.score ≤ a.score) Prod.snd _ fun _ _ _ _ => Iff.rfl,
      List.map_filterMap]
    simp only [Option.map_map, Function.comp_def, Option.map_id']
  have hscan := scan_eq U fuzz he en (S.scanned label) (fun _ h => h) [] s
  rw [List.nil_append] at hscan
  unfold Ranked.candidates
  rw [hsort]
  change (S.session (.allNodes label) >>= fun rows =>
    Eff.forList (scanRow U fuzz he en) [] rows >>= fun scored =>
      pure ((scored.insertionSort fun a b => b.score ≤ a.score).take 5)) s = _
  rw [Eff.bind_of_ok (rfl : S.session (.allNodes label) s = (.ok (S.rows (.allNodes label)), s))]
  exact Eff.bind_of_ok hscan

end NameStores

/-! ## Threshold and margin -/

/-- A resolver without its tiebreaker. -/
def ResolveArgs.unassisted (args : ResolveArgs σ) : ResolveArgs σ :=
  { args with llmTiebreaker := none }

/-- The fifth step is the fuzzy one. -/
theorem ladderSteps_five {U : Unicode} {fuzz : Option RapidFuzz} {kind : EntityKind}
    {label : String} {args : ResolveArgs σ} {run : Session σ} (hrun : args.session = some run)
    {step : ℕ × Eff σ (List Candidate)} (hstep : step ∈ ladderSteps U fuzz kind label args)
    (hfive : step.1 = 5) :
    step.2 = if orNone args.hebrewName = none ∧ orNone args.englishName = none then pure [] else
      lookupFuzzy U fuzz run label args.hebrewName args.englishName := by
  unfold ladderSteps at hstep
  simp only [List.mem_cons, List.not_mem_nil, or_false] at hstep
  rcases hstep with rfl | rfl | rfl | rfl | rfl | rfl
  · cases hfive
  · cases hfive
  · cases hfive
  · cases hfive
  · cases hfive
  · dsimp only
    rw [hrun]

/-- **The winner of the fuzzy step**, if no tiebreaker picked it, obeys the threshold and the
margin iff some node scanned reaches the threshold. -/
theorem fuzzy_winner_iff {S : NameStores} {U : Unicode} {fuzz : RapidFuzz} {kind : EntityKind}
    {label idField : String} (hlabel : labelByKind kind = some (label, idField))
    {args : ResolveArgs σ} (hsession : args.session = some S.session) {s s' : σ} {r : ResolveResult}
    (h : resolve U (some fuzz) kind args s = (.ok r, s'))
    (hpick : resolve U (some fuzz) kind args.unassisted s = resolve U (some fuzz) kind args s)
    (hr : r.status = .resolved) (hfive : ∀ c ∈ r.candidates, c.matchStep = 5) :
    (∃ n ∈ S.scanned label, r.entityId.map Uuid.str = some n.2 ∧
      LeadsBy (S.scanned label)
        (S.mentionScore U fuzz label args.hebrewName args.englishName) n) ↔
      ∃ n ∈ S.scanned label, fuzzyResolveThreshold ≤
        S.mentionScore U fuzz label args.hebrewName args.englishName n := by
  constructor
  · rintro ⟨n, hn, -, hlead⟩
    exact ⟨n, hn, hlead.1⟩
  rintro ⟨top, htop, hthreshold⟩
  rw [h] at hpick
  obtain ⟨label', idField', candidates, t, hlabel', hclimb, hexit⟩ := resolve_ok hpick
  obtain ⟨rfl, -⟩ := Prod.mk.inj (Option.some.inj (hlabel.symm.trans hlabel'))
  have hranked := S.ranking_ranked U fuzz label args.hebrewName args.englishName
  have hcandidates : candidates = Ranked.candidates
      (S.ranking U fuzz label args.hebrewName args.englishName) := by
    rw [hexit.candidates] at hfive
    rcases climb_ok hclimb with ⟨rfl, -⟩ | ⟨hne, before, step, after, u, hsteps, -, hlast⟩
    · cases hexit with
      | unresolved => cases hr
      | single best _ hbest => cases hbest
      | clear top hdiv => exact absurd rfl hdiv.ne_nil
      | picked id hdiv => exact absurd rfl hdiv.ne_nil
      | ambiguous => cases hr
    · have hmem : step ∈ ladderSteps U (some fuzz) kind label args.unassisted :=
        hsteps ▸ List.mem_append_right _ List.mem_cons_self
      obtain ⟨c, hc⟩ := List.exists_mem_of_ne_nil _ hne
      have hnumber := (ladderSteps_numbered step hmem u candidates t hlast c hc).symm.trans
        (hfive c hc)
      have hsession' : args.unassisted.session = some S.session := hsession
      rw [ladderSteps_five hsession' hmem hnumber] at hlast
      split at hlast
      · cases hlast
        exact absurd rfl hne
      · have heq := (NameStores.lookupFuzzy_eq u).symm.trans hlast
        exact (Except.ok.inj (Prod.mk.inj heq).1).symm
  subst hcandidates
  obtain ⟨e, he, hid, halone⟩ := (hranked.resolved_iff rfl hexit).1 hr
  have hmem := (hranked.mem e he).1
  have hkey : (e.2.entityId).str = e.1.2 := by
    obtain ⟨hscanned, hc⟩ := NameStores.mem_ranking.1 he
    obtain ⟨u, hu, -⟩ := NameStores.id_of_scanned hscanned
    have hparse := (NameStores.candidateOf_eq_some hc).2.2.2
    rw [hu, Uuid.parse_str] at hparse
    rw [hu, Option.some.inj hparse]
  refine ⟨e.1, hmem, by rw [hid, Option.map_some, hkey], ?_⟩
  rcases halone with ⟨hfloor, hothers⟩ | hlead
  · -- the node that reaches the threshold can only be the one that reaches the floor
    have hgap := threshold_ge_floor
    have hmargin := fuzzyMargin_pos
    have htopeq : top = e.1 := by
      by_contra hne
      have hlow := hothers top htop hne
      linarith
    subst htopeq
    refine ⟨hthreshold, fun n hn hne => ?_⟩
    have hlow := hothers n hn hne
    linarith
  · exact hlead

/-- A single person, whose name is close to a mention. -/
def nearName : NameStores :=
  .ofNodes .person [(repeated 'a' isHexDigit_a, hebrewNamed "רן לוי")] (by decide) id

/-- The similarities of "דן לוי" and "רן לוי". -/
def nearSimilarity : RapidFuzz := ⟨fun _ _ => 250 / 3, fun _ _ => 1000 / 11⟩

/-- The question for the mention. -/
def nearArgs : ResolveArgs Unit :=
  { hebrewName := some "דן לוי", session := some nearName.session }

theorem nearArgs_resolved : ∃ r s,
    resolve composedText (some nearSimilarity) .person nearArgs () = (.ok r, s) ∧
      r.status = .resolved ∧ ∀ c ∈ r.candidates, c.matchStep = 5 := by
  obtain ⟨r, s, hr, hread⟩ :=
    Eff.ok_of_map (x := resolve composedText (some nearSimilarity) .person nearArgs) (s := ())
      (f := fun r => (r.status, r.candidates.map (·.matchStep))) (c := (.resolved, [5]))
      (by decide +kernel)
  obtain ⟨hstatus, hsteps⟩ := Prod.mk.inj hread
  refine ⟨r, s, hr, hstatus, fun c hc => ?_⟩
  have hmem := List.mem_map_of_mem (f := (·.matchStep)) hc
  rw [hsteps] at hmem
  exact List.mem_singleton.1 hmem

theorem nearName_score : ∀ n ∈ nearName.scanned "Person",
    nearName.mentionScore composedText nearSimilarity "Person" (some "דן לוי") none n = 250 / 3 := by
  decide +kernel

/-- **A person below the threshold is the winner** when no other one reaches the floor. -/
theorem fuzzy_winner_below_threshold : ∃ r s,
    resolve composedText (some nearSimilarity) .person nearArgs () = (.ok r, s) ∧
      nearArgs.llmTiebreaker = none ∧ r.status = .resolved ∧
      (∀ c ∈ r.candidates, c.matchStep = 5) ∧
      ¬∃ n ∈ nearName.scanned "Person", r.entityId.map Uuid.str = some n.2 ∧
        LeadsBy (nearName.scanned "Person")
          (nearName.mentionScore composedText nearSimilarity "Person" (some "דן לוי") none) n := by
  obtain ⟨r, s, hr, hstatus, hfive⟩ := nearArgs_resolved
  refine ⟨r, s, hr, rfl, hstatus, hfive, ?_⟩
  rintro ⟨n, hn, -, hlead, -⟩
  rw [nearName_score n hn] at hlead
  norm_num [fuzzyResolveThreshold] at hlead

theorem fuzzy_winner_iff_near_name : ∃ r s,
    resolve composedText (some nearSimilarity) .person nearArgs () = (.ok r, s) ∧
      ((∃ n ∈ nearName.scanned "Person", r.entityId.map Uuid.str = some n.2 ∧
        LeadsBy (nearName.scanned "Person")
          (nearName.mentionScore composedText nearSimilarity "Person" (some "דן לוי") none) n) ↔
        ∃ n ∈ nearName.scanned "Person", fuzzyResolveThreshold ≤
          nearName.mentionScore composedText nearSimilarity "Person" (some "דן לוי") none n) := by
  obtain ⟨r, s, hr, hstatus, hfive⟩ := nearArgs_resolved
  have hlabel : labelByKind .person = some ("Person", "person_id") := rfl
  have hsession : nearArgs.session = some nearName.session := rfl
  have hsame : nearArgs.unassisted = nearArgs := rfl
  exact ⟨r, s, hr, fuzzy_winner_iff hlabel hsession hr (by rw [hsame]) hstatus hfive⟩

end CivicProof
