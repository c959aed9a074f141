import CivicProof.Proof.Reingest
import CivicProof.Spec.DecisionCrawl

/-!
# Which decisions the crawl misses

* `forList_crawlPage`: what has been handed to the graph after some pages.
* `crawl_terminates`: the crawl ends.
* `crawl_complete_iff`: it upserts every formal decision iff these stand in front.
-/

namespace CivicProof

open Paging

section Crawl

variable {σ : Type} {E : IngestEnv} {S : DecisionStores σ} {dryRun : Bool} {s s' : σ}

theorem upsertDecision_ok {crawl crawl' : DecisionCrawl} {d : NormalizedGovernmentDecision}
    (h : upsertDecision S dryRun crawl d s = (.ok crawl', s')) :
    crawl'.upserted = crawl.upserted ++ [d] := by
  unfold upsertDecision at h
  obtain ⟨-, s₁, -, h⟩ := Eff.bind_ok.1 h
  rw [← Except.ok.inj (Prod.mk.inj h).1]

theorem forList_upsertDecision {l : List NormalizedGovernmentDecision}
    {crawl crawl' : DecisionCrawl}
    (h : Eff.forList (upsertDecision S dryRun) crawl l s = (.ok crawl', s')) :
    crawl'.upserted = crawl.upserted ++ l :=
  Eff.forList_inv (fun done (c : DecisionCrawl) => c.upserted = crawl.upserted ++ done)
    (fun done d c c' s s' hc _ h => by rw [upsertDecision_ok h, hc, List.append_assoc])
    (List.append_nil _).symm h

theorem crawlPage_ok {crawl crawl' : DecisionCrawl} {page : ℕ × List (Option BudgetKeySource)}
    (h : crawlPage E S dryRun crawl page s = (.ok crawl', s')) :
    crawl'.upserted = crawl.upserted ++ (parseResponse page.2).map (normalizeDecision E) := by
  unfold crawlPage at h
  obtain ⟨-, s₁, -, h⟩ := Eff.bind_ok.1 h
  rw [forList_upsertDecision h]

/-- **What has been handed to the graph** after some pages. -/
theorem forList_crawlPage {w : List (ℕ × List (Option BudgetKeySource))}
    {crawl crawl' : DecisionCrawl}
    (h : Eff.forList (crawlPage E S dryRun) crawl w s = (.ok crawl', s')) :
    crawl'.upserted =
      crawl.upserted ++ (w.flatMap fun e => parseResponse e.2).map (normalizeDecision E) :=
  Eff.forList_inv
    (fun done (c : DecisionCrawl) => c.upserted =
      crawl.upserted ++ (done.flatMap fun e => parseResponse e.2).map (normalizeDecision E))
    (fun done page c c' s s' hc _ h => by
      rw [crawlPage_ok h, hc, List.append_assoc, List.flatMap_append, List.map_append,
        List.flatMap_singleton])
    (by simp) h

end Crawl

section Complete

variable {σ : Type} (E : IngestEnv) (S : DecisionStores σ) (dryRun : Bool) (adapter : String)
  (results : List (Option BudgetKeySource)) (s : σ) (stats : Dict Json)

/-- **The crawl ends**, on every result list. -/
theorem crawl_terminates : ∃ n, ∀ fuel ≥ n,
    (crawlDecisions E S dryRun adapter none results fuel s stats).isSome := by
  obtain ⟨w, hw⟩ : ∃ w, (decisionFeed results).Walk 0 w := exists_offset_walk (by decide) 0
  refine ⟨w.length, fun fuel hfuel => ?_⟩
  have hfollow : Eff.follow (decisionFeed results) (crawlPage E S dryRun) (fun _ => false) fuel 0 {}
      s = some (Eff.forList (crawlPage E S dryRun) {} w s) := Eff.follow_walk hw hfuel _ s
  have hcrawl : crawlDecisions E S dryRun adapter none results fuel s stats =
      (Eff.follow (decisionFeed results) (crawlPage E S dryRun) (fun _ => false) fuel 0 {} s).map
        (reported stats fun crawl => crawl.stats adapter) := rfl
  rw [hcrawl, hfollow]
  rfl

/-- **When the crawl ends normally**, and what it reports then. -/
theorem crawlDecisions_ok_iff {crawl : DecisionCrawl} {s' : σ} {stats' : Dict Json} :
    (∃ n, ∀ fuel ≥ n, crawlDecisions E S dryRun adapter none results fuel s stats =
        some (.ok crawl, s', stats')) ↔
      ∃ w, (decisionFeed results).Walk 0 w ∧
        Eff.forList (crawlPage E S dryRun) {} w s = (.ok crawl, s') ∧
        stats' = addStats stats (crawl.stats adapter) :=
  Eff.follow_reported_iff

/-- **The crawl is complete**: it ends normally, and has upserted each decision of the result list
that `parse_response` keeps, in order and each as often as the list has it. -/
def CrawlComplete : Prop :=
  ∃ crawl s', (∃ n, ∀ fuel ≥ n, crawlDecisions E S dryRun adapter none results fuel s stats =
      some (.ok crawl, s', addStats stats (crawl.stats adapter))) ∧
    (if dryRun then [] else crawl.upserted) = (parseResponse results).map (normalizeDecision E)

/-- **When the crawl is complete**: the stores take the pages it reaches, every result on a page
before that of a formal decision is a formal decision itself, and a dry run has none to miss. -/
theorem crawl_complete_iff : CrawlComplete E S dryRun adapter results s stats ↔
    (∀ w, (decisionFeed results).Walk 0 w →
      ∃ crawl s', Eff.forList (crawlPage E S dryRun) {} w s = (.ok crawl, s')) ∧
    Front parseHit decisionPageSize results ∧ (dryRun = true → parseResponse results = []) := by
  have hkept {w : List (ℕ × List (Option BudgetKeySource))}
      (hwalk : (decisionFeed results).Walk 0 w) :
      (w.flatMap fun e => parseResponse e.2) = parseResponse results ↔
        Front parseHit decisionPageSize results := offset_walk_kept_iff (by decide) hwalk
  constructor
  · rintro ⟨crawl, s', hrun, hall⟩
    obtain ⟨w, hwalk, hw, -⟩ := (crawlDecisions_ok_iff ..).1 hrun
    refine ⟨fun w' hwalk' => ?_, ?_, ?_⟩
    · rw [hwalk'.unique hwalk]
      exact ⟨crawl, s', hw⟩
    · have hmet : (w.flatMap fun e => parseResponse e.2) <+: parseResponse results :=
        offset_walk_kept_prefix hwalk
      refine (hkept hwalk).1 ?_
      cases dryRun with
      | true =>
        have hnone : parseResponse results = [] := List.map_eq_nil_iff.1 hall.symm
        rw [hnone] at hmet ⊢
        exact List.prefix_nil.1 hmet
      | false =>
        rw [if_neg Bool.false_ne_true, forList_crawlPage hw, List.nil_append] at hall
        have hlen := congrArg List.length hall
        rw [List.length_map, List.length_map] at hlen
        exact hmet.eq_of_length hlen
    · intro hdry
      rw [if_pos hdry] at hall
      exact List.map_eq_nil_iff.1 hall.symm
  · rintro ⟨hstores, hfront, hdry⟩
    obtain ⟨w, hwalk⟩ : ∃ w, (decisionFeed results).Walk 0 w := exists_offset_walk (by decide) 0
    obtain ⟨crawl, s', hw⟩ := hstores w hwalk
    refine ⟨crawl, s', (crawlDecisions_ok_iff ..).2 ⟨w, hwalk, hw, rfl⟩, ?_⟩
    cases dryRun with
    | true => simp [hdry rfl]
    | false =>
      rw [if_neg Bool.false_ne_true, forList_crawlPage hw, (hkept hwalk).2 hfront]
      rfl

end Complete

/-! ### A guideline on the first page -/

/-- A guideline, then fifty formal decisions: the last one stands on the second page. -/
def lateDecisions : List (Option BudgetKeySource) :=
  some { id := some "g", title := some "נוהל", policyType := some "נהלים והנחיות" } ::
    List.replicate 50
      (some { id := some "d", title := some "החלטה", policyType := some "החלטות ממשלה" })

/-- Stores that take everything. -/
def demoDecisionStores : DecisionStores Unit := ⟨fun _ _ => pure (), fun _ => pure ()⟩

/-- The crawl ends after the first page, with 49 of the 50 decisions. -/
theorem late_decision_missed :
    (∀ fuel crawl s' stats, crawlDecisions demoEnv demoDecisionStores false "gov_decisions" none
        lateDecisions fuel () ∅ = some (.ok crawl, s', stats) → crawl.upserted.length = 49) ∧
      (parseResponse lateDecisions).length = 50 ∧
      ¬CrawlComplete demoEnv demoDecisionStores false "gov_decisions" lateDecisions () ∅ := by
  have hpage : (parseResponse ((lateDecisions.drop 0).take decisionPageSize)).length = 49 := by
    decide
  have hall : (parseResponse lateDecisions).length = 50 := by decide
  have hwalk : (decisionFeed lateDecisions).Walk 0
      [(0, (lateDecisions.drop 0).take decisionPageSize)] := by
    refine .last rfl (congrArg Except.ok (if_pos ?_))
    exact hpage.trans_lt (by decide)
  have hmet : ∀ fuel crawl s' stats, crawlDecisions demoEnv demoDecisionStores false
      "gov_decisions" none lateDecisions fuel () ∅ = some (.ok crawl, s', stats) →
        crawl.upserted.length = 49 := by
    intro fuel crawl s' stats h
    obtain ⟨x, hfollow, hx⟩ := Option.map_eq_some_iff.1 h
    obtain ⟨rfl, -⟩ := reported_ok.1 hx
    obtain ⟨w, hw, hcrawl⟩ := Eff.follow_ok hfollow
    rw [forList_crawlPage hcrawl, hw.unique hwalk]
    simpa using hpage
  refine ⟨hmet, hall, ?_⟩
  rintro ⟨crawl, s', ⟨n, hrun⟩, hcomplete⟩
  have hlen := congrArg List.length hcomplete
  rw [if_neg Bool.false_ne_true, List.length_map, hall, hmet n crawl s' _ (hrun n le_rfl)] at hlen
  exact absurd hlen (by decide)

end CivicProof
