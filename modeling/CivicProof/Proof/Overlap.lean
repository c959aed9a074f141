import CivicProof.Greedy.Select
import CivicProof.Proof.Decompose
import CivicProof.Regex.Runs

/-!
# Overlapping matches

All templates but those of government decisions are anchored at the end of the statement, and
decisions never overlap each other. The selection is greedy in the order of length and start; the
documented order among equally long matches is that of the templates.

* `decisions_disjoint`: two matches of decision templates never overlap.
* `selection_law_iff`: the selected matches are disjoint and cover the others by length, always;
  ties go to the earlier template exactly if no tied match starts earlier.
-/

namespace CivicProof

open Regex Re Greedy

/-! ## Words of the Hebrew decision templates -/

/-- The words with which a reference to a decision begins. -/
def refHeads : List (List Char) := ["בהחלטה".toList, "להחלטה".toList, "החלטה".toList]

/-- The words with which a decision by its number begins. -/
def numberHeads : List (List Char) :=
  ["הממשלה".toList, "בהחלט".toList, "בהחלטת".toList, "החלט".toList, "החלטת".toList]

/-- The words that announce a number, or none. -/
def numberWords : List (List Char) := [[], "מספר".toList, "מס".toList]

/-- The words inside a reference. -/
def refRuns : List (List Char) := (refHeads ++ numberWords).flatMap List.tails

/-- The words before the number's government. -/
def governmentWords : List (List Char) := [[], "ה".toList, "הממשלה".toList, "של".toList]

/-- The words inside a decision by its number. The last word may run into the number's. -/
def numberRuns : List (List Char) :=
  (numberHeads ++ ["ת".toList] ++ governmentWords ++
    numberWords.flatMap fun w => ["החליטה".toList ++ w, "ממשלה".toList ++ w]).flatMap List.tails

section

variable {A B S : List Char → Prop}

theorem he_runs {s : String} (hs : s.toList.all isHebrewChar = true)
    (hB : ∀ l, A l → B (s.toList ++ l))
    (hS : ∀ l, A l → ∀ y ∈ s.toList.tails, y ≠ [] → S (y ++ l)) :
    (he s).Runs isHebrewChar A B S := Runs_word charEq_iff hs hB hS

theorem sp_runs (hB : B []) (hS : S []) : sp.Runs isHebrewChar A B S :=
  Runs_outside sp_within ⟨Nat.one_pos, fun _ _ => trivial⟩ hB hS

theorem sp0_runs (h : ∀ l, A l → B l) (hB : B []) (hS : S []) : sp0.Runs isHebrewChar A B S :=
  Runs_outside_opt sp0_within h hB hS

/-- A mark that is no Hebrew character, or none. -/
theorem mark_runs {s : String} (hs : s.toList.all (isHebrewChar · = false) = true)
    (h : ∀ l, A l → B l) (hB : B []) (hS : S []) :
    (opt (he s)).Runs isHebrewChar A B S :=
  Runs_outside_opt (Within_opt.2 (en_within hs)) h hB hS

theorem decisionEnd_runs (hS : S []) :
    decisionEnd.Runs isHebrewChar (fun _ => True) (fun _ => True) S :=
  Runs_outside_opt decisionEnd_within (fun _ _ => trivial) trivial hS

theorem decisionNumber_runs (hB : B []) (hS : S []) : decisionNumber.Runs isHebrewChar A B S :=
  Runs_outside decisionNumber_within (Or.inl fun _ _ => trivial) hB hS

theorem heNumberWord_runs (hS : ∀ w ∈ numberWords, ∀ y ∈ w.tails, S y) :
    heNumberWord.Runs isHebrewChar (· = []) (· ∈ numberWords) S := by
  have hnil : S [] := hS [] (by decide) [] (by decide)
  have hword : ∀ {s : String}, s.toList.all isHebrewChar = true → s.toList ∈ numberWords →
      (he s).Runs isHebrewChar (· = []) (· ∈ numberWords) S := by
    intro s hs hmem
    refine he_runs hs ?_ ?_
    · rintro _ rfl
      rwa [List.append_nil]
    · rintro _ rfl y hy -
      rw [List.append_nil]
      exact hS _ hmem y hy
  have hmark : ∀ {s : String}, s.toList.all (isHebrewChar · = false) = true →
      (opt (he s)).Runs isHebrewChar (· = []) (· = []) S :=
    fun hs => mark_runs hs (fun _ h => h) rfl hnil
  refine Runs_alt (hword (by decide) (by decide)) (Runs_alt ?_ ?_)
  · exact Runs_seq (hword (by decide) (by decide)) (hmark (by decide))
  · exact Runs_seq (hword (by decide) (by decide)) (hmark (by decide))

end

/-- **The words of a reference.** -/
theorem heGovDecisionRef_runs :
    heGovDecisionRef.Runs isHebrewChar (fun _ => True) (· ∈ refHeads) (· ∈ refRuns) := by
  have hnil : [] ∈ refRuns := by decide
  have hhead : ∀ {s : String}, s.toList.all isHebrewChar = true → s.toList ∈ refHeads →
      (he s).Runs isHebrewChar (· = []) (· ∈ refHeads) (· ∈ refRuns) := by
    intro s hs hmem
    refine he_runs hs ?_ ?_
    · rintro _ rfl
      rwa [List.append_nil]
    · rintro _ rfl y hy -
      rw [List.append_nil]
      exact List.mem_flatMap.2 ⟨_, List.mem_append_left _ hmem, hy⟩
  refine Runs_seq (C := (· = [])) ?_ (Runs_seq (C := (· ∈ numberWords)) (sp_runs rfl hnil)
    (Runs_seq (C := (· = [])) (heNumberWord_runs fun w hw y hy => ?_)
    (Runs_seq (C := (· = [])) (sp0_runs (fun _ h => h) rfl hnil)
    (Runs_seq (C := fun _ => True) (decisionNumber_runs rfl hnil) (decisionEnd_runs hnil)))))
  · exact Runs_alt (hhead (by decide) (by decide))
      (Runs_alt (hhead (by decide) (by decide)) (hhead (by decide) (by decide)))
  · exact List.mem_flatMap.2 ⟨w, List.mem_append_right _ hw, hy⟩

/-- **The words of a decision by its number.** -/
theorem heGovDecisionNumber_runs :
    heGovDecisionNumber.Runs isHebrewChar (fun _ => True) (· ∈ numberHeads) (· ∈ numberRuns) := by
  have hnil : [] ∈ numberRuns := by decide
  -- the number, and what stands behind it
  have hgovernment : (opt (cat [sp, opt (cat [he "של", sp]), opt (cat [he "הממשלה", sp]),
      opt (cat [he "ה", opt (he "-"), sp0]),
      .group .governmentNumber (.rep isDigit 1 (some 2) true)])).Runs isHebrewChar
        (fun _ => True) (fun _ => True) (· ∈ numberRuns) := by
    refine Runs_opt ?_ fun _ h => h
    refine Runs_seq (C := (· ∈ governmentWords)) (sp_runs trivial hnil) ?_
    have hword : ∀ {s : String}, s.toList.all isHebrewChar = true → s.toList ∈ governmentWords →
        (he s).Runs isHebrewChar (· = []) (· ∈ governmentWords) (· ∈ numberRuns) := by
      intro s hs hmem
      refine he_runs hs ?_ ?_
      · rintro _ rfl
        rwa [List.append_nil]
      · rintro _ rfl y hy -
        rw [List.append_nil]
        exact List.mem_flatMap.2
          ⟨_, List.mem_append_left _ (List.mem_append_right _ hmem), hy⟩
    refine Runs_seq (C := (· ∈ governmentWords)) (Runs_opt (Runs_seq (C := (· = []))
      (hword (by decide) (by decide)) (sp_runs rfl hnil)) fun _ h => h) ?_
    refine Runs_seq (C := (· ∈ governmentWords)) (Runs_opt (Runs_seq (C := (· = []))
      (hword (by decide) (by decide)) (sp_runs rfl hnil)) fun _ h => h) ?_
    refine Runs_seq (C := (· = [])) ?_ (Runs_group (Runs_outside (fun _ => isDigit_nonHebrew)
      ⟨Nat.one_pos, fun _ _ => trivial⟩ rfl hnil))
    refine Runs_opt (Runs_seq (C := (· = [])) (hword (by decide) (by decide))
      (Runs_seq (C := (· = [])) (mark_runs (by decide) (fun _ h => h) rfl hnil)
      (sp0_runs (fun _ h => h) rfl hnil))) ?_
    rintro _ rfl
    decide
  have hnumber : (cat [sp0, opt heNumberWord, sp0, decisionNumber,
      opt (cat [sp, opt (cat [he "של", sp]), opt (cat [he "הממשלה", sp]),
        opt (cat [he "ה", opt (he "-"), sp0]),
        .group .governmentNumber (.rep isDigit 1 (some 2) true)]),
      decisionEnd]).Runs isHebrewChar (fun _ => True) (· ∈ numberWords) (· ∈ numberRuns) := by
    have hwords : ∀ w ∈ numberWords, ∀ y ∈ w.tails, y ∈ numberRuns := by decide
    refine Runs_seq (C := (· ∈ numberWords)) (sp0_runs (fun _ h => h) (by decide) hnil) ?_
    refine Runs_seq (C := (· = [])) (Runs_opt (heNumberWord_runs hwords) ?_) ?_
    · rintro _ rfl
      decide
    · exact Runs_seq (C := (· = [])) (sp0_runs (fun _ h => h) rfl hnil)
        (Runs_seq (C := fun _ => True) (decisionNumber_runs rfl hnil)
        (Runs_seq (C := fun _ => True) hgovernment (decisionEnd_runs hnil)))
  -- the three phrases in front of it
  have hlast : ∀ {s : String}, s.toList.all isHebrewChar = true →
      (∀ w ∈ numberWords, ∀ y ∈ s.toList.tails, y ≠ [] → y ++ w ∈ numberRuns) →
      (he s).Runs isHebrewChar (· ∈ numberWords) (fun _ => True) (· ∈ numberRuns) :=
    fun hs hS => he_runs hs (fun _ _ => trivial) hS
  have hphrase : ∀ {s : String}, s.toList.all isHebrewChar = true →
      (∀ t ∈ [[], "ת".toList], s.toList ++ t ∈ numberHeads) →
      (∀ t ∈ [[], "ת".toList], ∀ y ∈ s.toList.tails, y ≠ [] → y ++ t ∈ numberRuns) →
      (cat [he s, opt (he "ת"), sp, he "ממשלה"]).Runs isHebrewChar (· ∈ numberWords)
        (· ∈ numberHeads) (· ∈ numberRuns) := by
    intro s hs hB hS
    refine Runs_seq (C := (· ∈ [[], "ת".toList])) (he_runs hs hB hS) ?_
    refine Runs_seq (C := (· = [])) (Runs_opt (he_runs (by decide) ?_ ?_) ?_)
      (Runs_seq (C := fun _ => True) (sp_runs rfl hnil) (hlast (by decide) (by decide)))
    · rintro _ rfl
      decide
    · rintro _ rfl
      decide
    · rintro _ rfl
      decide
  refine Runs_seq (C := (· ∈ numberWords)) (Runs_alt ?_ (Runs_alt ?_ ?_)) hnumber
  · refine Runs_seq (C := (· = [])) (he_runs (by decide) ?_ ?_)
      (Runs_seq (C := fun _ => True) (sp_runs rfl hnil) (hlast (by decide) (by decide)))
    · rintro _ rfl
      decide
    · rintro _ rfl
      decide
  · exact hphrase (by decide) (by decide) (by decide)
  · exact hphrase (by decide) (by decide) (by decide)

/-! ## The table of templates -/

/-- A template that finds government decisions. -/
def RuleTemplate.Decision (t : RuleTemplate) : Prop := t.claimType = .governmentDecision

instance (t : RuleTemplate) : Decidable t.Decision := inferInstanceAs (Decidable (_ = _))

/-- The place of a template in `RULE_TEMPLATES`. -/
def templateIndex (t : RuleTemplate) : ℕ := (ruleTemplates.map (·.description)).idxOf t.description

theorem idxOf_pairwise {l : List String} (h : l.Nodup) :
    l.Pairwise fun a b => l.idxOf a < l.idxOf b := by
  rw [List.pairwise_iff_getElem]
  intro i j hi hj hij
  rwa [h.idxOf_getElem, h.idxOf_getElem]

theorem templateIndex_pairwise :
    ruleTemplates.Pairwise fun t t' => templateIndex t < templateIndex t' := by
  have hnodup : (ruleTemplates.map (·.description)).Nodup := by decide
  have hpair := idxOf_pairwise hnodup
  rw [List.pairwise_map] at hpair
  exact hpair

/-- The templates of decisions stand last. -/
theorem decision_pairwise : ruleTemplates.Pairwise fun t t' => t.Decision → t'.Decision := by decide

/-- The two decision templates of one language. -/
theorem decision_patterns : ruleTemplates.Pairwise fun t t' => t.language = t'.language →
    t.Decision → t'.Decision → t.pattern = heGovDecisionNumber ∧ t'.pattern = heGovDecisionRef := by
  simp [ruleTemplates, RuleTemplate.Decision]

theorem sentenceEnd_ends : sentenceEnd.Ends := fun _ _ h => List.isEmpty_iff.1 h

/-- **All other templates are anchored** at the end of the text. -/
theorem anchored_ends : ∀ t ∈ ruleTemplates, ¬t.Decision → t.pattern.Ends := by
  unfold ruleTemplates
  simp only [List.forall_mem_cons]
  refine ⟨fun _ => sentenceEnd_ends, fun _ => sentenceEnd_ends, fun _ => sentenceEnd_ends,
    fun _ => sentenceEnd_ends, fun _ => sentenceEnd_ends, fun _ => sentenceEnd_ends,
    fun _ => sentenceEnd_ends, fun _ => sentenceEnd_ends, fun _ => sentenceEnd_ends,
    fun _ => sentenceEnd_ends, fun _ => sentenceEnd_ends, fun _ => sentenceEnd_ends,
    fun _ => sentenceEnd_ends, fun _ => sentenceEnd_ends, fun h => absurd rfl h,
    fun h => absurd rfl h, fun h => absurd rfl h, fun t ht => absurd ht List.not_mem_nil⟩

/-- Every match takes a character. -/
theorem templates_need : ∀ t ∈ ruleTemplates, t.pattern.Needs fun _ => True := by
  have hsubject : heSubject.Needs fun _ => True := ⟨Nat.two_pos, fun _ _ => trivial⟩
  have hproper : ∀ ci, (enProper ci).Needs fun _ => True := fun ci => Or.inl fun _ _ => trivial
  have hnumber : decisionNumber.Needs fun _ => True := Or.inl fun _ _ => trivial
  unfold ruleTemplates
  simp only [List.forall_mem_cons]
  refine ⟨Or.inl hsubject, Or.inl hsubject, Or.inl hsubject, Or.inl hsubject, Or.inl hsubject,
    Or.inl (hproper true), Or.inl (hproper true), Or.inl (hproper true), Or.inl (hproper false),
    Or.inl (hproper false), Or.inl ⟨Nat.two_pos, fun _ _ => trivial⟩,
    Or.inl ⟨Nat.two_pos, fun _ _ => trivial⟩, Or.inl (hproper true), Or.inl (hproper true), ?_, ?_,
    ?_, fun t ht => absurd ht List.not_mem_nil⟩
  · exact Or.inr (Or.inr (Or.inr (Or.inr (Or.inl hnumber))))
  · exact Or.inr (Or.inr (Or.inr (Or.inr (Or.inl hnumber))))
  · exact Or.inr (Or.inr (Or.inr (Or.inr (Or.inl hnumber))))

theorem decision_last {t t' : RuleTemplate} (ht : t ∈ ruleTemplates) (ht' : t' ∈ ruleTemplates)
    (hlt : templateIndex t < templateIndex t') (hd : t.Decision) : t'.Decision := by
  have hpair : ruleTemplates.Pairwise fun t t' =>
      (templateIndex t < templateIndex t' → t.Decision → t'.Decision) ∧
        (templateIndex t' < templateIndex t → t'.Decision → t.Decision) :=
    (templateIndex_pairwise.and decision_pairwise).imp
      fun h => ⟨fun _ => h.2, fun hlt => absurd h.1 (Nat.lt_asymm hlt)⟩
  have hsymm : Std.Symm fun t t' : RuleTemplate =>
      (templateIndex t < templateIndex t' → t.Decision → t'.Decision) ∧
        (templateIndex t' < templateIndex t → t'.Decision → t.Decision) :=
    { symm := fun t t' h => ⟨h.2, h.1⟩ }
  have hne : t ≠ t' := by
    rintro rfl
    exact Nat.lt_irrefl _ hlt
  exact (hpair.forall ht ht' hne).1 hlt hd

/-! ## Matches in a statement -/

variable {s : List Char} {language : Language} {m m' : RuleMatch}

/-- The length of a match. -/
def RuleMatch.length (m : RuleMatch) : ℕ := m.stop - m.start

/-- A match of a decision template. -/
def RuleMatch.Decision (m : RuleMatch) : Prop := m.template.Decision

theorem overlaps_iff : overlaps m m' = true ↔ m'.start < m.stop ∧ m.start < m'.stop := by
  simp [overlaps]

theorem overlaps_eq_false_iff : overlaps m m' = false ↔ m.stop ≤ m'.start ∨ m'.stop ≤ m.start := by
  rw [← Bool.not_eq_true, overlaps_iff]
  omega

theorem overlaps_comm (m m' : RuleMatch) : overlaps m m' = overlaps m' m := by
  rw [Bool.eq_iff_iff, overlaps_iff, overlaps_iff, and_comm]

theorem start_lt_stop (hm : m ∈ iterMatches s language) : m.start < m.stop := by
  obtain ⟨u, w, v, g, -, hw, hstart, hstop, -⟩ := iterMatches_span hm
  obtain ⟨c, hc, -⟩ := (templates_need _ (iterMatches_template hm).1).exists_mem hw
  have hlen := List.length_pos_of_mem hc
  omega

/-- **An anchored match** ends with the statement. -/
theorem stop_of_anchored (hm : m ∈ iterMatches s language) (hd : ¬m.Decision) :
    m.stop = s.length := by
  obtain ⟨u, w, v, g, rfl, hw, -, hstop, -⟩ := iterMatches_span hm
  have hv := (anchored_ends _ (iterMatches_template hm).1 hd).post_eq_nil hw
  rw [hstop, hv, List.append_nil, List.length_append]

/-- Matches in declaration order, those of one template from left to right. -/
def Precedes (m m' : RuleMatch) : Prop :=
  templateIndex m.template < templateIndex m'.template ∨
    (m.template = m'.template ∧ m.stop ≤ m'.start)

theorem filter_pairwise {R : RuleTemplate → RuleTemplate → Prop} (h : ruleTemplates.Pairwise R)
    (language : Language) : (ruleTemplates.filter (·.language = language)).Pairwise R :=
  h.sublist List.filter_sublist

theorem iterMatches_pairwise (s : List Char) (language : Language) :
    (iterMatches s language).Pairwise Precedes := by
  unfold iterMatches
  rw [List.pairwise_flatMap]
  constructor
  · intro t _
    rw [List.pairwise_map]
    exact (finditer_pairwise t.pattern s).imp fun h => Or.inr ⟨rfl, h⟩
  · refine (filter_pairwise templateIndex_pairwise language).imp fun hlt m hm m' hm' => ?_
    obtain ⟨_, -, rfl⟩ := List.mem_map.1 hm
    obtain ⟨_, -, rfl⟩ := List.mem_map.1 hm'
    exact Or.inl hlt

/-- **Decisions never overlap.** -/
theorem decisions_disjoint (hm : m ∈ iterMatches s language) (hm' : m' ∈ iterMatches s language)
    (hd : m.Decision) (hd' : m'.Decision) (hne : m ≠ m') : overlaps m m' = false := by
  have hpair : (iterMatches s language).Pairwise fun m m' =>
      m.Decision → m'.Decision → overlaps m m' = false := by
    unfold iterMatches
    rw [List.pairwise_flatMap]
    constructor
    · intro t _
      rw [List.pairwise_map]
      exact (finditer_pairwise t.pattern s).imp fun h _ _ => overlaps_eq_false_iff.2 (Or.inl h)
    · refine (List.Pairwise.and_mem.1 (filter_pairwise decision_patterns language)).imp ?_
      rintro t t' ⟨ht, ht', hpat⟩ m hm m' hm' hd hd'
      obtain ⟨x, hx, rfl⟩ := List.mem_map.1 hm
      obtain ⟨x', hx', rfl⟩ := List.mem_map.1 hm'
      have hlang : t.language = t'.language := by
        rw [of_decide_eq_true (List.mem_filter.1 ht).2, of_decide_eq_true (List.mem_filter.1 ht').2]
      obtain ⟨hnumber, href⟩ := hpat hlang hd hd'
      obtain ⟨u, w, v, g, hs, hw, rfl⟩ := finditer_sound hx
      obtain ⟨u', w', v', g', hs', hw', rfl⟩ := finditer_sound hx'
      rw [hnumber] at hw
      rw [href] at hw'
      refine overlaps_eq_false_iff.2 ?_
      exact disjoint_of_runs heGovDecisionNumber_runs heGovDecisionRef_runs (by decide) (by decide)
        hw hw' (hs.symm.trans hs')
  have hsymm : Std.Symm fun m m' : RuleMatch => m.Decision → m'.Decision → overlaps m m' = false :=
    { symm := fun m m' h hd hd' => (overlaps_comm m' m).trans (h hd' hd) }
  exact hpair.forall hm hm' hne hd hd'

/-! ## The selection -/

instance : Std.Total matchLE where
  total a b := by
    unfold matchLE
    omega

instance : IsTrans RuleMatch matchLE where
  trans a b c := by
    unfold matchLE
    omega

/-- What `iter_matches` yields for a statement. -/
def matchesOf (statement : String) (language : Language) : List RuleMatch :=
  iterMatches (strip statement).toList language

/-- The matches that `decompose` selects. -/
def selectionOf (statement : String) (language : Language) : List RuleMatch :=
  selectMatches ((matchesOf statement language).insertionSort matchLE)

/-- The order in which `decompose` takes the matches. -/
def Before (m m' : RuleMatch) : Prop := matchLE m m' ∧ (matchLE m' m → Precedes m m')

variable {statement : String}

theorem selectMatches_eq (ms : List RuleMatch) : selectMatches ms = select overlaps ms := rfl

theorem decompose_selection (uuid4 : ℕ → String) (llm : Option LLMProvider) (statement : String)
    (language : Language) :
    (decompose uuid4 llm statement language).ruleMatches = (selectionOf statement language).length := by
  unfold decompose selectionOf matchesOf
  dsimp only
  split
  · rename_i hblank
    have hnone : (iterMatches [] language).isEmpty = true := by cases language <;> decide
    rw [hblank, List.isEmpty_iff.1 hnone]
    rfl
  · split <;> rfl

theorem mem_of_mem_selectionOf (h : m ∈ selectionOf statement language) :
    m ∈ matchesOf statement language :=
  (List.mem_insertionSort matchLE).1 (mem_of_mem_select h)

/-- **A match is selected**, or overlaps a selected one taken before it. -/
theorem selected_or_overlaps (hm : m ∈ matchesOf statement language) :
    m ∈ selectionOf statement language ∨
      ∃ s ∈ selectionOf statement language, overlaps m s = true ∧ Before s m :=
  select_or_clash (insertionSort_before (iterMatches_pairwise _ language))
    ((List.mem_insertionSort matchLE).2 hm)

/-- Selected matches that overlap are one. -/
theorem selected_eq (hm : m ∈ selectionOf statement language)
    (hm' : m' ∈ selectionOf statement language) (h : overlaps m m' = true) : m = m' :=
  eq_of_clash overlaps_comm hm hm' h

theorem Before.length_le (h : Before m m') : m'.length ≤ m.length := by
  have hle := h.1
  unfold matchLE at hle
  unfold RuleMatch.length
  omega

/-! ## Ties -/

/-- Of two matches of one length, the one that starts earlier, or has the earlier template. -/
def Earlier (x m : RuleMatch) : Prop :=
  x.start < m.start ∨ (x.start = m.start ∧ templateIndex x.template < templateIndex m.template)

theorem Before.earlier (h : Before m m') (hover : overlaps m' m = true)
    (hlen : m.length = m'.length) : Earlier m m' := by
  obtain ⟨hle, htie⟩ := h
  unfold matchLE at hle htie
  unfold RuleMatch.length at hlen
  rcases Nat.lt_or_ge m.start m'.start with hlt | hge
  · exact Or.inl hlt
  · rcases htie (by omega) with hidx | ⟨-, hstop⟩
    · exact Or.inr ⟨by omega, hidx⟩
    · rw [overlaps_iff] at hover
      omega

theorem Earlier.not_before (h : Earlier m m') (hlen : m.length = m'.length) : ¬Before m' m := by
  rintro ⟨hle, htie⟩
  unfold matchLE at hle htie
  unfold RuleMatch.length at hlen
  rcases h with hlt | ⟨hstart, hidx⟩
  · omega
  · rcases htie (by omega) with hlater | ⟨hsame, -⟩
    · omega
    · rw [hsame] at hidx
      omega

/-- Two overlapping matches of one length, neither of which overlaps a longer one. -/
structure Tied (ms : List RuleMatch) (m m' : RuleMatch) : Prop where
  overlap : overlaps m m' = true
  length : m.length = m'.length
  longest : ∀ x ∈ ms, overlaps x m = true ∨ overlaps x m' = true → x.length ≤ m.length

/-- What the documentation promises of the selection. -/
structure SelectionLaw (statement : String) (language : Language) : Prop where
  disjoint : (selectionOf statement language).Pairwise fun m m' => overlaps m m' = false
  covered : ∀ m ∈ matchesOf statement language, m ∉ selectionOf statement language →
    ∃ s ∈ selectionOf statement language, overlaps m s = true ∧ m.length ≤ s.length
  ties : ∀ m ∈ matchesOf statement language, ∀ m' ∈ matchesOf statement language,
    Tied (matchesOf statement language) m m' →
      templateIndex m.template < templateIndex m'.template → m ∈ selectionOf statement language

/-- No match that ties for its template overlaps an equally long one that starts earlier, or
that has the same span and an earlier template still. -/
def TiesInOrder (statement : String) (language : Language) : Prop :=
  ∀ m ∈ matchesOf statement language, ∀ m' ∈ matchesOf statement language,
    Tied (matchesOf statement language) m m' →
      templateIndex m.template < templateIndex m'.template →
      ∀ x ∈ matchesOf statement language, overlaps x m = true → x.length = m.length → ¬Earlier x m

theorem selection_disjoint (statement : String) (language : Language) :
    (selectionOf statement language).Pairwise fun m m' => overlaps m m' = false :=
  (select_pairwise _).imp fun h => (overlaps_comm _ _).trans h

theorem selection_covered (hm : m ∈ matchesOf statement language)
    (hnot : m ∉ selectionOf statement language) :
    ∃ s ∈ selectionOf statement language, overlaps m s = true ∧ m.length ≤ s.length := by
  obtain ⟨s, hs, hover, hbefore⟩ := (selected_or_overlaps hm).resolve_left hnot
  exact ⟨s, hs, hover, hbefore.length_le⟩

/-- Two anchored matches overlap. -/
theorem anchored_overlap (hm : m ∈ matchesOf statement language)
    (hm' : m' ∈ matchesOf statement language) (hd : ¬m.Decision) (hd' : ¬m'.Decision) :
    overlaps m m' = true := by
  have hstart := start_lt_stop hm
  have hstart' := start_lt_stop hm'
  rw [overlaps_iff]
  rw [stop_of_anchored hm hd] at hstart ⊢
  rw [stop_of_anchored hm' hd'] at hstart' ⊢
  exact ⟨hstart', hstart⟩

/-- Where ties go to the earlier template, they are in order. -/
theorem SelectionLaw.tiesInOrder (hlaw : SelectionLaw statement language) :
    TiesInOrder statement language := by
  intro m hm m' hm' htied hidx x hx hover hlen hearlier
  have hsel := hlaw.ties m hm m' hm' htied hidx
  -- an anchored match: a decision ties with no later template
  have hanchored : ¬m.Decision := by
    intro hd
    have hd' := decision_last (iterMatches_template hm).1 (iterMatches_template hm').1 hidx hd
    have hne : m ≠ m' := by
      rintro rfl
      exact Nat.lt_irrefl _ hidx
    have hdisjoint := decisions_disjoint hm hm' hd hd' hne
    rw [htied.overlap] at hdisjoint
    cases hdisjoint
  have hxsel : x ∉ selectionOf statement language := by
    intro hxsel
    obtain rfl := selected_eq hxsel hsel hover
    rcases hearlier with h | ⟨-, h⟩
    · exact Nat.lt_irrefl _ h
    · exact Nat.lt_irrefl _ h
  obtain ⟨s, hs, hxs, hbefore⟩ := (selected_or_overlaps hx).resolve_left hxsel
  have hsm : overlaps s m ≠ true := by
    intro hsm
    obtain rfl := selected_eq hs hsel hsm
    exact hearlier.not_before hlen hbefore
  have hsmem := mem_of_mem_selectionOf hs
  have hsd : s.Decision := by
    by_contra hsd
    exact hsm (anchored_overlap hsmem hm hsd hanchored)
  have hxd : x.Decision := by
    by_contra hxd
    -- an anchored `x` has the span of `m`
    have hspan := stop_of_anchored hx hxd
    have hmstop := stop_of_anchored hm hanchored
    have hxstart := start_lt_stop hx
    have hmstart := start_lt_stop hm
    rw [overlaps_iff] at hxs
    rw [ne_eq, overlaps_iff] at hsm
    unfold RuleMatch.length at hlen
    omega
  have hne : x ≠ s := by
    rintro rfl
    exact hxsel hs
  rw [decisions_disjoint hx hsmem hxd hsd hne] at hxs
  cases hxs

/-- Ties in order go to the earlier template. -/
theorem TiesInOrder.selectionLaw (hties : TiesInOrder statement language) :
    SelectionLaw statement language := by
  refine ⟨selection_disjoint statement language, fun m hm hnot => selection_covered hm hnot,
    fun m hm m' hm' htied hidx => ?_⟩
  rcases selected_or_overlaps hm with hsel | ⟨s, hs, hover, hbefore⟩
  · exact hsel
  · have hsmem := mem_of_mem_selectionOf hs
    have hover' := (overlaps_comm s m).trans hover
    have hlen : s.length = m.length :=
      Nat.le_antisymm (htied.longest s hsmem (Or.inl hover')) hbefore.length_le
    exact absurd (hbefore.earlier hover hlen) (hties m hm m' hm' htied hidx s hsmem hover' hlen)

/-- **The selection law** holds of a statement iff its ties are in order. -/
theorem selection_law_iff (statement : String) (language : Language) :
    SelectionLaw statement language ↔ TiesInOrder statement language :=
  ⟨SelectionLaw.tiesInOrder, TiesInOrder.selectionLaw⟩

/-! ## A tie out of order -/

/-- Where a match stands: the place of its template, its start and its end. -/
def RuleMatch.place (m : RuleMatch) : ℕ × ℕ × ℕ := (templateIndex m.template, m.start, m.stop)

/-- A reference to a decision, and a sponsorship that begins at the blank behind it. -/
def tiedStatement : String := "החלטה מספר 12 דן יזם חוק שר"

theorem tiedStatement_matches :
    (matchesOf tiedStatement .he).map RuleMatch.place = [(1, 13, 27), (15, 0, 14)] := by
  decide +kernel

/-- **The sponsorship ties with the decision**, has the earlier template, and is not selected. -/
theorem selection_law_tied : ¬SelectionLaw tiedStatement .he := by
  intro hlaw
  have hplaces := tiedStatement_matches
  obtain ⟨m, rest, hms, hm, hrest⟩ := List.map_eq_cons_iff.1 hplaces
  obtain ⟨m', rest', rfl, hm', hnil⟩ := List.map_eq_cons_iff.1 hrest
  obtain rfl := List.map_eq_nil_iff.1 hnil
  simp only [RuleMatch.place, Prod.mk.injEq] at hm hm'
  have htied : Tied (matchesOf tiedStatement .he) m m' := by
    refine ⟨overlaps_iff.2 (by omega), ?_, fun x hx _ => ?_⟩
    · unfold RuleMatch.length
      omega
    · rw [hms] at hx
      unfold RuleMatch.length
      rcases List.mem_cons.1 hx with rfl | hx
      · omega
      · rw [List.mem_singleton.1 hx]
        omega
  have hmem : m ∈ matchesOf tiedStatement .he := hms ▸ List.mem_cons_self
  have hmem' : m' ∈ matchesOf tiedStatement .he := hms ▸ List.mem_cons_of_mem _ List.mem_cons_self
  refine hlaw.tiesInOrder m hmem m' hmem' htied (by omega) m' hmem' ?_ htied.length.symm ?_
  · exact (overlaps_comm m' m).trans htied.overlap
  · exact Or.inl (by omega)

end CivicProof
