import CivicProof.Proof.Overlap

/-!
# Claims lost to invalid matches

`decompose` selects among overlapping matches before it validates their slots. Decisions are always
valid and never overlap each other, so the one match that may be rejected after it pushed others
aside is the selected anchored one (`Leading`).

* `claims_emitted`: the rule claims are those of the selected matches that are accepted.
* `leading_iff`: the anchored match that is selected, without the selection.
* `nothing_lost_iff`: when every accepted match is emitted or gives way to an emitted one.
-/

namespace CivicProof

open Regex Re

variable {statement : String} {language : Language} {m m' a : RuleMatch}

/-! ## Accepted matches -/

/-- The claim of a match passes `validate_slots`. -/
def Accepted (statement : String) (m : RuleMatch) : Prop :=
  validateSlots m.template.claimType (ruleMatchToClaim "" m (strip statement).toList).slots = []

instance (statement : String) (m : RuleMatch) : Decidable (Accepted statement m) :=
  inferInstanceAs (Decidable (_ = _))

/-- The matches whose claims `decompose` emits. -/
def emittedOf (statement : String) (language : Language) : List RuleMatch :=
  (selectionOf statement language).filter fun m => decide (Accepted statement m)

theorem mem_emittedOf : m ∈ emittedOf statement language ↔
    m ∈ selectionOf statement language ∧ Accepted statement m := by
  rw [emittedOf, List.mem_filter, decide_eq_true_iff]

/-- The claims of a decomposition that are made by rules, whether or not a provider was asked. -/
theorem decompose_rules_filter (uuid4 : ℕ → String) (llm : Option LLMProvider) (statement : String)
    (language : Language) :
    (decompose uuid4 llm statement language).claims.filter (·.method = .rules) =
      ruleClaims uuid4 (strip statement).toList language := by
  have hmethod : ∀ c ∈ (decompose uuid4 llm statement language).claims, c.method =
      if (decompose uuid4 llm statement language).llmInvoked then .llm else .rules :=
    fun c => decompose_method
  rcases decompose_cases uuid4 llm statement language with ⟨hi, hclaims, -⟩ | ⟨hi, -, hrules, -⟩
  · rw [hi] at hmethod
    rw [← hclaims, List.filter_eq_self]
    exact fun c hc => decide_eq_true (hmethod c hc)
  · rw [hi] at hmethod
    rw [hrules, List.filter_eq_nil_iff]
    intro c hc hrule
    have hllm := hmethod c hc
    rw [of_decide_eq_true hrule] at hllm
    cases hllm

/-- **The rule claims of a decomposition** are those of the emitted matches. -/
theorem claims_emitted (uuid4 : ℕ → String) (llm : Option LLMProvider) (statement : String)
    (language : Language) :
    List.Forall₂ (fun m c => ∃ id, c = ruleMatchToClaim id m (strip statement).toList)
      (emittedOf statement language)
      ((decompose uuid4 llm statement language).claims.filter (·.method = .rules)) := by
  rw [decompose_rules_filter]
  have hnumbered : ∀ (l : List RuleMatch) (n : ℕ),
      List.Forall₂ (fun m c => ∃ id, c = ruleMatchToClaim id m (strip statement).toList)
        (l.filter fun m => decide (Accepted statement m))
        (((l.zipIdx n).map fun x =>
          ruleMatchToClaim (uuid4 x.2) x.1 (strip statement).toList).filter
          fun c => validateSlots c.claimType c.slots = []) := by
    intro l
    induction l with
    | nil => exact fun n => List.Forall₂.nil
    | cons m l ih =>
      intro n
      rw [List.zipIdx_cons, List.map_cons, List.filter_cons, List.filter_cons]
      -- the slots of a claim do not depend on its id
      have hsame : decide (validateSlots (ruleMatchToClaim (uuid4 n) m (strip statement).toList).claimType
          (ruleMatchToClaim (uuid4 n) m (strip statement).toList).slots = []) =
          decide (Accepted statement m) := rfl
      rw [hsame]
      split
      · exact List.Forall₂.cons ⟨_, rfl⟩ (ih (n + 1))
      · exact ih (n + 1)
  exact hnumbered _ 0

/-! ## Decisions are accepted -/

theorem decisionNumber_captures :
    decisionNumber.Captures .decisionNumber fun v => ∃ c ∈ v, isDigit c = true := by
  refine ⟨rfl, fun g pre w post g' hw => ?_⟩
  have hneeds : (cat [.set isDigit, .rep (fun c => isDigit c || c == '/' || c == '-') 0 none true] :
      Pattern).Needs fun c => isDigit c = true := Or.inl fun c hc => hc
  exact hneeds.exists_mem hw

/-- A decision template has a number and no group of the slots that its claims forbid. -/
theorem decision_groups : ∀ t ∈ ruleTemplates, t.Decision →
    t.pattern.Captures .decisionNumber (fun v => ∃ c ∈ v, isDigit c = true) ∧
      (∀ n ∈ [GroupName.bill, .committee, .voteValue, .party, .seats], t.pattern.avoids n = true) ∧
      t.electionThresholdBelow = false := by
  have hcaptures : ∀ {r₁ r₂ r₃ r₄ r₅ : Pattern}, r₅.avoids .decisionNumber = true →
      (Re.seq r₁ (.seq r₂ (.seq r₃ (.seq r₄ (.seq decisionNumber r₅))))).Captures .decisionNumber
        fun v => ∃ c ∈ v, isDigit c = true :=
    fun h => Or.inr (Or.inr (Or.inr (Or.inr (Or.inl ⟨decisionNumber_captures, h⟩))))
  have hall : ∀ t ∈ ruleTemplates.drop 14,
      t.pattern.Captures .decisionNumber (fun v => ∃ c ∈ v, isDigit c = true) ∧
        (∀ n ∈ [GroupName.bill, .committee, .voteValue, .party, .seats],
          t.pattern.avoids n = true) ∧ t.electionThresholdBelow = false := by
    simp only [ruleTemplates, List.drop_succ_cons, List.drop_zero, List.forall_mem_cons]
    refine ⟨⟨hcaptures (by decide), by decide, trivial⟩, ⟨hcaptures (by decide), by decide, trivial⟩,
      ⟨hcaptures (by decide), by decide, trivial⟩, fun t ht => absurd ht List.not_mem_nil⟩
  intro t ht hd
  refine hall t ?_
  have hlist : ruleTemplates.drop 14 = ruleTemplates.filter (·.Decision) := rfl
  rw [hlist]
  exact List.mem_filter.2 ⟨ht, decide_eq_true hd⟩

/-- **A decision is accepted.** -/
theorem decision_accepted (hm : m ∈ matchesOf statement language) (hd : m.Decision) :
    Accepted statement m := by
  obtain ⟨u, w, v, g, -, hw, -, -, hgroups⟩ := iterMatches_span hm
  obtain ⟨hnumber, hfree, hbelow⟩ := decision_groups _ (iterMatches_template hm).1 hd
  have hnone : ∀ n ∈ [GroupName.bill, .committee, .voteValue, .party, .seats],
      m.groups n = none := by
    intro n hn
    rw [hgroups]
    dsimp only
    rw [groups_of_avoids (hfree n hn) hw]
    rfl
  have htype : m.template.claimType = .governmentDecision := hd
  unfold Accepted
  rw [htype, validateSlots_nil]
  constructor
  · intro r hr
    rw [List.mem_singleton.1 hr]
    obtain ⟨text, htext, c, hc, hdigit⟩ := hnumber.exists_group hw
    have hne : strip (String.ofList text) ≠ "" := by
      intro hempty
      have hin := mem_strip (s := String.ofList text) (by rwa [String.toList_ofList])
        (isDigit_plain hdigit).1
      rw [hempty] at hin
      cases hin
    refine ⟨strip (String.ofList text), ?_, hne⟩
    have hslot : m.groups .decisionNumber = some (String.ofList text) := by
      rw [hgroups]
      dsimp only
      rw [htext]
      rfl
    change orNone ((m.groups .decisionNumber).map strip) = _
    rw [hslot]
    exact orNone_isSome hne
  · have hforbidden : (slotTemplates .governmentDecision).forbidden =
        [.billId, .committeeId, .voteValue, .partyId, .expectedSeats, .expectPassedThreshold] := by
      decide
    have hbill := hnone .bill (by decide)
    have hcommittee := hnone .committee (by decide)
    have hvote := hnone .voteValue (by decide)
    have hparty := hnone .party (by decide)
    have hseats := hnone .seats (by decide)
    rw [hforbidden]
    simp [ruleMatchToClaim, hbelow, hbill, hcommittee, hvote, hparty, hseats, orNone,
      normalizeVoteValue]

/-! ## The order of the selection -/

theorem Before.total (hm : m ∈ matchesOf statement language) (hm' : m' ∈ matchesOf statement language)
    (hne : m ≠ m') : Before m m' ∨ Before m' m := by
  have hsorted := Greedy.insertionSort_before (r := matchLE)
    (iterMatches_pairwise (strip statement).toList language)
  have hsymm : Std.Symm fun m m' : RuleMatch => Before m m' ∨ Before m' m :=
    { symm := fun _ _ h => h.symm }
  have hpair := hsorted.imp (S := fun m m' => Before m m' ∨ Before m' m) fun h => Or.inl h
  exact hpair.forall ((List.mem_insertionSort matchLE).2 hm)
    ((List.mem_insertionSort matchLE).2 hm') hne

theorem Before.asymm (hm : m ∈ matchesOf statement language)
    (hm' : m' ∈ matchesOf statement language) (h : Before m m') : ¬Before m' m := by
  intro h'
  have hstart := start_lt_stop hm
  have hstart' := start_lt_stop hm'
  rcases h.2 h'.1 with hidx | ⟨hsame, hstop⟩
  · rcases h'.2 h.1 with hidx' | ⟨hsame, -⟩
    · omega
    · rw [hsame] at hidx
      exact Nat.lt_irrefl _ hidx
  · rcases h'.2 h.1 with hidx' | ⟨-, hstop'⟩
    · rw [hsame] at hidx'
      exact Nat.lt_irrefl _ hidx'
    · omega

/-! ## The leading anchored match -/

/-- The first anchored match, in the order of the selection, that no decision before it overlaps. -/
structure Leading (statement : String) (language : Language) (a : RuleMatch) : Prop where
  mem : a ∈ matchesOf statement language
  anchored : ¬a.Decision
  free : ∀ d ∈ matchesOf statement language, d.Decision → Before d a → overlaps d a = false
  first : ∀ m ∈ matchesOf statement language, ¬m.Decision → Before m a →
    ∃ d ∈ matchesOf statement language, d.Decision ∧ Before d m ∧ overlaps d m = true

/-- A decision is selected unless an anchored match before it is selected and overlaps it. -/
theorem decision_selected (hm : m ∈ matchesOf statement language) (hd : m.Decision)
    (hnot : m ∉ selectionOf statement language) :
    ∃ s ∈ selectionOf statement language, ¬s.Decision ∧ Before s m ∧ overlaps s m = true := by
  obtain ⟨s, hs, hover, hbefore⟩ := (selected_or_overlaps hm).resolve_left hnot
  have hsmem := mem_of_mem_selectionOf hs
  refine ⟨s, hs, fun hsd => ?_, hbefore, (overlaps_comm s m).trans hover⟩
  have hne : m ≠ s := by
    rintro rfl
    exact hnot hs
  rw [decisions_disjoint hm hsmem hd hsd hne] at hover
  cases hover

/-- **The leading match is the selected anchored one.** -/
theorem leading_iff :
    Leading statement language a ↔ a ∈ selectionOf statement language ∧ ¬a.Decision := by
  constructor
  · intro hlead
    refine ⟨?_, hlead.anchored⟩
    by_contra hnot
    obtain ⟨s, hs, hover, hbefore⟩ := (selected_or_overlaps hlead.mem).resolve_left hnot
    have hsmem := mem_of_mem_selectionOf hs
    have hover' := (overlaps_comm s a).trans hover
    by_cases hsd : s.Decision
    · rw [hlead.free s hsmem hsd hbefore] at hover'
      cases hover'
    -- an anchored match is in front, and a decision before it took its place
    obtain ⟨d, hd, hdd, hds, hdover⟩ := hlead.first s hsmem hsd hbefore
    have hdsel : d ∉ selectionOf statement language := by
      intro hdsel
      obtain rfl := selected_eq hdsel hs hdover
      exact hsd hdd
    obtain ⟨x, hx, hxd, hxbefore, hxover⟩ := decision_selected hd hdd hdsel
    have hxmem := mem_of_mem_selectionOf hx
    obtain rfl := selected_eq hx hs (anchored_overlap hxmem hsmem hxd hsd)
    exact hds.asymm hd hsmem hxbefore
  · rintro ⟨ha, hanchored⟩
    have hmem := mem_of_mem_selectionOf ha
    refine ⟨hmem, hanchored, fun d hd hdd hbefore => ?_, fun m hm hmd hbefore => ?_⟩
    · by_contra hover
      rw [Bool.not_eq_false] at hover
      have hdsel : d ∉ selectionOf statement language := by
        intro hdsel
        obtain rfl := selected_eq hdsel ha hover
        exact hanchored hdd
      obtain ⟨x, hx, hxd, hxbefore, -⟩ := decision_selected hd hdd hdsel
      have hxmem := mem_of_mem_selectionOf hx
      obtain rfl := selected_eq hx ha (anchored_overlap hxmem hmem hxd hanchored)
      exact hbefore.asymm hd hmem hxbefore
    · have hmsel : m ∉ selectionOf statement language := by
        intro hmsel
        obtain rfl := selected_eq hmsel ha (anchored_overlap hm hmem hmd hanchored)
        exact hbefore.asymm hm hm hbefore
      obtain ⟨s, hs, hover, hsbefore⟩ := (selected_or_overlaps hm).resolve_left hmsel
      have hsmem := mem_of_mem_selectionOf hs
      refine ⟨s, hsmem, ?_, hsbefore, (overlaps_comm s m).trans hover⟩
      by_contra hsd
      obtain rfl := selected_eq hs ha (anchored_overlap hsmem hmem hsd hanchored)
      exact hbefore.asymm hm hmem hsbefore

/-! ## Nothing lost -/

/-- Every accepted match is emitted, or overlaps an emitted one that is as long. -/
def NothingLost (statement : String) (language : Language) : Prop :=
  ∀ m ∈ matchesOf statement language, Accepted statement m →
    m ∈ emittedOf statement language ∨
      ∃ e ∈ emittedOf statement language, overlaps m e = true ∧ m.length ≤ e.length

/-- The leading match is accepted, or stands behind every accepted match that overlaps it. -/
def LeadingYields (statement : String) (language : Language) : Prop :=
  ∀ a, Leading statement language a → Accepted statement a ∨
    ∀ m ∈ matchesOf statement language, Accepted statement m → overlaps m a = true → Before m a

theorem NothingLost.leadingYields (hkept : NothingLost statement language) :
    LeadingYields statement language := by
  intro a hlead
  by_contra hnot
  rw [not_or] at hnot
  obtain ⟨hrejected, hlost⟩ := hnot
  simp only [not_forall] at hlost
  obtain ⟨m, hm, hacc, hover, hlater⟩ := hlost
  obtain ⟨ha, hanchored⟩ := leading_iff.1 hlead
  have hne : m ≠ a := by
    rintro rfl
    exact hrejected hacc
  have hbefore := (Before.total hm hlead.mem hne).resolve_left hlater
  have hemitted : ∀ e ∈ emittedOf statement language, overlaps e a = false := by
    intro e he
    by_contra heover
    rw [Bool.not_eq_false] at heover
    obtain ⟨hesel, heacc⟩ := mem_emittedOf.1 he
    obtain rfl := selected_eq hesel ha heover
    exact hrejected heacc
  rcases hkept m hm hacc with hme | ⟨e, he, heover, -⟩
  · rw [hemitted m hme] at hover
    cases hover
  have hea := hemitted e he
  have hemem := mem_of_mem_selectionOf (mem_emittedOf.1 he).1
  have hed : e.Decision := by
    by_contra hed
    rw [anchored_overlap hemem hlead.mem hed hanchored] at hea
    cases hea
  have hmd : ¬m.Decision := by
    intro hmd
    have hmne : m ≠ e := by
      rintro rfl
      rw [hea] at hover
      cases hover
    rw [decisions_disjoint hm hemem hmd hed hmne] at heover
    cases heover
  -- the span of `m` is in that of `a`
  have hmstop := stop_of_anchored hm hmd
  have hastop := stop_of_anchored hlead.mem hanchored
  have hlen := hbefore.length_le
  have hmstart := start_lt_stop hm
  have hastart := start_lt_stop hlead.mem
  unfold RuleMatch.length at hlen
  rw [overlaps_iff] at heover
  rw [overlaps_eq_false_iff] at hea
  omega

theorem LeadingYields.nothingLost (hlead : LeadingYields statement language) :
    NothingLost statement language := by
  intro m hm hacc
  by_cases hsel : m ∈ selectionOf statement language
  · exact Or.inl (mem_emittedOf.2 ⟨hsel, hacc⟩)
  obtain ⟨s, hs, hover, hbefore⟩ := (selected_or_overlaps hm).resolve_left hsel
  have hsmem := mem_of_mem_selectionOf hs
  have hsacc : Accepted statement s := by
    by_contra hrejected
    have hsd : ¬s.Decision := fun hsd => hrejected (decision_accepted hsmem hsd)
    have hlater := (hlead s (leading_iff.2 ⟨hs, hsd⟩)).resolve_left hrejected m hm hacc hover
    exact hbefore.asymm hsmem hm hlater
  exact Or.inr ⟨s, mem_emittedOf.2 ⟨hs, hsacc⟩, hover, hbefore.length_le⟩

/-- **When nothing is lost to an invalid match.** -/
theorem nothing_lost_iff (statement : String) (language : Language) :
    NothingLost statement language ↔ LeadingYields statement language :=
  ⟨NothingLost.leadingYields, LeadingYields.nothingLost⟩

/-! ## A decision lost -/

/-- A vote without its value, on a bill whose title refers to a decision. -/
def undecidedVote : String := "דן הצביע על הצעת חוק יישום החלטה מספר 12"

theorem undecidedVote_matches : (matchesOf undecidedVote .he).map
    (fun m => (m.place, decide (Accepted undecidedVote m))) =
      [((0, 0, 40), false), ((15, 27, 40), true)] := by
  decide +kernel

/-- **The decision is valid**, and gives way to the vote that is rejected. -/
theorem nothing_lost_undecided : ¬NothingLost undecidedVote .he := by
  intro hkept
  obtain ⟨a, rest, hms, ha, hrest⟩ := List.map_eq_cons_iff.1 undecidedVote_matches
  obtain ⟨m, rest', rfl, hm, hnil⟩ := List.map_eq_cons_iff.1 hrest
  obtain rfl := List.map_eq_nil_iff.1 hnil
  simp only [RuleMatch.place, Prod.mk.injEq, decide_eq_false_iff_not, decide_eq_true_iff] at ha hm
  have ham : a ∈ matchesOf undecidedVote .he := hms ▸ List.mem_cons_self
  have hmm : m ∈ matchesOf undecidedVote .he := hms ▸ List.mem_cons_of_mem _ List.mem_cons_self
  have hlater : ¬Before m a := by
    intro h
    have hle := h.length_le
    unfold RuleMatch.length at hle
    omega
  have hlead : Leading undecidedVote .he a := by
    refine ⟨ham, fun had => ha.2 (decision_accepted ham had), ?_, ?_⟩
    · intro d hd hdd hbefore
      rw [hms] at hd
      rcases List.mem_cons.1 hd with rfl | hd
      · exact absurd (decision_accepted ham hdd) ha.2
      · rw [List.mem_singleton.1 hd] at hbefore
        exact absurd hbefore hlater
    · intro x hx _ hbefore
      rw [hms] at hx
      rcases List.mem_cons.1 hx with rfl | hx
      · exact absurd hbefore (hbefore.asymm ham ham)
      · rw [List.mem_singleton.1 hx] at hbefore
        exact absurd hbefore hlater
  have hover : overlaps m a = true := overlaps_iff.2 (by omega)
  exact hlater ((hkept.leadingYields a hlead).resolve_left ha.2 m hmm hm.2 hover)

end CivicProof
