import CivicProof.Proof.LostClaims
import CivicProof.Proof.TimePhrases
import CivicProof.Regex.Places

/-!
# Numbers cut out of longer ones

What a template captures as a number should be a whole number of the statement. The groups of years,
seats and decisions never have a digit around them; the government of a Hebrew decision is cut after two
digits, as nothing has to follow it.

* `time_whole`, `seats_whole`, `decision_whole`: the groups that are whole.
* `RuleMatch.numbersWhole_iff`: a match with a cut number is a decision of a government with three
  digits or more.
* `numbers_whole_iff`: when the numbers of all claims of a decomposition are whole.
-/

namespace CivicProof

open Regex Re

variable {statement : String} {language : Language} {m : RuleMatch} {s : List Char}

/-! ## Numbers and their places -/

/-- Not a digit. -/
def NonDigit (c : Char) : Prop := isDigit c = false

instance (c : Char) : Decidable (NonDigit c) := inferInstanceAs (Decidable (_ = _))

/-- The place of a group of a match in the statement. -/
def RuleMatch.placeOf (m : RuleMatch) (s : List Char) (n : GroupName) : Option Place :=
  m.template.pattern.placesAt s m.start n

/-- A place with no digit right before it and none right after it. -/
def Whole (pl : Place) : Prop := Fenced isDigit pl.before ∧ Fenced isDigit pl.after

instance {p : Char → Bool} {l : List Char} : Decidable (Fenced p l) :=
  decidable_of_iff (l.head?.all (p · = false) = true) (by cases l <;> simp [Fenced])

instance (pl : Place) : Decidable (Whole pl) := inferInstanceAs (Decidable (_ ∧ _))

/-- A group that holds a number: seats, a decision, a government, or a year as the time phrase. -/
def Numeric (n : GroupName) (pl : Place) : Prop :=
  n = .seats ∨ n = .decisionNumber ∨ n = .governmentNumber ∨
    (n = .time ∧ Run isDigit 4 (some 4) pl.part)

/-- The numbers of a match are whole numbers of the statement. -/
def RuleMatch.NumbersWhole (m : RuleMatch) (s : List Char) : Prop :=
  ∀ n pl, m.placeOf s n = some pl → Numeric n pl → Whole pl

/-- **What a match captured** is what stands at the places of its groups. -/
theorem iterMatches_places (hm : m ∈ iterMatches s language) (n : GroupName) :
    m.groups n = (m.placeOf s n).map fun pl => String.ofList pl.part := by
  unfold iterMatches at hm
  obtain ⟨t, -, hm⟩ := List.mem_flatMap.1 hm
  obtain ⟨mt, hmt, rfl⟩ := List.mem_map.1 hm
  have hplace := finditer_places hmt n
  dsimp only [RuleMatch.placeOf]
  rw [hplace, Option.map_map]
  rfl

/-! ## Expressions without digits -/

theorem en_nonDigit {ci : Bool} {s : String}
    (h : s.toList.all (fun a => !isDigit a && !isDigit (foldCase a)) = true) :
    (en ci s).Within NonDigit := by
  refine Within_lit.2 fun a ha c hc => ?_
  have hplain := List.all_eq_true.1 h a ha
  rw [Bool.and_eq_true, Bool.not_eq_true', Bool.not_eq_true'] at hplain
  by_contra hd
  rw [NonDigit, Bool.not_eq_false] at hd
  unfold charEq at hc
  split at hc
  · rw [foldCase_digit hd, beq_iff_eq] at hc
    rw [← hc, hd] at hplain
    cases hplain.2
  · rw [← beq_iff_eq.1 hc, hd] at hplain
    cases hplain.1

theorem he_nonDigit {s : String}
    (h : s.toList.all (fun a => !isDigit a && !isDigit (foldCase a)) = true) :
    (he s).Within NonDigit := en_nonDigit h

theorem sp_nonDigit : sp.Within NonDigit := fun _ => isSpace_not_digit

theorem sp0_nonDigit : sp0.Within NonDigit := fun _ => isSpace_not_digit

theorem sentenceEnd_nonDigit : sentenceEnd.Within NonDigit := by
  have hmark : (Re.set fun c => c == '.' || c == '?' || c == '!' : Pattern).Within NonDigit := by
    intro c hc
    simp only [Bool.or_eq_true, beq_iff_eq] at hc
    rcases hc with (rfl | rfl) | rfl <;> decide
  simp [sentenceEnd, hmark, sp0_nonDigit]

theorem sp_needs : sp.Needs fun _ => True := ⟨Nat.one_pos, fun _ _ => trivial⟩

/-- Some characters, none of them a digit. -/
structure Spacer (r : Pattern) : Prop where
  nonDigit : r.Within NonDigit
  needs : r.Needs fun _ => True

/-! ## The groups of the templates -/

/-- The templates with a number of seats. -/
def seatsPatterns : List Pattern := [heElectionSeats, enElectionSeats]

/-- The templates with the number of a decision. -/
def decisionPatterns : List Pattern := [heGovDecisionNumber, heGovDecisionRef, enGovDecisionNumber]

/-- Which templates have which numbers. -/
theorem template_numbers : ∀ t ∈ ruleTemplates,
    (t.pattern.avoids .seats = true ∨ t.pattern ∈ seatsPatterns) ∧
      (t.pattern.avoids .decisionNumber = true ∨ t.Decision ∧ t.pattern ∈ decisionPatterns) ∧
        (t.pattern.avoids .governmentNumber = true ∨ t.pattern = heGovDecisionNumber) := by
  have hhe : heElectionSeats ∈ seatsPatterns := List.mem_cons_self
  have hen : enElectionSeats ∈ seatsPatterns := List.mem_cons_of_mem _ List.mem_cons_self
  have hnum : heGovDecisionNumber ∈ decisionPatterns := List.mem_cons_self
  have href : heGovDecisionRef ∈ decisionPatterns := List.mem_cons_of_mem _ List.mem_cons_self
  have hennum : enGovDecisionNumber ∈ decisionPatterns :=
    List.mem_cons_of_mem _ (List.mem_cons_of_mem _ List.mem_cons_self)
  unfold ruleTemplates
  simp only [List.forall_mem_cons]
  refine ⟨⟨Or.inl ?_, Or.inl ?_, Or.inl ?_⟩, ⟨Or.inl ?_, Or.inl ?_, Or.inl ?_⟩,
    ⟨Or.inl ?_, Or.inl ?_, Or.inl ?_⟩, ⟨Or.inl ?_, Or.inl ?_, Or.inl ?_⟩,
    ⟨Or.inl ?_, Or.inl ?_, Or.inl ?_⟩, ⟨Or.inl ?_, Or.inl ?_, Or.inl ?_⟩,
    ⟨Or.inl ?_, Or.inl ?_, Or.inl ?_⟩, ⟨Or.inl ?_, Or.inl ?_, Or.inl ?_⟩,
    ⟨Or.inl ?_, Or.inl ?_, Or.inl ?_⟩, ⟨Or.inl ?_, Or.inl ?_, Or.inl ?_⟩,
    ⟨Or.inr hhe, Or.inl ?_, Or.inl ?_⟩, ⟨Or.inl ?_, Or.inl ?_, Or.inl ?_⟩,
    ⟨Or.inr hen, Or.inl ?_, Or.inl ?_⟩, ⟨Or.inl ?_, Or.inl ?_, Or.inl ?_⟩,
    ⟨Or.inl ?_, Or.inr ⟨rfl, hnum⟩, Or.inr trivial⟩, ⟨Or.inl ?_, Or.inr ⟨rfl, href⟩, Or.inl ?_⟩,
    ⟨Or.inl ?_, Or.inr ⟨rfl, hennum⟩, Or.inl ?_⟩, fun t ht => absurd ht List.not_mem_nil⟩
  all_goals
    simp [avoids, he, en, sp, sp0, heVerb, heSubject, heBill, heCommittee, heOfficeTail, enSubject,
      enProper, enBill, enWords, enCommittee, enCommitteeWord, seats, heNumberWord, decisionNumber,
      decisionEnd, heKnesset, heTime, heTimeSuffix, enTimeSuffix, fourDigits, sentenceEnd, eos, heVote,
      heSponsor, heOffice, heCommitteeMem, heCommitteeAtt, enVote, enSponsor, enOffice, enCommitteeMem,
      enCommitteeAtt, heElectionSeats, heElectionThresholdBelow, enElectionSeats,
      enElectionThresholdBelow, heGovDecisionNumber, heGovDecisionRef, enGovDecisionNumber]

/-! ## Years and seats -/

/-- The time suffixes of the templates. -/
def timeSuffixes : List Pattern :=
  [heTimeSuffix, heTime [fourDigits, heKnesset], enTimeSuffix true, enTimeSuffix false]

/-- A time suffix has no digit right before the time phrase. -/
theorem timeSuffix_eq : ∀ r ∈ timeSuffixes, ∃ l a, Spacer (cat l) ∧
    r = opt (cat (l ++ [.group .time a])) := by
  have hhe : ∀ alts : List Pattern, ∃ l a, Spacer (cat l) ∧
      heTime alts = opt (cat (l ++ [.group .time a])) := by
    intro alts
    refine ⟨[sp, he "ב", opt (he "-")], any alts, ⟨?_, ?_⟩, rfl⟩
    · simp (disch := decide) [sp_nonDigit, he_nonDigit]
    · simp [sp_needs]
  have hen : ∀ ci : Bool, ∃ l a, Spacer (cat l) ∧
      enTimeSuffix ci = opt (cat (l ++ [.group .time a])) := by
    intro ci
    refine ⟨[sp, en ci "in", sp], _, ⟨?_, ?_⟩, rfl⟩
    · simp (disch := decide) [sp_nonDigit, en_nonDigit]
    · simp [sp_needs]
  simp only [timeSuffixes, List.forall_mem_cons]
  exact ⟨hhe _, hhe _, hen true, hen false, fun r hr => absurd hr List.not_mem_nil⟩

/-- A template's time phrase is its last part but for the end of the sentence. -/
theorem time_tail : ∀ t ∈ ruleTemplates, t.pattern.avoids .time = true ∨
    ∃ r ∈ timeSuffixes, Re.Tail .time (cat [r, sentenceEnd]) t.pattern := by
  have hhe : heTimeSuffix ∈ timeSuffixes := by simp [timeSuffixes]
  have hshort : heTime [fourDigits, heKnesset] ∈ timeSuffixes := by simp [timeSuffixes]
  have hen : ∀ ci, enTimeSuffix ci ∈ timeSuffixes := by simp [timeSuffixes]
  unfold ruleTemplates
  simp only [List.forall_mem_cons]
  refine ⟨Or.inr ⟨_, hhe, .of_append (l := [_, _, _, _, _, _, _, _, _, _]) ?_⟩,
    Or.inr ⟨_, hhe, .of_append (l := [_, _, _, _, _, _, _, _]) ?_⟩,
    Or.inr ⟨_, hhe, .of_append (l := [_, _, _, _, _, _]) ?_⟩,
    Or.inr ⟨_, hhe, .of_append (l := [_, _, _, _, _, _, _, _, _, _]) ?_⟩,
    Or.inr ⟨_, hhe, .of_append (l := [_, _, _, _, _, _, _, _]) ?_⟩,
    Or.inr ⟨_, hen true, .of_append (l := [_, _, _, _, _, _, _, _, _, _, _]) ?_⟩,
    Or.inr ⟨_, hen true, .of_append (l := [_, _, _, _, _, _, _, _]) ?_⟩,
    Or.inr ⟨_, hen true, .of_append (l := [_, _, _, _, _, _]) ?_⟩,
    Or.inr ⟨_, hen false, .of_append (l := [_, _, _, _, _, _, _, _]) ?_⟩,
    Or.inr ⟨_, hen false, .of_append (l := [_, _, _, _, _, _, _, _, _, _]) ?_⟩,
    Or.inr ⟨_, hhe, .of_append (l := [_, _, _, _, _, _, _, _]) ?_⟩,
    Or.inr ⟨_, hshort, .of_append (l := [_, _, _, _, _, _, _, _, _, _]) ?_⟩,
    Or.inr ⟨_, hen true, .of_append (l := [_, _, _, _, _, _, _]) ?_⟩,
    Or.inr ⟨_, hen true, .of_append (l := [_, _, _, _, _, _, _, _, _, _, _, _]) ?_⟩,
    Or.inl ?_, Or.inl ?_, Or.inl ?_, fun t ht => absurd ht List.not_mem_nil⟩
  all_goals
    simp [avoids, he, en, sp, sp0, heVerb, heSubject, heBill, heCommittee, heOfficeTail, enSubject,
      enProper, enBill, enWords, enCommittee, enCommitteeWord, seats, heGovDecisionNumber,
      heGovDecisionRef, enGovDecisionNumber, heNumberWord, decisionNumber, decisionEnd]

/-- The time phrase of a match has no digit around it. -/
theorem time_whole {t : RuleTemplate} (ht : t ∈ ruleTemplates) {pre post : List Char}
    {x : Way GroupName Place} {pl : Place} (hx : x ∈ t.pattern.ways id (fun _ => none) pre post)
    (hpl : x.groups .time = some pl) : Whole pl := by
  rcases time_tail t ht with hfree | ⟨r, hr, htail⟩
  · rw [ways_groups_of_avoids hfree hx] at hpl
    cases hpl
  obtain ⟨l, a, hspace, rfl⟩ := timeSuffix_eq r hr
  obtain ⟨y, hnone, hx⟩ := htail.ways hx
  obtain ⟨z, hz, hx⟩ := List.mem_flatMap.1 hx
  have hend : x.groups .time = z.groups .time := ways_groups_of_avoids rfl hx
  rw [hend] at hpl
  rcases List.mem_append.1 hz with hz | hz
  · obtain ⟨q, hq, hz⟩ := mem_ways_append hz
    obtain ⟨w, -, -, hplace⟩ := mem_ways_group hz
    rw [hplace] at hpl
    obtain rfl := Option.some.inj hpl
    exact ⟨fenced_way_of_needs hspace.nonDigit hspace.needs hq,
      fenced_ahead_of_ends sentenceEnd_nonDigit sentenceEnd_ends hx⟩
  · rw [List.mem_singleton.1 hz] at hpl
    rw [hnone] at hpl
    cases hpl

/-- A number of seats stands between words. -/
theorem seats_tail : ∀ r ∈ seatsPatterns, ∃ l l', Spacer (cat l) ∧
    (cat (sp :: l')).avoids .seats = true ∧ Re.Tail .seats (cat (l ++ (seats :: sp :: l'))) r := by
  have hhe : Spacer (cat [sp, opt (cat [he "ב", opt (he "-")])]) := by
    refine ⟨?_, ?_⟩
    · simp (disch := decide) [sp_nonDigit, he_nonDigit]
    · simp [sp_needs]
  have hen : Spacer (cat [sp]) := ⟨sp_nonDigit, sp_needs⟩
  simp only [seatsPatterns, List.forall_mem_cons]
  refine ⟨⟨_, [any [he "מנדטים", he "מושבים"], heTimeSuffix, sentenceEnd], hhe, ?_,
      .of_append (l := [_, _, _]) ?_⟩,
    ⟨_, [en true "seats", enTimeSuffix true, sentenceEnd], hen, ?_, .of_append (l := [_, _, _]) ?_⟩,
    fun r hr => absurd hr List.not_mem_nil⟩
  all_goals
    simp [avoids, he, en, sp, sp0, heVerb, heKnesset, heTime, heTimeSuffix, enTimeSuffix, fourDigits,
      sentenceEnd, eos, enProper]

theorem seats_whole {t : RuleTemplate} (ht : t ∈ ruleTemplates) {pre post : List Char}
    {x : Way GroupName Place} {pl : Place} (hx : x ∈ t.pattern.ways id (fun _ => none) pre post)
    (hpl : x.groups .seats = some pl) : Whole pl := by
  rcases (template_numbers t ht).1 with hfree | hpat
  · rw [ways_groups_of_avoids hfree hx] at hpl
    cases hpl
  obtain ⟨l, l', hspace, hfree, htail⟩ := seats_tail _ hpat
  obtain ⟨y, -, hx⟩ := htail.ways hx
  obtain ⟨q, hq, hx⟩ := mem_ways_append hx
  obtain ⟨z, hz, hx⟩ := List.mem_flatMap.1 hx
  obtain ⟨w, -, -, hplace⟩ := mem_ways_group hz
  rw [ways_groups_of_avoids hfree hx, hplace] at hpl
  obtain rfl := Option.some.inj hpl
  rw [ways_cat_cons] at hx
  obtain ⟨z', hz', -⟩ := List.mem_flatMap.1 hx
  exact ⟨fenced_way_of_needs hspace.nonDigit hspace.needs hq,
    fenced_ahead_of_needs sp_nonDigit sp_needs hz'⟩

/-! ## Decisions -/

/-- The characters of a decision number. -/
def isNumberChar (c : Char) : Bool := isDigit c || c == '/' || c == '-'

theorem sp_not_number : sp.Within fun c => isNumberChar c = false := by
  intro c hc
  have hslash : c ≠ '/' := by
    rintro rfl
    revert hc
    decide
  have hhyphen : c ≠ '-' := by
    rintro rfl
    revert hc
    decide
  simp [isNumberChar, isSpace_not_digit hc, hslash, hhyphen]

/-- What a Hebrew decision by its number has before the number. -/
def decisionLead : List Pattern :=
  [any [cat [he "הממשלה", sp, he "החליטה"], cat [he "בהחלט", opt (he "ת"), sp, he "ממשלה"],
      cat [he "החלט", opt (he "ת"), sp, he "ממשלה"]],
    sp0, opt heNumberWord, sp0]

theorem decisionLead_spacer : Spacer (cat decisionLead) := by
  refine ⟨?_, ?_⟩
  · simp (disch := decide) [decisionLead, heNumberWord, sp_nonDigit, sp0_nonDigit, he_nonDigit]
  · simp [decisionLead, sp_needs]

theorem decisionEnd_nil (g : Caps GroupName) (pre post : List Char) :
    decisionEnd.Matches g pre [] post g := ⟨[], [], g, rfl, Or.inr ⟨rfl, rfl⟩, Run.nil, rfl⟩

/-- A decision number begins behind the words of its template, and what follows can be left out. -/
theorem decision_parts : ∀ r ∈ decisionPatterns, ∃ l b l', r = cat (l ++ (decisionNumber :: b :: l')) ∧
    Spacer (cat l) ∧ (cat (b :: l')).avoids .decisionNumber = true ∧
      ∀ g pre post, (cat (b :: l')).Matches g pre [] post g := by
  simp only [decisionPatterns, List.forall_mem_cons]
  refine ⟨⟨decisionLead, _, [decisionEnd], rfl, decisionLead_spacer, ?_, ?_⟩,
    ⟨[_, _, _, _], decisionEnd, [], rfl, ⟨?_, ?_⟩, ?_, decisionEnd_nil⟩,
    ⟨[_, _, _, _], decisionEnd, [], rfl, ⟨?_, ?_⟩, ?_, decisionEnd_nil⟩,
    fun r hr => absurd hr List.not_mem_nil⟩
  · simp [avoids, he, sp, sp0, decisionEnd]
  · exact fun g pre post => ⟨[], [], g, rfl, Or.inr ⟨rfl, rfl⟩, decisionEnd_nil _ _ _⟩
  · simp (disch := decide) [heNumberWord, sp_nonDigit, sp0_nonDigit, he_nonDigit]
  · simp [sp_needs]
  · simp [avoids, sp0, decisionEnd]
  · simp (disch := decide) [sp_nonDigit, sp0_nonDigit, en_nonDigit]
  · simp [sp_needs]
  · simp [avoids, sp0, decisionEnd]

/-- The first way through a decision number takes all of its characters. -/
theorem first_decisionNumber {g : GroupName → Option Place} {pre post : List Char}
    {x : Way GroupName Place} (h : decisionNumber.first id g pre post = some x) :
    ∃ c w, post = c :: (w ++ x.post) ∧ isDigit c = true ∧ (∀ d ∈ w, isNumberChar d = true) ∧
      Fenced isNumberChar x.post ∧ x.pre = w.reverse ++ (c :: pre) ∧
      x.groups = Function.update g .decisionNumber (some ⟨pre, c :: w, x.post⟩) := by
  obtain ⟨z, u, hz, hu, hupre, rfl⟩ := first_group_place h
  obtain ⟨y, hy, hz⟩ := first_cat_cons hz
  obtain ⟨w, hpost, hpre, hgroups, hrun, hend⟩ := first_greedy hz
  cases post with
  | nil => cases hy
  | cons c cs =>
    rw [Re.ways] at hy
    split at hy
    · rename_i hc
      obtain rfl := List.mem_singleton.1 hy
      have hend' : Fenced isNumberChar z.post := hend.resolve_left (Option.some_ne_none _).symm
      have hcut : c :: cs = (c :: w) ++ z.post := congrArg (List.cons c) hpost
      have hword : u = c :: w := List.append_cancel_right (hu.symm.trans hcut)
      subst hword
      exact ⟨c, w, hcut, hc, hrun.1, hend', hpre, by rw [hgroups, id]⟩
    · cases hy

theorem decision_whole {t : RuleTemplate} (ht : t ∈ ruleTemplates) {pre post : List Char}
    {x : Way GroupName Place} {pl : Place} (hx : t.pattern.first id (fun _ => none) pre post = some x)
    (hpl : x.groups .decisionNumber = some pl) : Whole pl := by
  rcases (template_numbers t ht).2.1 with hfree | ⟨-, hpat⟩
  · rw [ways_groups_of_avoids hfree (first_mem hx)] at hpl
    cases hpl
  obtain ⟨l, b, l', hparts, hspace, hfree, hnil⟩ := decision_parts _ hpat
  rw [hparts] at hx
  obtain ⟨q, hq, hx⟩ := first_append hx
  obtain ⟨z, hz, hx⟩ := first_seq_total (ways_ne_nil hnil) hx
  obtain ⟨c, w, -, -, -, hfence, -, hgroups⟩ := first_decisionNumber hz
  rw [ways_groups_of_avoids hfree (first_mem hx), hgroups, Function.update_self] at hpl
  obtain rfl := Option.some.inj hpl
  refine ⟨fenced_way_of_needs hspace.nonDigit hspace.needs hq, fun d hd => ?_⟩
  have hno := hfence d hd
  unfold isNumberChar at hno
  simp only [Bool.or_eq_false_iff] at hno
  exact hno.1.1

/-! ## Governments -/

/-- What stands between the number of a decision and that of its government. -/
def governmentLead : List Pattern :=
  [sp, opt (cat [he "של", sp]), opt (cat [he "הממשלה", sp]), opt (cat [he "ה", opt (he "-"), sp0])]

/-- The number of a government: two digits at most. -/
def governmentNumber : Pattern := .group .governmentNumber (.rep isDigit 1 (some 2) true)

/-- A decision by its number, of a government with three digits or more. -/
def longGovernment : Pattern :=
  cat (decisionLead ++ (decisionNumber :: (governmentLead ++ [.rep isDigit 3 (some 3) true])))

theorem heGovDecisionNumber_eq : heGovDecisionNumber = cat (decisionLead ++
    [decisionNumber, opt (cat (governmentLead ++ [governmentNumber])), decisionEnd]) := rfl

theorem governmentLead_spacer : Spacer (cat governmentLead) := by
  refine ⟨?_, ?_⟩
  · simp (disch := decide) [governmentLead, sp_nonDigit, sp0_nonDigit, he_nonDigit]
  · simp [governmentLead, sp_needs]

variable {pre post : List Char} {g : GroupName → Option Place} {x z : Way GroupName Place}

/-- Where the first number ahead begins, behind characters that are no digits. -/
theorem numeral_ahead {u v u' v' : List Char} {c c' : Char} (hu : ∀ d ∈ u, NonDigit d)
    (hc : isDigit c = true) (hu' : ∀ d ∈ u', NonDigit d) (hc' : isDigit c' = true)
    (heq : u ++ (c :: v) = u' ++ (c' :: v')) : u = u' ∧ c :: v = c' :: v' := by
  have hplain : ∀ {l : List Char}, (∀ d ∈ l, NonDigit d) → ∀ d ∈ l, (!isDigit d) = true :=
    fun h d hd => by rw [h d hd]; rfl
  have hfence : ∀ {d : Char} {l : List Char}, isDigit d = true → Fenced (fun d => !isDigit d) (d :: l) := by
    intro d l hd e he
    obtain rfl := Option.some.inj he
    dsimp only
    rw [hd]
    rfl
  exact span_of_fenced (hplain hu) (hfence hc) (hplain hu') (hfence hc') heq

/-- The first way through the number of a government. -/
theorem first_government
    (h : (cat (governmentLead ++ [governmentNumber])).first id g pre post = some z) :
    ∃ q ∈ (cat governmentLead).ways id g pre post, ∃ ds, q.post = ds ++ z.post ∧
      Run isDigit 1 (some 2) ds ∧ (ds.length = 2 ∨ Fenced isDigit z.post) ∧
        z.groups .governmentNumber = some ⟨q.pre, ds, z.post⟩ := by
  obtain ⟨q, hq, hz⟩ := first_append h
  obtain ⟨y, ds, hy, hpost, -, rfl⟩ := first_group_place hz
  obtain ⟨w, hw, -, -, hrun, hend⟩ := first_greedy hy
  have hword : ds = w := List.append_cancel_right (hpost.symm.trans hw)
  subst hword
  refine ⟨q, hq, ds, hpost, hrun, hend.imp_left fun hlen => ?_, ?_⟩
  · exact (Option.some.inj hlen).symm
  · dsimp only
    rw [Function.update_self]
    rfl

/-- The parts of the first way through a decision by its number. -/
theorem first_heGovDecisionNumber
    (h : heGovDecisionNumber.first id (fun _ => none) pre post = some z) :
    ∃ q ∈ (cat decisionLead).ways id (fun _ => none) pre post, ∃ x,
      decisionNumber.first id q.groups q.pre q.post = some x ∧ z.groups .governmentNumber =
        ((cat (governmentLead ++ [governmentNumber])).first id x.groups x.pre x.post).bind
          fun o => o.groups .governmentNumber := by
  rw [heGovDecisionNumber_eq] at h
  obtain ⟨q, hq, hz⟩ := first_append h
  have htotal : ∀ g pre post, (cat [opt (cat (governmentLead ++ [governmentNumber])),
      decisionEnd]).Matches g pre [] post g :=
    fun g pre post => ⟨[], [], g, rfl, Or.inr ⟨rfl, rfl⟩, decisionEnd_nil _ _ _⟩
  obtain ⟨x, hx, hz⟩ := first_seq_total (ways_ne_nil htotal) hz
  obtain ⟨o, ho, hz⟩ := first_seq_total (ways_ne_nil decisionEnd_nil) hz
  refine ⟨q, hq, x, hx, ?_⟩
  rw [ways_groups_of_avoids rfl (first_mem hz)]
  rw [first_opt] at ho
  obtain rfl := Option.some.inj ho
  cases (cat (governmentLead ++ [governmentNumber])).first id x.groups x.pre x.post with
  | some o => rfl
  | none =>
    have hnone : x.groups .governmentNumber = none := by
      rw [ways_groups_of_avoids rfl (first_mem hx), ways_groups_of_avoids rfl hq]
    exact hnone

/-- A government's number that is cut is one of a longer number. -/
theorem longGovernment_of_cut {pl : Place}
    (h : heGovDecisionNumber.first id (fun _ => none) pre post = some z)
    (hpl : z.groups .governmentNumber = some pl) (hcut : ¬Whole pl) :
    (longGovernment.matchAt pre post).isSome = true := by
  obtain ⟨q, hq, x, hx, hgroups⟩ := first_heGovDecisionNumber h
  rw [hgroups, Option.bind_eq_some_iff] at hpl
  obtain ⟨o, ho, hpl⟩ := hpl
  obtain ⟨q', hq', ds, hpost, hrun, hend, hplace⟩ := first_government ho
  rw [hplace] at hpl
  obtain rfl := Option.some.inj hpl
  have hbefore : Fenced isDigit q'.pre :=
    fenced_way_of_needs governmentLead_spacer.nonDigit governmentLead_spacer.needs hq'
  have hnext : ¬Fenced isDigit o.post := fun hafter => hcut ⟨hbefore, hafter⟩
  have htwo := hend.resolve_right hnext
  obtain ⟨d, tail, htail, hd⟩ : ∃ d tail, o.post = d :: tail ∧ isDigit d = true := by
    cases hop : o.post with
    | nil => exact absurd (hop ▸ Fenced.nil) hnext
    | cons d tail =>
      refine ⟨d, tail, rfl, ?_⟩
      by_contra hno
      refine hnext fun e he => ?_
      rw [hop] at he
      obtain rfl := Option.some.inj he
      simpa using hno
  have hthree : (rep isDigit 3 (some 3) true : Pattern).Matches (fun _ => none) q'.pre (ds ++ [d]) tail
      fun _ => none := by
    refine ⟨⟨fun c hc => ?_, ?_, fun n hn => ?_⟩, rfl⟩
    · rcases List.mem_append.1 hc with hc | hc
      · exact hrun.1 c hc
      · rw [List.mem_singleton.1 hc]
        exact hd
    · rw [List.length_append, List.length_singleton, htwo]
    · rw [List.length_append, List.length_singleton, htwo, ← Option.some.inj hn]
  obtain ⟨y, hy, -⟩ := ways_complete id hthree q'.groups
  have hahead : (ds ++ [d]) ++ tail = q'.post := by
    rw [hpost, htail, List.append_assoc]
    rfl
  rw [hahead] at hy
  have hlong : y ∈ longGovernment.ways id (fun _ => none) pre post := by
    unfold longGovernment
    rw [ways_append]
    refine List.mem_flatMap.2 ⟨q, hq, ?_⟩
    rw [ways_cat_cons]
    refine List.mem_flatMap.2 ⟨x, first_mem hx, ?_⟩
    rw [ways_append]
    exact List.mem_flatMap.2 ⟨q', hq', hy⟩
  obtain ⟨w, g', hw, -, hm⟩ := ways_sound hlong fun _ => none
  rw [hw]
  exact matchAt_complete hm

/-- Where a decision of a government with three digits matches, the first way through a decision by
its number has the same three digits ahead. -/
theorem government_ahead
    (h : heGovDecisionNumber.first id (fun _ => none) pre post = some z)
    (hlong : (longGovernment.matchAt pre post).isSome = true) :
    ∃ x : Way GroupName Place, z.groups .governmentNumber =
        ((cat (governmentLead ++ [governmentNumber])).first id x.groups x.pre x.post).bind
          (fun o => o.groups .governmentNumber) ∧
      ∃ lead ds tail g', x.post = lead ++ (ds ++ tail) ∧ Run isDigit 3 (some 3) ds ∧
        (cat governmentLead).Matches (fun _ => none) x.pre lead (ds ++ tail) g' := by
  obtain ⟨q, hq, x, hx, hgroups⟩ := first_heGovDecisionNumber h
  obtain ⟨c, w, hnum, hc, hw, hfence, hxpre, -⟩ := first_decisionNumber hx
  obtain ⟨u, _, hu, hqpre, hum⟩ := ways_sound hq fun _ => none
  obtain ⟨mt, hmt⟩ := Option.isSome_iff_exists.1 hlong
  obtain ⟨all, post', g', hall, hm, -⟩ := matchAt_sound hmt
  obtain ⟨y, hy, -⟩ := ways_complete id hm fun _ => none
  rw [← hall] at hy
  unfold longGovernment at hy
  obtain ⟨q₁, hq₁, hy⟩ := mem_ways_append hy
  rw [ways_cat_cons] at hy
  obtain ⟨x₁, hx₁, hy⟩ := List.mem_flatMap.1 hy
  obtain ⟨q₂, hq₂, hy⟩ := mem_ways_append hy
  obtain ⟨u₁, _, hu₁, hq₁pre, hu₁m⟩ := ways_sound hq₁ fun _ => none
  obtain ⟨_, _, hnum₁, hx₁pre, _, ⟨_, w₁, _, rfl, ⟨c₁, hc₁, rfl, -⟩, hw₁, -⟩, -⟩ :=
    ways_sound hx₁ fun _ => none
  obtain ⟨lead, g₃, hlead, -, hleadm⟩ := ways_sound hq₂ fun _ => none
  obtain ⟨ds, _, hds, -, hdsrun, -⟩ := ways_sound hy fun _ => none
  -- the numbers of both begin at the first digit
  have hspacer := decisionLead_spacer.nonDigit
  have hboth : u ++ (c :: (w ++ x.post)) = u₁ ++ (c₁ :: (w₁ ++ x₁.post)) := by
    rw [← hnum, ← hu, hu₁, hnum₁]
    rfl
  obtain ⟨rfl, hsame⟩ := numeral_ahead (hspacer.forall_mem hum) hc (hspacer.forall_mem hu₁m) hc₁ hboth
  obtain ⟨rfl, hrest⟩ := List.cons_eq_cons.1 hsame
  -- and end with all their characters
  have hspace : Fenced isNumberChar x₁.post := by
    have hlead' := hq₂
    unfold governmentLead at hlead'
    rw [ways_cat_cons] at hlead'
    obtain ⟨y', hy', -⟩ := List.mem_flatMap.1 hlead'
    exact fenced_ahead_of_needs sp_not_number sp_needs hy'
  obtain ⟨rfl, hpost⟩ := span_of_fenced hw hfence hw₁.1 hspace hrest
  have hpre : x.pre = x₁.pre := by
    rw [hxpre, hqpre, hx₁pre, hq₁pre]
    simp
  refine ⟨x, hgroups, lead, ds, y.post, g₃, ?_, hdsrun, ?_⟩
  · rw [hpost, hlead, hds]
  · rw [hpre, ← hds]
    exact hleadm

/-- A longer number of a government is cut. -/
theorem cut_of_longGovernment
    (h : heGovDecisionNumber.first id (fun _ => none) pre post = some z)
    (hlong : (longGovernment.matchAt pre post).isSome = true) :
    ∃ pl, z.groups .governmentNumber = some pl ∧ ¬Whole pl := by
  obtain ⟨x, hgroups, lead, ds, tail, g', hpost, hrun, hm⟩ := government_ahead h hlong
  obtain ⟨d₁, d₂, d₃, rfl⟩ := List.length_eq_three.1 (run_exact hrun)
  have hd₁ := hrun.1 d₁ (by simp)
  have hd₂ := hrun.1 d₂ (by simp)
  have hd₃ := hrun.1 d₃ (by simp)
  -- two of the digits make a government's number
  obtain ⟨q₁, hq₁, hq₁pre, hq₁post⟩ := ways_complete id hm x.groups
  have htwo : governmentNumber.Matches (fun _ => none) q₁.pre [d₁, d₂] (d₃ :: tail)
      (Function.update (fun _ => none) .governmentNumber (some [d₁, d₂])) := by
    refine ⟨_, ⟨⟨fun c hc => ?_, by simp, by simp⟩, rfl⟩, rfl⟩
    exact hrun.1 c (List.mem_append_left [d₃] hc)
  obtain ⟨y, hy, -⟩ := ways_complete id htwo q₁.groups
  have hway : y ∈ (cat (governmentLead ++ [governmentNumber])).ways id x.groups x.pre x.post := by
    rw [ways_append, hpost]
    refine List.mem_flatMap.2 ⟨q₁, hq₁, ?_⟩
    rw [hq₁post]
    exact hy
  obtain ⟨o, ho⟩ := Option.ne_none_iff_exists'.1 fun hnone =>
    List.ne_nil_of_mem hway (List.head?_eq_none_iff.1 hnone)
  obtain ⟨q, hq, es, hes, hesrun, -, hplace⟩ := first_government ho
  refine ⟨⟨q.pre, es, o.post⟩, ?_, fun hwhole => ?_⟩
  · rw [hgroups]
    exact Option.bind_eq_some_iff.2 ⟨o, ho, hplace⟩
  obtain ⟨lead', _, hlead', -, hlead'm⟩ := ways_sound hq fun _ => none
  obtain ⟨e, es, rfl⟩ := List.exists_cons_of_length_pos hesrun.2.1
  have hspacer := governmentLead_spacer.nonDigit
  have hboth : lead ++ (d₁ :: (d₂ :: d₃ :: tail)) = lead' ++ (e :: (es ++ o.post)) := by
    rw [← List.cons_append, ← hes, ← hlead', hpost]
    rfl
  obtain ⟨-, hsame⟩ := numeral_ahead (hspacer.forall_mem hm) hd₁ (hspacer.forall_mem hlead'm)
    (hesrun.1 e List.mem_cons_self) hboth
  obtain ⟨rfl, htwo'⟩ := List.cons_eq_cons.1 hsame
  have hshort := hesrun.2.2 2 rfl
  -- one or two of the three digits are taken, and the next one stands behind them
  cases es with
  | nil =>
    rw [List.nil_append] at htwo'
    have hnext := hwhole.2 d₂ (by rw [← htwo']; rfl)
    rw [hd₂] at hnext
    cases hnext
  | cons e' es =>
    obtain ⟨rfl, hone⟩ := List.cons_eq_cons.1 htwo'
    obtain rfl : es = [] := by
      rw [List.length_cons, List.length_cons] at hshort
      exact List.length_eq_zero_iff.1 (by omega)
    have hahead : d₃ :: tail = o.post := hone
    have hnext := hwhole.2 d₃ (by rw [← hahead]; rfl)
    rw [hd₃] at hnext
    cases hnext

/-! ## Matches and claims -/

/-- A decision by its number whose government has three digits or more. -/
def RuleMatch.LongGovernment (m : RuleMatch) (s : List Char) : Prop :=
  m.template.pattern = heGovDecisionNumber ∧
    (longGovernment.matchAt (s.take m.start).reverse (s.drop m.start)).isSome = true

theorem RuleMatch.LongGovernment.decision (hm : m ∈ iterMatches s language)
    (hlong : m.LongGovernment s) : m.Decision := by
  rcases (template_numbers _ (iterMatches_template hm).1).2.1 with hfree | ⟨hd, -⟩
  · rw [hlong.1] at hfree
    cases hfree
  · exact hd

/-- **The numbers of a match** are whole unless it is of a government with three digits or more. -/
theorem RuleMatch.numbersWhole_iff (hm : m ∈ iterMatches s language) :
    m.NumbersWhole s ↔ ¬m.LongGovernment s := by
  have ht := (iterMatches_template hm).1
  have hplace : ∀ {n : GroupName} {pl : Place}, m.placeOf s n = some pl →
      ∃ x, m.template.pattern.first id (fun _ => none) (s.take m.start).reverse (s.drop m.start) =
        some x ∧ x.groups n = some pl := fun h => Option.bind_eq_some_iff.1 h
  constructor
  · rintro hwhole ⟨hpat, hlong⟩
    obtain ⟨u, w, v, g, hs, hw, hstart, -, -⟩ := iterMatches_span hm
    obtain ⟨y, hy, -⟩ := ways_complete id hw fun _ => none
    have hdrop : s.drop m.start = w ++ v := by rw [hs, hstart, List.drop_left]
    have htake : s.take m.start = u := by rw [hs, hstart, List.take_left]
    rw [← hdrop, ← htake] at hy
    obtain ⟨z, hz⟩ := Option.ne_none_iff_exists'.1 fun hnone =>
      List.ne_nil_of_mem hy (List.head?_eq_none_iff.1 hnone)
    have hz' := hz
    rw [hpat] at hz'
    obtain ⟨pl, hpl, hcut⟩ := cut_of_longGovernment hz' hlong
    refine hcut (hwhole .governmentNumber pl ?_ (Or.inr (Or.inr (Or.inl rfl))))
    exact Option.bind_eq_some_iff.2 ⟨z, hz, hpl⟩
  · intro hshort n pl hpl hnum
    obtain ⟨x, hx, hxpl⟩ := hplace hpl
    rcases hnum with rfl | rfl | rfl | ⟨rfl, -⟩
    · exact seats_whole ht (first_mem hx) hxpl
    · exact decision_whole ht hx hxpl
    · rcases (template_numbers _ ht).2.2 with hfree | hpat
      · rw [ways_groups_of_avoids hfree (first_mem hx)] at hxpl
        cases hxpl
      by_contra hcut
      have hx' := hx
      rw [hpat] at hx'
      exact hshort ⟨hpat, longGovernment_of_cut hx' hxpl hcut⟩
    · exact time_whole ht (first_mem hx) hxpl

/-- The rule claims of a decomposition, each with the match it is made of. -/
def sourcedClaims (uuid4 : ℕ → String) (llm : Option LLMProvider) (statement : String)
    (language : Language) : List (RuleMatch × DecomposedClaim) :=
  (emittedOf statement language).zip
    ((decompose uuid4 llm statement language).claims.filter (·.method = .rules))

theorem sourcedClaims_fst (uuid4 : ℕ → String) (llm : Option LLMProvider) (statement : String)
    (language : Language) :
    (sourcedClaims uuid4 llm statement language).map Prod.fst = emittedOf statement language :=
  List.map_fst_zip (claims_emitted uuid4 llm statement language).length_eq.le

theorem sourcedClaims_snd (uuid4 : ℕ → String) (llm : Option LLMProvider) (statement : String)
    (language : Language) : (sourcedClaims uuid4 llm statement language).map Prod.snd =
      (decompose uuid4 llm statement language).claims.filter (·.method = .rules) :=
  List.map_snd_zip (claims_emitted uuid4 llm statement language).length_eq.ge

/-- A decision is emitted unless the leading anchored match overlaps it. -/
theorem decision_emitted_iff {d : RuleMatch} (hd : d ∈ matchesOf statement language)
    (hdd : d.Decision) : d ∈ emittedOf statement language ↔
      ¬∃ a, Leading statement language a ∧ overlaps a d = true := by
  constructor
  · rintro hsel ⟨a, ha, hover⟩
    obtain ⟨hasel, hanchored⟩ := leading_iff.1 ha
    obtain rfl := selected_eq hasel (mem_emittedOf.1 hsel).1 hover
    exact hanchored hdd
  · intro hnone
    refine mem_emittedOf.2 ⟨?_, decision_accepted hd hdd⟩
    by_contra hnot
    obtain ⟨a, ha, hanchored, -, hover⟩ := decision_selected hd hdd hnot
    exact hnone ⟨a, leading_iff.2 ⟨ha, hanchored⟩, hover⟩

/-- Every decision of a government with three digits or more gives way to the leading match. -/
def GovernmentsFit (statement : String) (language : Language) : Prop :=
  ∀ m ∈ matchesOf statement language, m.LongGovernment (strip statement).toList →
    ∃ a, Leading statement language a ∧ overlaps a m = true

/-- **When all numbers that were captured are whole** numbers of the statement. -/
theorem numbers_whole_iff (uuid4 : ℕ → String) (llm : Option LLMProvider) (statement : String)
    (language : Language) :
    (∀ p ∈ sourcedClaims uuid4 llm statement language, p.1.NumbersWhole (strip statement).toList) ↔
      GovernmentsFit statement language := by
  have hall : (∀ p ∈ sourcedClaims uuid4 llm statement language,
      p.1.NumbersWhole (strip statement).toList) ↔
        ∀ m ∈ emittedOf statement language, m.NumbersWhole (strip statement).toList := by
    rw [← sourcedClaims_fst uuid4 llm, List.forall_mem_map]
  rw [hall]
  constructor
  · intro hwhole m hm hlong
    by_contra hnone
    have hmem := (decision_emitted_iff hm (hlong.decision hm)).2 hnone
    exact (RuleMatch.numbersWhole_iff hm).1 (hwhole m hmem) hlong
  · intro hfit m hm
    have hmem := mem_of_mem_selectionOf (mem_emittedOf.1 hm).1
    refine (RuleMatch.numbersWhole_iff hmem).2 fun hlong => ?_
    exact (decision_emitted_iff hmem (hlong.decision hmem)).1 hm (hfit m hmem hlong)

/-! ## A year for a government -/

/-- A decision with a year right behind its number. -/
def datedDecision : String := "החלטת ממשלה מספר 550 2023"

theorem datedDecision_places : (emittedOf datedDecision .he).map
    (fun m => m.placeOf (strip datedDecision).toList .governmentNumber) =
      [some ⟨"החלטת ממשלה מספר 550 ".toList.reverse, "20".toList, "23".toList⟩] := by
  decide +kernel

/-- **The government of the claim** is half of the year. -/
theorem datedDecision_cut : ¬∀ p ∈ sourcedClaims (fun _ => "") none datedDecision .he,
    p.1.NumbersWhole (strip datedDecision).toList := by
  intro hwhole
  rw [← List.forall_mem_map (f := Prod.fst)
    (P := fun m : RuleMatch => m.NumbersWhole (strip datedDecision).toList), sourcedClaims_fst] at hwhole
  obtain ⟨m, rest, hms, hm, -⟩ := List.map_eq_cons_iff.1 datedDecision_places
  have hmem : m ∈ emittedOf datedDecision .he := hms ▸ List.mem_cons_self
  have hafter := (hwhole m hmem .governmentNumber _ hm (Or.inr (Or.inr (Or.inl rfl)))).2
  have hdigit := hafter '2' rfl
  revert hdigit
  decide

end CivicProof
