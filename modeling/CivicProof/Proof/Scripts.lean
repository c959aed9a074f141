import CivicProof.Regex.Language
import CivicProof.Spec.Decompose

/-!
# The scripts of the rule templates

An English template takes no Hebrew character, and every match of a Hebrew one has some. So the
rules of the two languages never find the same text in a statement.

* `foldCase_hebrew`: ignoring case does not cross between Hebrew and the rest.
* `english_within`, `hebrew_needs`: the table of templates.
* `iterMatches_groups`: what a match captures is part of the statement.
* `normalizedText_hebrew`: the language of a match, read off its text.
-/

namespace CivicProof

open Regex Re

/-- A character outside the Hebrew block. -/
def NonHebrew (c : Char) : Prop := isHebrewChar c = false

/-- A character of the Hebrew block. -/
def Hebrew (c : Char) : Prop := isHebrewChar c = true

/-! ## Case -/

theorem toLower_hebrew (c : Char) : isHebrewChar c.toLower = isHebrewChar c := by
  unfold Char.toLower
  split
  · rename_i h
    have hlo : 65 ≤ c.toNat := h.1
    have hhi : c.toNat ≤ 90 := h.2
    have hval : (c.val + ('a'.val - 'A'.val)).toNat = c.toNat + 32 := by
      rw [UInt32.toNat_add]
      exact Nat.mod_eq_of_lt (show c.toNat + 32 < _ by omega)
    have hlower : ∀ hv, Char.toNat ⟨c.val + ('a'.val - 'A'.val), hv⟩ = c.toNat + 32 := fun _ => hval
    unfold isHebrewChar
    rw [Bool.eq_iff_iff, hlower]
    simp only [Bool.and_eq_true, decide_eq_true_iff]
    omega
  · rfl

theorem toUpper_hebrew (c : Char) : isHebrewChar c.toUpper = isHebrewChar c := by
  unfold Char.toUpper
  split
  · rename_i h
    have hlo : 97 ≤ c.toNat := h.1
    have hhi : c.toNat ≤ 122 := h.2
    have hval : (c.val + ('A'.val - 'a'.val)).toNat = c.toNat - 32 := by
      rw [UInt32.toNat_add]
      show (c.toNat + 4294967264) % 4294967296 = _
      omega
    have hupper : ∀ hv, Char.toNat ⟨c.val + ('A'.val - 'a'.val), hv⟩ = c.toNat - 32 := fun _ => hval
    unfold isHebrewChar
    rw [Bool.eq_iff_iff, hupper]
    simp only [Bool.and_eq_true, decide_eq_true_iff]
    omega
  · rfl

/-- Ignoring case does not cross between Hebrew and the rest. -/
theorem foldCase_hebrew (c : Char) : isHebrewChar (foldCase c) = isHebrewChar c := by
  unfold foldCase
  split_ifs with hi hs hk
  · rcases hi with rfl | rfl <;> rfl
  · rw [hs]
    rfl
  · unfold isHebrewChar
    rw [hk]
    rfl
  · exact toLower_hebrew c

theorem charEq_hebrew {ci : Bool} {a c : Char} (h : charEq ci a c = true) :
    isHebrewChar c = isHebrewChar a := by
  unfold charEq at h
  split at h
  · rw [← foldCase_hebrew c, beq_iff_eq.1 h, foldCase_hebrew]
  · rw [beq_iff_eq.1 h]

/-! ## Classes -/

variable {c : Char}

theorem ciSet_nonHebrew {ci : Bool} {p : Char → Bool} (hp : ∀ x, p x = true → NonHebrew x)
    (h : ciSet ci p c = true) : NonHebrew c := by
  unfold ciSet at h
  simp only [Bool.or_eq_true, Bool.and_eq_true] at h
  rcases h with h | ⟨-, h | h⟩
  · exact hp c h
  · exact (foldCase_hebrew c).symm.trans (hp _ h)
  · exact ((toUpper_hebrew _).trans (foldCase_hebrew c)).symm.trans (hp _ h)

theorem isSpace_nonHebrew (h : isSpace c = true) : NonHebrew c := by
  unfold NonHebrew isHebrewChar
  unfold isSpace at h
  simp only [Bool.or_eq_true, Bool.and_eq_true, decide_eq_true_iff, beq_iff_eq] at h
  rw [Bool.and_eq_false_iff, decide_eq_false_iff_not, decide_eq_false_iff_not]
  omega

theorem isDigit_nonHebrew (h : isDigit c = true) : NonHebrew c := by
  have hall : ∀ z ∈ decimalZeros, z + 10 ≤ 0x590 ∨ 0x5FF < z := by decide
  unfold isDigit digitValue at h
  rw [Option.isSome_map] at h
  obtain ⟨z, hz⟩ := Option.isSome_iff_exists.1 h
  have hin := List.find?_some hz
  rw [Bool.and_eq_true, decide_eq_true_iff, decide_eq_true_iff] at hin
  have hrun := hall z (List.mem_of_find?_eq_some hz)
  unfold NonHebrew isHebrewChar
  rw [Bool.and_eq_false_iff, decide_eq_false_iff_not, decide_eq_false_iff_not]
  omega

theorem isLatin_nonHebrew (h : isLatin c = true) : NonHebrew c := by
  unfold isLatin isAZ at h
  simp only [Bool.or_eq_true, Bool.and_eq_true, decide_eq_true_iff] at h
  have key : c.toNat ≤ 122 := by
    rcases h with h | h
    · exact Nat.le_trans (show c.toNat ≤ 90 from h.2) (by decide)
    · exact h.2
  unfold NonHebrew isHebrewChar
  rw [Bool.and_eq_false_iff, decide_eq_false_iff_not]
  exact Or.inl (by omega)

theorem isEnName_nonHebrew (h : isEnName c = true) : NonHebrew c := by
  unfold isEnName at h
  simp only [Bool.or_eq_true, beq_iff_eq] at h
  rcases h with ((h | rfl) | rfl) | h
  · exact isLatin_nonHebrew h
  · rfl
  · rfl
  · exact isSpace_nonHebrew h

theorem isEnCommittee_nonHebrew (h : isEnCommittee c = true) : NonHebrew c := by
  unfold isEnCommittee at h
  simp only [Bool.or_eq_true, Bool.and_eq_true, decide_eq_true_iff, beq_iff_eq] at h
  rcases h with (((h | h) | rfl) | h) | rfl
  · exact isLatin_nonHebrew h
  · have hle : c.toNat ≤ 57 := h.2
    unfold NonHebrew isHebrewChar
    rw [Bool.and_eq_false_iff, decide_eq_false_iff_not]
    exact Or.inl (by omega)
  · rfl
  · exact isSpace_nonHebrew h
  · rfl

theorem isEnTitle_nonHebrew (h : isEnTitle c = true) : NonHebrew c := by
  unfold isEnTitle at h
  simp only [Bool.or_eq_true, beq_iff_eq] at h
  rcases h with (h | rfl) | rfl
  · exact isEnCommittee_nonHebrew h
  · rfl
  · rfl

/-! ## Templates -/

theorem en_within {ci : Bool} {s : String} (h : s.toList.all (isHebrewChar · = false) = true) :
    (en ci s).Within NonHebrew :=
  Within_lit.2 fun a ha _ hc =>
    (charEq_hebrew hc).trans (of_decide_eq_true (List.all_eq_true.1 h a ha))

theorem he_needs {s : String} (h : s.toList.any isHebrewChar = true) : (he s).Needs Hebrew := by
  obtain ⟨a, ha, hheb⟩ := List.any_eq_true.1 h
  exact Needs_lit.2 ⟨a, ha, fun _ hc => (charEq_hebrew hc).trans hheb⟩


theorem sp_within : sp.Within NonHebrew := fun _ => isSpace_nonHebrew

theorem sp0_within : sp0.Within NonHebrew := fun _ => isSpace_nonHebrew

theorem digits_within {lo : ℕ} {hi : Option ℕ} : (rep isDigit lo hi true : Pattern).Within NonHebrew :=
  fun _ => isDigit_nonHebrew

theorem sentenceEnd_within : sentenceEnd.Within NonHebrew := by
  have hmark : (Re.set fun c => c == '.' || c == '?' || c == '!' : Pattern).Within NonHebrew := by
    intro c hc
    simp only [Bool.or_eq_true, beq_iff_eq] at hc
    rcases hc with (rfl | rfl) | rfl <;> rfl
  simp [sentenceEnd, hmark, sp0_within]

theorem decisionEnd_within : decisionEnd.Within NonHebrew := by
  have hmark : (Re.set fun c => c == '.' || c == '?' || c == '!' || c == ',' : Pattern).Within
      NonHebrew := by
    intro c hc
    simp only [Bool.or_eq_true, beq_iff_eq] at hc
    rcases hc with ((rfl | rfl) | rfl) | rfl <;> rfl
  simp [decisionEnd, hmark, sp0_within]

theorem enTimeSuffix_within {ci : Bool} : (enTimeSuffix ci).Within NonHebrew := by
  simp (disch := decide) [enTimeSuffix, sp_within, digits_within, fourDigits, en_within]

theorem enProper_within {ci : Bool} : (enProper ci).Within NonHebrew := by
  have hfirst : (Re.set (ciSet ci isAZ) : Pattern).Within NonHebrew :=
    fun _ => ciSet_nonHebrew fun x hx => isLatin_nonHebrew (by rw [isLatin, hx, Bool.true_or])
  have hrest : (rep (ciSet ci isEnName) 2 (some 50) false : Pattern).Within NonHebrew :=
    fun _ => ciSet_nonHebrew fun _ => isEnName_nonHebrew
  simp [enProper, hfirst, hrest]

theorem enBill_within {ci : Bool} : (enBill ci).Within NonHebrew :=
  fun _ => ciSet_nonHebrew fun _ => isEnTitle_nonHebrew

theorem enCommittee_within : enCommittee.Within NonHebrew := fun _ => isEnCommittee_nonHebrew

theorem enWords_within : enWords.Within NonHebrew := fun _ => ciSet_nonHebrew fun x hx => by
  rcases Bool.or_eq_true _ _ ▸ hx with hx | hx
  · exact isLatin_nonHebrew hx
  · exact isSpace_nonHebrew hx

theorem enCommitteeWord_within : enCommitteeWord.Within NonHebrew := by
  have hfirst : (Re.set fun c => c == 'C' || c == 'c' : Pattern).Within NonHebrew := by
    intro c hc
    simp only [Bool.or_eq_true, beq_iff_eq] at hc
    rcases hc with rfl | rfl <;> rfl
  simp (disch := decide) [enCommitteeWord, hfirst, en_within]

theorem decisionNumber_within : decisionNumber.Within NonHebrew := by
  have hrest : (rep (fun c => isDigit c || c == '/' || c == '-') 0 none true : Pattern).Within
      NonHebrew := by
    intro c hc
    simp only [Bool.or_eq_true, beq_iff_eq] at hc
    rcases hc with (hc | rfl) | rfl
    · exact isDigit_nonHebrew hc
    · rfl
    · rfl
  have hfirst : (Re.set isDigit : Pattern).Within NonHebrew := fun _ => isDigit_nonHebrew
  simp [decisionNumber, hfirst, hrest]

/-- **An English template takes no Hebrew character.** -/
theorem english_within {t : RuleTemplate} (ht : t ∈ ruleTemplates) (hl : t.language = .en) :
    t.pattern.Within NonHebrew := by
  have hall : ∀ t ∈ ruleTemplates, t.language = .en → t.pattern ∈ [enVote, enSponsor, enOffice,
      enCommitteeMem, enCommitteeAtt, enElectionSeats, enElectionThresholdBelow,
      enGovDecisionNumber] := by
    simp [ruleTemplates]
  have hpat := hall t ht hl
  have subj : ∀ {ci}, (enSubject ci).Within NonHebrew := enProper_within
  have hseats : seats.Within NonHebrew := fun _ => isDigit_nonHebrew
  simp only [List.mem_cons, List.not_mem_nil, or_false] at hpat
  rcases hpat with h | h | h | h | h | h | h | h
  all_goals
    rw [h]
    simp (disch := decide) [enVote, enSponsor, enOffice, enCommitteeMem, enCommitteeAtt,
      enElectionSeats, enElectionThresholdBelow, enGovDecisionNumber, subj, hseats, en_within,
      sp_within, sp0_within, enBill_within, enTimeSuffix_within, sentenceEnd_within, enWords_within,
      enCommittee_within, enCommitteeWord_within, enProper_within, decisionNumber_within,
      decisionEnd_within]

/-- **Every match of a Hebrew template has a Hebrew character.** -/
theorem hebrew_needs {t : RuleTemplate} (ht : t ∈ ruleTemplates) (hl : t.language = .he) :
    t.pattern.Needs Hebrew := by
  have hall : ∀ t ∈ ruleTemplates, t.language = .he → t.pattern ∈ [heVote, heSponsor, heOffice,
      heCommitteeMem, heCommitteeAtt, heElectionSeats, heElectionThresholdBelow,
      heGovDecisionNumber, heGovDecisionRef] := by
    simp [ruleTemplates]
  have hpat := hall t ht hl
  simp only [List.mem_cons, List.not_mem_nil, or_false] at hpat
  rcases hpat with h | h | h | h | h | h | h | h | h
  all_goals
    rw [h]
    simp (disch := decide) [heVote, heSponsor, heOffice, heCommitteeMem, heCommitteeAtt,
      heElectionSeats, heElectionThresholdBelow, heGovDecisionNumber, heGovDecisionRef, heVerb,
      he_needs]

/-! ## The language of a match -/

/-- **A match in a text**: its pattern matches the span, and the groups are what it captures. -/
theorem iterMatches_span {s : List Char} {language : Language} {m : RuleMatch}
    (hm : m ∈ iterMatches s language) : ∃ u w v g, s = u ++ (w ++ v) ∧
      m.template.pattern.Matches (fun _ => none) u.reverse w v g ∧ m.start = u.length ∧
        m.stop = u.length + w.length ∧ m.groups = fun n => (g n).map String.ofList := by
  unfold iterMatches at hm
  obtain ⟨t, -, hm⟩ := List.mem_flatMap.1 hm
  obtain ⟨mt, hmt, rfl⟩ := List.mem_map.1 hm
  obtain ⟨u, w, v, g, rfl, hw, rfl⟩ := finditer_sound hmt
  exact ⟨u, w, v, g, rfl, hw, rfl, rfl, rfl⟩

/-- The text of a match is matched by the pattern of its template. -/
theorem iterMatches_text {s : List Char} {language : Language} {m : RuleMatch}
    (hm : m ∈ iterMatches s language) : ∃ pre post g g',
      m.template.pattern.Matches g pre ((s.take m.stop).drop m.start) post g' := by
  obtain ⟨u, w, v, g, rfl, hw, hstart, hstop, -⟩ := iterMatches_span hm
  have htext : ((u ++ (w ++ v)).take m.stop).drop m.start = w := by
    rw [hstart, hstop, List.take_length_add_append, List.take_left, List.drop_left]
  exact ⟨u.reverse, v, fun _ => none, g, by rw [htext]; exact hw⟩

/-- What the groups of a match hold is part of the statement. -/
theorem iterMatches_groups {s : List Char} {language : Language} {m : RuleMatch}
    (hm : m ∈ iterMatches s language) {n : GroupName} {v : String} (hv : m.groups n = some v) :
    ∀ c ∈ v.toList, c ∈ s := by
  obtain ⟨u, w, v', g, rfl, hw, -, -, hgroups⟩ := iterMatches_span hm
  rw [hgroups] at hv
  obtain ⟨text, htext, rfl⟩ := Option.map_eq_some_iff.1 hv
  intro c hc
  rw [String.toList_ofList] at hc
  rcases Matches_groups hw n text htext with h | h
  · cases h
  · exact List.mem_append_right _ (List.mem_append_left _ (h.subset hc))

/-- **The language of a match, read off its text**: a rule finds a text with Hebrew characters
exactly if it is a Hebrew rule. -/
theorem normalizedText_hebrew {s : List Char} {language : Language} {m : RuleMatch}
    (hm : m ∈ iterMatches s language) (claimId : String) :
    (∃ c ∈ (ruleMatchToClaim claimId m s).normalizedText.toList, Hebrew c) ↔ language = .he := by
  obtain ⟨ht, hl⟩ := iterMatches_template hm
  obtain ⟨pre, post, g, g', hmatch⟩ := iterMatches_text hm
  constructor
  · rintro ⟨c, hc, hheb⟩
    cases language with
    | he => rfl
    | en =>
      have hin := mem_of_mem_strip hc
      rw [String.toList_ofList] at hin
      have hnon := (english_within ht hl).forall_mem hmatch c hin
      exact absurd (hnon.symm.trans hheb) Bool.false_ne_true
  · rintro rfl
    obtain ⟨c, hc, hheb⟩ := (hebrew_needs ht hl).exists_mem hmatch
    refine ⟨c, mem_strip (by rwa [String.toList_ofList]) ?_, hheb⟩
    -- no white space is Hebrew
    by_contra hspace
    have hnon := isSpace_nonHebrew (Bool.eq_true_of_not_eq_false hspace)
    exact absurd (hnon.symm.trans hheb) Bool.false_ne_true

end CivicProof
