import CivicProof.Proof.EnglishOffices
import CivicProof.Proof.HebrewOffices
import CivicProof.Proof.TimeName

/-!
# When a time suffix stays apart

The law for each template: `time_kept_iff`. Templates that end in a word of their own keep every suffix
apart. An office or a name at the end can take it in, under the condition `TimeApart`.
-/

namespace CivicProof

open Regex Re

/-! ## Hebrew templates with a name at their end -/

/-- A Hebrew word of other letters. -/
theorem he_without {x : Char} {word : String} (h : x ∉ word.toList) : (he word).Within fun c => ¬c = x :=
  Within_lit.2 fun a ha c hc => by
    rw [(charEq_iff ..).1 hc]
    exact fun heq => h (heq ▸ ha)

theorem sp_without {x : Char} (h : isSpace x = false) : sp.Within fun c => ¬c = x := by
  rintro c hc rfl
  rw [h] at hc
  cases hc

theorem sp0_without {x : Char} (h : isSpace x = false) : sp0.Within fun c => ¬c = x := sp_without h

/-- The fronts of the four templates: no word before the last of its own has a certain letter of it. -/
theorem heVote_front : ∃ mid, heVote = cat (heSubject :: mid ++ nameEnd .bill 120 ++
    [heTimeSuffix, sentenceEnd]) ∧ NameFront mid 'ק' 0 ∧ Untimed (heSubject :: mid) (nameEnd .bill 120) := by
  have hlaw : Re.Marks 'ק' 0 (he "חוק") := Marks_he (A := ['ח', 'ו']) (B := []) rfl (by decide)
  refine ⟨[_, _, _, _, _, _, _], rfl, ⟨by decide, ?_⟩, ⟨by decide, by decide, by decide, by decide⟩⟩
  refine Marks_append [_, _, _, _, _, _] [_] ?_ (Marks_any (List.forall_mem_cons.2 ⟨hlaw,
    List.forall_mem_singleton.2 (Marks_append [_, _] [_] ?_ hlaw)⟩))
  · simp (disch := decide) [heVerb, he_without, sp_without, sp0_without]
  · simp (disch := decide) [he_without, sp_without]

theorem heSponsor_front : ∃ mid, heSponsor = cat (heSubject :: mid ++ nameEnd .bill 120 ++
    [heTimeSuffix, sentenceEnd]) ∧ NameFront mid 'ק' 0 ∧ Untimed (heSubject :: mid) (nameEnd .bill 120) := by
  have hlaw : Re.Marks 'ק' 0 (he "חוק") := Marks_he (A := ['ח', 'ו']) (B := []) rfl (by decide)
  refine ⟨[_, _, _, _, _], rfl, ⟨by decide, ?_⟩, ⟨by decide, by decide, by decide, by decide⟩⟩
  refine Marks_append [_, _, _, _] [_] ?_ (Marks_any (List.forall_mem_cons.2
    ⟨Marks_append [_, _] [_] ?_ hlaw, List.forall_mem_singleton.2 hlaw⟩))
  · simp (disch := decide) [heVerb, he_without, sp_without]
  · simp (disch := decide) [he_without, sp_without]

theorem heCommitteeMem_front : ∃ mid, heCommitteeMem = cat (heSubject :: mid ++ nameEnd .committee 80 ++
    [heTimeSuffix, sentenceEnd]) ∧ NameFront mid 'ע' 2 ∧
      Untimed (heSubject :: mid) (nameEnd .committee 80) := by
  refine ⟨[_, _, _, _, _, _, _], rfl, ⟨by decide, ?_⟩, ⟨by decide, by decide, by decide, by decide⟩⟩
  refine Marks_append [_, _, _, _, _] [_, _] ?_ ?_
  · simp (disch := decide) [heVerb, he_without, sp_without]
  · intro g pre w post g' h
    obtain ⟨u, v, rfl, rfl, h⟩ := (plain_he "ועד").cat_iff.1 h
    have hv : v.length = 1 ∧ 'ע' ∉ v := by
      obtain ⟨e, he, h⟩ := Matches_any.1 h
      rcases List.mem_cons.1 he with rfl | he
      · obtain rfl := ((plain_he "ת" ..).1 h).1
        decide
      · obtain rfl := List.mem_singleton.1 he
        obtain rfl := ((plain_he "ה" ..).1 h).1
        decide
    exact ⟨['ו'], 'ד' :: v, rfl, by decide, by rw [List.length_cons, hv.1]⟩

theorem heCommitteeAtt_front : ∃ mid, heCommitteeAtt = cat (heSubject :: mid ++ nameEnd .committee 80 ++
    [heTimeSuffix, sentenceEnd]) ∧ NameFront mid 'ע' 2 ∧
      Untimed (heSubject :: mid) (nameEnd .committee 80) := by
  refine ⟨[_, _, _, _, _], rfl, ⟨by decide, ?_⟩, ⟨by decide, by decide, by decide, by decide⟩⟩
  refine Marks_append [_, _, _, _] [_] ?_ (Marks_any (List.forall_mem_cons.2
    ⟨Marks_he (A := ['ו']) (B := ['ד', 'ת']) rfl (by decide), List.forall_mem_singleton.2
      (Marks_he (A := ['ו']) (B := ['ד', 'ה']) rfl (by decide))⟩))
  simp (disch := decide) [heVerb, he_without, sp_without]

/-! ## The law -/

/-- The match names something of the form `Q` in the group `n`. -/
def RuleMatch.Names (m : RuleMatch) (n : GroupName) (Q : List Char → Prop) : Prop :=
  ∃ v, m.groups n = some v ∧ Q v.toList

/-- **A suffix stays apart** from what a template has read before it. An office can be one of the fixed
ones, or the time has a digit, which no office has. A name at the end of a Hebrew template does not begin
with white space, or what is left of it without that does not go on to the end of the suffix. -/
def TimeApart (tmpl : RuleTemplate) (m : RuleMatch) (t : List Char) : Prop :=
  match tmpl.claimType, tmpl.language with
  | .officeHeld, .en => (∃ c ∈ t, isDigit c = true) ∨ m.Names .office enFixedOffices.Has
  | .officeHeld, .he => (∃ c ∈ t, isDigit c = true) ∨ m.Names .office heFixedOffices.Has
  | .voteCast, .he | .billSponsorship, .he => m.Names .bill fun b => NameApart 120 b (timeSuffix .he t)
  | .committeeMembership, .he | .committeeAttendance, .he =>
    m.Names .committee fun c => NameApart 80 c (timeSuffix .he t)
  | _, _ => True

theorem names_ofMatch {tmpl : RuleTemplate} {m : Match GroupName} {n : GroupName} {Q : List Char → Prop} :
    (ofMatch tmpl m).Names n Q ↔ ∃ w, m.groups n = some w ∧ Q w := by
  constructor
  · rintro ⟨v, hv, hQ⟩
    obtain ⟨w, hw, rfl⟩ := Option.map_eq_some_iff.1 hv
    exact ⟨w, hw, by rwa [String.toList_ofList] at hQ⟩
  · rintro ⟨w, hw, hQ⟩
    exact ⟨String.ofList w, Option.map_eq_some_iff.2 ⟨w, hw, rfl⟩, by rwa [String.toList_ofList]⟩

theorem enCommitteeWord_last : enCommitteeWord.Last fun c => ¬PhraseEnd ['t', 'm'] c :=
  Last_append (l := [_]) (last_other false (w := "ommitte".toList) rfl (by decide)) (word_needs (by decide))

theorem enCommitteeWord_needs : enCommitteeWord.Needs fun _ => True :=
  Needs_cat.2 ⟨_, List.mem_cons_self, fun _ _ => trivial⟩

theorem seatsWord_last : (any [he "מנדטים", he "מושבים"]).Last fun c => ¬PhraseEnd ['ה', 'ת'] c :=
  Last_any.2 (List.forall_mem_cons.2 ⟨last_other false (w := "מנדטי".toList) rfl (by decide),
    List.forall_mem_singleton.2 (last_other false (w := "מושבי".toList) rfl (by decide))⟩)

theorem seatsWord_needs : (any [he "מנדטים", he "מושבים"]).Needs fun _ => True :=
  Needs_any.2 (List.forall_mem_cons.2 ⟨word_needs (by decide), List.forall_mem_singleton.2
    (word_needs (by decide))⟩)

section

variable {tmpl : RuleTemplate} {s t : List Char} {m : Match GroupName} {l alts : List Pattern} {a : Pattern}
  {ci : Bool}

theorem enTime_phrase {τ : List Char} (h : (any (enTimeAlts ci)).Has τ) : PhraseText isLetterI τ := by
  obtain ⟨r, hr, h⟩ := Matches_any.1 h
  rcases List.mem_cons.1 hr with rfl | hr
  · exact fourDigits_phrase (fun _ => isLetterI_of_digit) h
  rcases List.mem_cons.1 hr with rfl | hr
  · exact enKnesset_phrase h
  obtain rfl := List.mem_singleton.1 hr
  exact enTerm_phrase h

theorem heTime_phrase {τ : List Char} (h : (any heTimeAlts).Has τ) : PhraseText isBet τ := by
  obtain ⟨r, hr, h⟩ := Matches_any.1 h
  rcases List.mem_cons.1 hr with rfl | hr
  · exact fourDigits_phrase (fun _ => isBet_of_digit) h
  rcases List.mem_cons.1 hr with rfl | hr
  · exact heTerm_phrase h
  obtain rfl := List.mem_singleton.1 hr
  exact heKnesset_phrase h

theorem heShort_phrase {τ : List Char} (h : (any [fourDigits, heKnesset]).Has τ) : PhraseText isBet τ := by
  obtain ⟨r, hr, h⟩ := Matches_any.1 h
  rcases List.mem_cons.1 hr with rfl | hr
  · exact fourDigits_phrase (fun _ => isBet_of_digit) h
  obtain rfl := List.mem_singleton.1 hr
  exact heKnesset_phrase h

/-- The phrase is one of those of the only time group. -/
theorem has_of_phrase (hphrase : TimePhrase tmpl t) (hbodies : tmpl.pattern.bodies .time = [a]) : a.Has t := by
  obtain ⟨b, hb, h⟩ := hphrase
  rw [hbodies] at hb
  obtain rfl := List.mem_singleton.1 hb
  exact h

variable (ht : tmpl ∈ ruleTemplates) (hphrase : TimePhrase tmpl t) (hm : tmpl.pattern.search s = some m)
  (htime : m.groups .time = none) (hmark : NoMark s)

include ht hphrase hm htime hmark

/-- An English template that ends in a word of its own. -/
theorem en_kept (hlang : tmpl.language = .en) (hbodies : tmpl.pattern.bodies .time = [any (enTimeAlts ci)])
    (hpattern : tmpl.pattern = cat (l ++ [a] ++ [] ++ [enTimeSuffix ci, sentenceEnd]))
    (hF : Untimed (l ++ [a]) []) (hlast : a.Last fun c => ¬PhraseEnd ['t', 'm'] c)
    (hne : a.Needs fun _ => True) : TimeKept tmpl s t (ofMatch tmpl m) := by
  have hhas := has_of_phrase hphrase hbodies
  refine kept_of_last ht hphrase hpattern hF ?_ hm htime hmark hlast hne hhas enTimeAlts_last
    (enTime_phrase hhas)
  rw [hlang]
  exact readBack_en (fun τ => enTime_phrase) hhas

/-- A Hebrew one. -/
theorem he_kept (letters : List Char) (hlang : tmpl.language = .he) (hbodies : tmpl.pattern.bodies .time = [any alts])
    (hpattern : tmpl.pattern = cat (l ++ [a] ++ [] ++ [heTime alts, sentenceEnd]))
    (hF : Untimed (l ++ [a]) []) (hlast : a.Last fun c => ¬PhraseEnd letters c)
    (hne : a.Needs fun _ => True) (halts : (any alts).bare = true)
    (htext : ∀ τ, (any alts).Has τ → PhraseText isBet τ) (hend : (any alts).Last (PhraseEnd letters)) :
    TimeKept tmpl s t (ofMatch tmpl m) := by
  have hhas := has_of_phrase hphrase hbodies
  refine kept_of_last ht hphrase hpattern hF ?_ hm htime hmark hlast hne hhas hend (htext t hhas)
  rw [hlang]
  exact readBack_he halts htext hhas

/-- A Hebrew template with a name at its end. -/
theorem he_name_kept_iff {n : GroupName} {hi k : ℕ} {x : Char} (hlang : tmpl.language = .he)
    (hbodies : tmpl.pattern.bodies .time = [any heTimeAlts]) (hhi : 2 ≤ hi)
    (hfront : ∃ mid, tmpl.pattern = cat (heSubject :: mid ++ nameEnd n hi ++ [heTimeSuffix, sentenceEnd]) ∧
      NameFront mid x k ∧ Untimed (heSubject :: mid) (nameEnd n hi)) :
    TimeKept tmpl s t (ofMatch tmpl m) ↔
      (ofMatch tmpl m).Names n fun name => NameApart hi name (timeSuffix .he t) := by
  obtain ⟨mid, hpattern, N, hF⟩ := hfront
  have hhas := has_of_phrase hphrase hbodies
  have hT : ReadBack heTimeSuffix (timeSuffix tmpl.language t) t := by
    rw [hlang]
    exact readBack_he rfl (fun τ => heTime_phrase) hhas
  have hne : t ≠ [] := (heTime_phrase hhas).plain.ne_nil
  rw [names_ofMatch, ← hlang]
  exact name_kept_iff ht hphrase hpattern hF hT hm htime hmark N hhi hlang hne

end

/-! ### Offices -/

/-- Where the digits stand. -/
theorem digit_range {c : Char} (h : isDigit c = true) :
    48 ≤ c.toNat ∧ c.toNat ≤ 57 ∨ 0x660 ≤ c.toNat := by
  have hall : ∀ z ∈ decimalZeros, z = 48 ∨ 0x660 ≤ z := by decide
  unfold isDigit digitValue at h
  rw [Option.isSome_map] at h
  obtain ⟨z, hz⟩ := Option.isSome_iff_exists.1 h
  have hin := List.find?_some hz
  rw [Bool.and_eq_true, decide_eq_true_iff, decide_eq_true_iff] at hin
  have hrun := hall z (List.mem_of_find?_eq_some hz)
  omega

theorem latin_nonDigit {c : Char} (h : isLatin c = true) : NonDigit c := by
  by_contra hd
  have hrange := digit_range (Bool.eq_true_of_not_eq_false hd)
  unfold isLatin isAZ at h
  simp only [Bool.or_eq_true, Bool.and_eq_true, decide_eq_true_iff] at h
  rcases h with h | h
  · have hlo : 65 ≤ c.toNat := h.1
    have hhi : c.toNat ≤ 90 := h.2
    omega
  · have hlo : 97 ≤ c.toNat := h.1
    have hhi : c.toNat ≤ 122 := h.2
    omega

theorem hebrew_nonDigit {c : Char} (h : isHebrewChar c = true) : NonDigit c := by
  by_contra hd
  have hnot : isHebrewChar c = false := isDigit_nonHebrew (Bool.eq_true_of_not_eq_false hd)
  rw [h] at hnot
  cases hnot

theorem enName_nonDigit {c : Char} (h : isEnName c = true) : NonDigit c := by
  unfold isEnName at h
  simp only [Bool.or_eq_true, beq_iff_eq] at h
  rcases h with ((h | rfl) | rfl) | h
  · exact latin_nonDigit h
  · rfl
  · rfl
  · exact isSpace_not_digit h

theorem heName_nonDigit {c : Char} (h : isHeName c = true) : NonDigit c := by
  unfold isHeName at h
  simp only [Bool.or_eq_true, beq_iff_eq] at h
  rcases h with (h | h) | rfl
  · exact hebrew_nonDigit h
  · exact enName_nonDigit h
  · rfl

theorem heWords_nonDigit {c : Char} (h : isHeWords c = true) : NonDigit c := by
  unfold isHeWords at h
  simp only [Bool.or_eq_true, beq_iff_eq] at h
  rcases h with (h | rfl) | h
  · exact hebrew_nonDigit h
  · rfl
  · exact isSpace_not_digit h

/-- Ignoring case does not bring digits into a class. -/
theorem ciSet_nonDigit {p : Char → Bool} (hp : ∀ c, p c = true → NonDigit c) {c : Char}
    (h : ciSet true p c = true) : NonDigit c := by
  by_contra hd
  have hdigit : isDigit c = true := Bool.eq_true_of_not_eq_false hd
  have hupper : c.toUpper = c := by
    have hrange := digit_range hdigit
    unfold Char.toUpper
    rw [dif_neg]
    rintro ⟨hlo, hhi⟩
    have hlo : 97 ≤ c.toNat := hlo
    have hhi : c.toNat ≤ 122 := hhi
    omega
  rw [ciSet, foldCase_digit hdigit, hupper, Bool.true_and, Bool.or_self, Bool.or_self] at h
  exact hd (hp c h)

theorem enOffice_nonDigit : ∃ l, enOffice = cat (l ++ [.group .office enOffices] ++
    [enTimeSuffix true, sentenceEnd]) ∧ Untimed l [.group .office enOffices] ∧
      (cat (l ++ [.group .office enOffices])).Within NonDigit := by
  refine ⟨[_, _, _, _, _], rfl, ⟨by decide, by decide, by decide, by decide⟩, ?_⟩
  have hcapital : (Re.set (ciSet true isAZ) : Pattern).Within NonDigit := fun c =>
    ciSet_nonDigit fun c h => latin_nonDigit (by rw [isLatin, h]; rfl)
  have hname : (Re.rep (ciSet true isEnName) 2 (some 50) false : Pattern).Within NonDigit := fun c =>
    ciSet_nonDigit fun c => enName_nonDigit
  have hwords : enWords.Within NonDigit := fun c => ciSet_nonDigit fun c h =>
    (Bool.or_eq_true_iff.1 h).elim latin_nonDigit isSpace_not_digit
  simp (disch := decide) [enSubject, enProper, enOffices, hcapital, hname, hwords, sp_nonDigit, en_nonDigit]

theorem heOffice_nonDigit : ∃ l, heOffice = cat (l ++ [.group .office heOffices] ++
    [heTimeSuffix, sentenceEnd]) ∧ Untimed l [.group .office heOffices] ∧
      (cat (l ++ [.group .office heOffices])).Within NonDigit := by
  refine ⟨[_, _, _, _, _], rfl, ⟨by decide, by decide, by decide, by decide⟩, ?_⟩
  have hname : (Re.rep isHeName 2 (some 40) false : Pattern).Within NonDigit := fun c => heName_nonDigit
  have hwords : (Re.rep isHeWords 1 none true : Pattern).Within NonDigit := fun c => heWords_nonDigit
  simp (disch := decide) [heSubject, heOffices, heOfficeTail, heVerb, hname, hwords, sp_nonDigit, he_nonDigit]

section

variable {tmpl : RuleTemplate} {s t : List Char} {m : Match GroupName} (ht : tmpl ∈ ruleTemplates)
  (hphrase : TimePhrase tmpl t) (hm : tmpl.pattern.search s = some m) (htime : m.groups .time = none)
  (hmark : NoMark s)

include ht hphrase hm htime hmark

theorem en_office_kept_iff (hlang : tmpl.language = .en) (hpattern : tmpl.pattern = enOffice) :
    TimeKept tmpl s t (ofMatch tmpl m) ↔
      (∃ c ∈ t, isDigit c = true) ∨ (ofMatch tmpl m).Names .office enFixedOffices.Has := by
  obtain ⟨l, hoffice, hF, hplain⟩ := enOffice_nonDigit
  have hhas : (any (enTimeAlts true)).Has t := has_of_phrase hphrase (by rw [hpattern]; rfl)
  rw [names_ofMatch]
  refine office_kept_iff ht hphrase (hpattern.trans hoffice) hF ?_ hm htime hmark hplain fun hd => ?_
  · rw [hlang]
    exact readBack_en (fun τ => enTime_phrase) hhas
  · rw [hlang]
    exact enOfficeWords (enWordSuffix hhas hd)

theorem he_office_kept_iff (hlang : tmpl.language = .he) (hpattern : tmpl.pattern = heOffice) :
    TimeKept tmpl s t (ofMatch tmpl m) ↔
      (∃ c ∈ t, isDigit c = true) ∨ (ofMatch tmpl m).Names .office heFixedOffices.Has := by
  obtain ⟨l, hoffice, hF, hplain⟩ := heOffice_nonDigit
  have hhas : (any heTimeAlts).Has t := has_of_phrase hphrase (by rw [hpattern]; rfl)
  rw [names_ofMatch]
  refine office_kept_iff ht hphrase (hpattern.trans hoffice) hF ?_ hm htime hmark hplain fun hd => ?_
  · rw [hlang]
    exact readBack_he rfl (fun τ => heTime_phrase) hhas
  · rw [hlang]
    exact heOfficeWords (heWordSuffix hhas hd)

end

/-- **Time suffixes do not leak into other slots** exactly when they stay apart. -/
theorem time_kept_iff {tmpl : RuleTemplate} {s t : List Char} {m : RuleMatch} (ht : tmpl ∈ ruleTemplates)
    (hm : m ∈ templateMatches tmpl s) (htime : m.groups .time = none) (hmark : NoMark s)
    (hphrase : TimePhrase tmpl t) : TimeKept tmpl s t m ↔ TimeApart tmpl m t := by
  rw [templateMatches_eq ht hphrase, Option.mem_toList, Option.map_eq_some_iff] at hm
  obtain ⟨m, hm, rfl⟩ := hm
  have hnone : m.groups .time = none := Option.map_eq_none_iff.1 htime
  have hdecision := timed_not_decision ht hphrase
  have hmem := ht
  unfold ruleTemplates at ht
  simp only [List.mem_cons, List.not_mem_nil, or_false] at ht
  rcases ht with rfl | rfl | rfl | rfl | rfl | rfl | rfl | rfl | rfl | rfl | rfl | rfl | rfl | rfl | rfl |
    rfl | rfl
  · exact he_name_kept_iff hmem hphrase hm hnone hmark rfl rfl (by decide) heVote_front
  · exact he_name_kept_iff hmem hphrase hm hnone hmark rfl rfl (by decide) heSponsor_front
  · exact he_office_kept_iff hmem hphrase hm hnone hmark rfl rfl
  · exact he_name_kept_iff hmem hphrase hm hnone hmark rfl rfl (by decide) heCommitteeMem_front
  · exact he_name_kept_iff hmem hphrase hm hnone hmark rfl rfl (by decide) heCommitteeAtt_front
  · refine iff_of_true (en_kept hmem hphrase hm hnone hmark rfl rfl
      (l := [_, _, _, _, _, _, _, _, _, _]) rfl ⟨by decide, by decide, by decide, by decide⟩
      (last_other true (w := "bil".toList) rfl (by decide)) (word_needs (by decide))) trivial
  · refine iff_of_true (en_kept hmem hphrase hm hnone hmark rfl rfl
      (l := [_, _, _, _, _, _, _]) rfl ⟨by decide, by decide, by decide, by decide⟩
      (last_other true (w := "bil".toList) rfl (by decide)) (word_needs (by decide))) trivial
  · exact en_office_kept_iff hmem hphrase hm hnone hmark rfl rfl
  · refine iff_of_true (en_kept hmem hphrase hm hnone hmark rfl rfl
      (l := [_, _, _, _, _, _, _]) rfl ⟨by decide, by decide, by decide, by decide⟩
      enCommitteeWord_last enCommitteeWord_needs) trivial
  · refine iff_of_true (en_kept hmem hphrase hm hnone hmark rfl rfl
      (l := [_, _, _, _, _, _, _, _, _]) rfl ⟨by decide, by decide, by decide, by decide⟩
      enCommitteeWord_last enCommitteeWord_needs) trivial
  · refine iff_of_true (he_kept hmem hphrase hm hnone hmark ['ה', 'ת'] rfl rfl
      (l := [_, _, _, _, _, _, _]) rfl ⟨by decide, by decide, by decide, by decide⟩
      seatsWord_last seatsWord_needs rfl (fun τ => heTime_phrase) heTimeAlts_last) trivial
  · refine iff_of_true (he_kept hmem hphrase hm hnone hmark ['ת'] rfl rfl
      (l := [_, _, _, _, _, _, _, _, _]) rfl ⟨by decide, by decide, by decide, by decide⟩
      (last_other false (w := "החסימ".toList) rfl (by decide)) (word_needs (by decide)) rfl
      (fun τ => heShort_phrase) heShortAlts_last) trivial
  · refine iff_of_true (en_kept hmem hphrase hm hnone hmark rfl rfl
      (l := [_, _, _, _, _, _]) rfl ⟨by decide, by decide, by decide, by decide⟩
      (last_other true (w := "seat".toList) rfl (by decide)) (word_needs (by decide))) trivial
  · refine iff_of_true (en_kept hmem hphrase hm hnone hmark rfl rfl
      (l := [_, _, _, _, _, _, _, _, _, _, _]) rfl ⟨by decide, by decide, by decide, by decide⟩
      (last_other true (w := "threshol".toList) rfl (by decide)) (word_needs (by decide))) trivial
  · exact absurd rfl hdecision
  · exact absurd rfl hdecision
  · exact absurd rfl hdecision

/-- The English template of an office. -/
def officeTemplate : RuleTemplate :=
  { claimType := .officeHeld, language := .en, pattern := enOffice, description := "English office_held" }

theorem officeTemplate_mem : officeTemplate ∈ ruleTemplates :=
  List.mem_of_getElem? (show ruleTemplates[7]? = some officeTemplate from rfl)

theorem officePhrase_iff {t : List Char} : TimePhrase officeTemplate t ↔
    ∃ x ∈ (any (enTimeAlts true)).ways Place.part (fun _ => none) [] t, x.post = [] := by
  rw [← has_iff_way rfl]
  exact ⟨fun h => has_of_phrase h rfl, fun h => ⟨_, List.mem_singleton_self _, h⟩⟩

instance (t : List Char) : Decidable (TimePhrase officeTemplate t) :=
  decidable_of_iff _ officePhrase_iff.symm

/-- A year stays apart from a fixed office. -/
theorem time_kept_office : ∃ m ∈ templateMatches officeTemplate "Dana Levi served as Prime Minister".toList,
    TimeKept officeTemplate "Dana Levi served as Prime Minister".toList "2020".toList m := by
  obtain ⟨m, hm, htime⟩ : ∃ m ∈ templateMatches officeTemplate
      "Dana Levi served as Prime Minister".toList, m.groups .time = none := by decide +kernel
  exact ⟨m, hm, (time_kept_iff officeTemplate_mem hm htime (by decide) (by decide +kernel)).2
    (Or.inl ⟨'2', by decide⟩)⟩

/-- The words of an office take a time with no digit for more words. -/
theorem time_not_kept : ¬∀ tmpl ∈ ruleTemplates, ∀ s t, NoMark s → TimePhrase tmpl t →
    ∀ m ∈ templateMatches tmpl s, m.groups .time = none → TimeKept tmpl s t m := by
  intro h
  obtain ⟨m, hm, htime⟩ : ∃ m ∈ templateMatches officeTemplate
      "Dana Levi served as Minister of Finance".toList, m.groups .time = none := by decide +kernel
  have hnone : ∀ m' ∈ templateMatches officeTemplate
      "Dana Levi served as Minister of Finance in last term".toList, m'.groups .time = none := by
    decide +kernel
  obtain ⟨m', hm', hkept⟩ := h officeTemplate officeTemplate_mem
    "Dana Levi served as Minister of Finance".toList "last term".toList (by decide) (by decide +kernel) m hm htime
  have htimed : m'.groups .time = some (String.ofList "last term".toList) := (hkept "" "").1
  rw [hnone m' hm'] at htimed
  cases htimed

end CivicProof
