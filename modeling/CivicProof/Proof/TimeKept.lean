import CivicProof.Proof.Numerals
import CivicProof.Proof.TimeAhead

/-!
# Time suffixes of statements

The matches of one template (`templateMatches`), the phrases of its time grammar (`TimePhrase`), and
what it is for a suffix to leave the other slots alone (`TimeKept`).

* `kept_iff`: it does unless a way that is tried before takes the suffix in.
* `kept_of_last`: so it does for a template that ends in a word that no phrase ends in.
-/

namespace CivicProof

open Regex Re

/-! ## The law -/

/-- The matches of one template, as `iter_matches` yields them. -/
def templateMatches (tmpl : RuleTemplate) (statement : List Char) : List RuleMatch :=
  (tmpl.pattern.finditer statement).map fun m =>
    ⟨tmpl, fun n => (m.groups n).map String.ofList, m.start, m.stop⟩

theorem iterMatches_eq_templates (statement : List Char) (language : Language) :
    iterMatches statement language =
      (ruleTemplates.filter (·.language = language)).flatMap (templateMatches · statement) := rfl

/-- A phrase of the time grammar of a template. -/
def TimePhrase (tmpl : RuleTemplate) (t : List Char) : Prop :=
  ∃ a ∈ tmpl.pattern.bodies .time, a.Has t

/-- **The time suffix does not leak**: the template matches the statement with the suffix behind it, the
claim has the phrase as its time, and its slots are those of the claim without it. -/
def TimeKept (tmpl : RuleTemplate) (s t : List Char) (m : RuleMatch) : Prop :=
  ∃ m' ∈ templateMatches tmpl (s ++ timeSuffix tmpl.language t), ∀ claimId claimId',
    (ruleMatchToClaim claimId' m' (s ++ timeSuffix tmpl.language t)).timePhrase =
        some (String.ofList t) ∧
      (ruleMatchToClaim claimId' m' (s ++ timeSuffix tmpl.language t)).slots =
        (ruleMatchToClaim claimId m s).slots

/-- A match of a template with a time, as a match of its pattern. -/
def ofMatch (tmpl : RuleTemplate) (m : Match GroupName) : RuleMatch :=
  ⟨tmpl, fun n => (m.groups n).map String.ofList, m.start, m.stop⟩

section

variable {tmpl : RuleTemplate} {l l' : List Pattern} {T : Pattern} {s t y : List Char}
  {m : Match GroupName} {m' : RuleMatch}

theorem timed_not_decision (ht : tmpl ∈ ruleTemplates) (hphrase : TimePhrase tmpl t) : ¬tmpl.Decision := by
  obtain ⟨a, ha, -⟩ := hphrase
  intro hd
  have hnone : ∀ t ∈ ruleTemplates, t.Decision → t.pattern.bodies .time = [] := by
    unfold ruleTemplates RuleTemplate.Decision
    simp only [List.forall_mem_cons]
    refine ⟨?_, ?_, ?_, ?_, ?_, ?_, ?_, ?_, ?_, ?_, ?_, ?_, ?_, ?_, fun _ => rfl, fun _ => rfl, fun _ => rfl,
      fun t ht => absurd ht List.not_mem_nil⟩ <;> exact fun h => absurd h (by decide)
  rw [hnone tmpl ht hd] at ha
  cases ha

theorem templateMatches_eq (ht : tmpl ∈ ruleTemplates) (hphrase : TimePhrase tmpl t) (s : List Char) :
    templateMatches tmpl s = ((tmpl.pattern.search s).map (ofMatch tmpl)).toList := by
  unfold templateMatches
  rw [finditer_of_ends (anchored_ends tmpl ht (timed_not_decision ht hphrase)) (templates_need tmpl ht)]
  cases tmpl.pattern.search s <;> rfl

/-- The slots of a claim do not depend on the time group. -/
theorem slots_update {claimId claimId' : String} {m m' : Match GroupName} {τ s s' : List Char}
    (h : m'.groups = Function.update m.groups .time (some τ)) :
    (ruleMatchToClaim claimId' (ofMatch tmpl m') s').slots =
      (ruleMatchToClaim claimId (ofMatch tmpl m) s).slots := by
  have hgroup : ∀ n, n ≠ GroupName.time → m'.groups n = m.groups n := by
    intro n hn
    rw [h, Function.update_of_ne hn]
  funext slot
  cases slot with
  | expectPassedThreshold => rfl
  | _ => simp [ruleMatchToClaim, ofMatch, hgroup]

/-- **The law for one template**, from what its front can take in. -/
theorem kept_iff {C : Prop} (ht : tmpl ∈ ruleTemplates) (hphrase : TimePhrase tmpl t)
    (hpattern : tmpl.pattern = cat (l ++ l' ++ [T, sentenceEnd])) (hF : Untimed l l')
    (hT : ReadBack T (timeSuffix tmpl.language t) t) (hm : tmpl.pattern.search s = some m)
    (htime : m.groups .time = none) (hmark : NoMark s)
    (hC : ∀ (P : Located l l' T s m) (K : P.lead.Longer (timeSuffix tmpl.language t)),
      (C → ¬K.Absorbed ∧ ∀ u v, s = u ++ v → u.length < P.before.length →
        ∀ g, ¬(cat (l ++ l')).Matches (fun _ => none) u.reverse
          (v ++ timeSuffix tmpl.language t) [] g) ∧ (¬C → K.Absorbed)) :
    TimeKept tmpl s t (ofMatch tmpl m) ↔ C := by
  rw [hpattern] at hm
  obtain ⟨P⟩ := exists_located hT hm htime hmark
  obtain ⟨K⟩ := P.lead.exists_longer hF.blind hF.blind' (timeSuffix tmpl.language t)
  obtain ⟨hkept, hlost⟩ := hC P K
  unfold TimeKept
  rw [templateMatches_eq ht hphrase, hpattern]
  constructor
  · rintro ⟨m', hm', hclaim⟩
    rw [Option.mem_toList, Option.map_eq_some_iff] at hm'
    obtain ⟨x, hx, rfl⟩ := hm'
    by_contra hno
    have hnone := P.lost hT hF K (hlost hno) hx
    have hphrase := (hclaim "" "").1
    simp [ruleMatchToClaim, ofMatch, hnone] at hphrase
  · intro hC'
    obtain ⟨hno, hleft⟩ := hkept hC'
    obtain ⟨x, hx, hgroups⟩ := P.kept hT hF K hno hleft
    refine ⟨ofMatch tmpl x, ?_, fun claimId claimId' => ⟨?_, slots_update hgroups⟩⟩
    · rw [hx]
      exact List.mem_singleton_self _
    · simp [ruleMatchToClaim, ofMatch, hgroups]

/-- What takes the suffix in is a match of the whole front up to the end of the text. -/
theorem Lead.Longer.Absorbed.exists_match {pre post : List Char} {L : Lead l l' pre post}
    {K : L.Longer y} (h : K.Absorbed) :
    ∃ g, (cat (l ++ l')).Matches (fun _ => none) pre (post ++ y) [] g := by
  have hway : ∃ x ∈ (cat (l ++ l')).ways Place.part (fun _ => none) pre (post ++ y), x.post = [] := by
    rw [ways_append, K.head_eq]
    rcases h with ⟨h, hh, x, hx, hnil⟩ | ⟨x, hx, hnil⟩
    · exact ⟨x, List.mem_flatMap.2 ⟨h, List.mem_append_left _ hh, hx⟩, hnil⟩
    · refine ⟨x, List.mem_flatMap.2 ⟨L.head.ahead y, List.mem_append_right _ List.mem_cons_self, ?_⟩, hnil⟩
      have hfrom : x ∈ waysFrom l' (L.head.ahead y) := by
        rw [K.rest_eq]
        exact List.mem_append_left _ hx
      exact hfrom
  obtain ⟨x, hx, hnil⟩ := hway
  obtain ⟨w, hpost, -, hm⟩ := ways_matches hx
  rw [hnil, List.append_nil] at hpost
  rw [hnil] at hm
  exact ⟨_, hpost ▸ hm⟩

/-- A front that never ends as the suffix does loses nothing. -/
theorem kept_of_closed (ht : tmpl ∈ ruleTemplates) (hphrase : TimePhrase tmpl t)
    (hpattern : tmpl.pattern = cat (l ++ l' ++ [T, sentenceEnd])) (hF : Untimed l l')
    (hT : ReadBack T (timeSuffix tmpl.language t) t) (hm : tmpl.pattern.search s = some m)
    (htime : m.groups .time = none) (hmark : NoMark s)
    (hclosed : ∀ v pre g, ¬(cat (l ++ l')).Matches (fun _ => none) pre
      (v ++ timeSuffix tmpl.language t) [] g) :
    TimeKept tmpl s t (ofMatch tmpl m) := by
  refine (kept_iff (C := True) ht hphrase hpattern hF hT hm htime hmark fun P K => ⟨fun _ => ?_, ?_⟩).2
    trivial
  · refine ⟨fun habs => ?_, fun u v _ _ g hg => hclosed v _ g hg⟩
    obtain ⟨g, hg⟩ := habs.exists_match
    exact hclosed _ _ g hg
  · exact fun h => absurd trivial h

/-- No earlier part of the statement is read by the front up to white space. -/
theorem Located.no_earlier (hT : ReadBack T y t) (P : Located l l' T s m) {u q r : List Char}
    {g : Caps GroupName} (hs : s = u ++ (q ++ r)) (hlt : u.length < P.before.length)
    (hr : ∀ c ∈ r, isSpace c = true) : ¬(cat (l ++ l')).Matches (fun _ => none) u.reverse q r g := by
  intro h
  have hwhole : (cat (l ++ l' ++ [T, sentenceEnd])).Matches (fun _ => none) u.reverse (q ++ r) [] g :=
    Matches_append.2 ⟨q, r, g, rfl, by rwa [List.append_nil], hT.back_space _ _ hr⟩
  have hsome := matchAt_complete hwhole
  rw [List.append_nil, P.left u _ hs hlt] at hsome
  cases hsome

/-- From a way tried before, the front goes nowhere up to white space. -/
theorem Lead.no_clean {pre post : List Char} (L : Lead l l' pre post) {h : FrontWay} (hh : h ∈ L.heads)
    {q r : List Char} {g : Caps GroupName} (hpost : h.post = q ++ r) (hr : ∀ c ∈ r, isSpace c = true) :
    ¬(cat l').Matches h.groups h.pre q r g := by
  intro hm
  have hmem := mem_ways hm
  rw [← hpost] at hmem
  exact L.no_head h hh _ hmem hr

/-! ## Templates that end in a word of their own -/

/-- How a time phrase ends: in a digit, or in one of some letters. -/
def PhraseEnd (letters : List Char) (c : Char) : Prop := isDigit c = true ∨ foldCase c ∈ letters

/-- A word takes some text. -/
theorem word_needs {ci : Bool} {word : String} (h : word.toList ≠ []) : (en ci word).Needs fun _ => True := by
  obtain ⟨a, l, hl⟩ := List.exists_cons_of_ne_nil h
  exact Needs_lit.2 ⟨a, by rw [hl]; exact List.mem_cons_self, fun _ _ => trivial⟩

theorem last_phrase (ci : Bool) {w : List Char} {word : String} {a : Char} {letters : List Char}
    (hword : word.toList = w ++ [a]) (ha : foldCase a ∈ letters) : (en ci word).Last (PhraseEnd letters) := by
  refine Last_lit hword fun c hc => Or.inr ?_
  rwa [beq_iff_eq.1 (charEq_mono hc)]

theorem last_other (ci : Bool) {w : List Char} {word : String} {a : Char} {letters : List Char}
    (hword : word.toList = w ++ [a]) (ha : isDigit (foldCase a) = false ∧ foldCase a ∉ letters) :
    (en ci word).Last fun c => ¬PhraseEnd letters c := by
  refine Last_lit hword fun c hc => ?_
  have hfold : foldCase c = foldCase a := beq_iff_eq.1 (charEq_mono hc)
  rintro (hd | hmem)
  · rw [← hfold, foldCase_digit hd, hd] at ha
    exact Bool.noConfusion ha.1
  · exact ha.2 (hfold ▸ hmem)

theorem fourDigits_last {letters : List Char} : fourDigits.Last (PhraseEnd letters) :=
  fun _ hc => Or.inl hc

theorem heKnesset_last {letters : List Char} (h : 'ת' ∈ letters) : heKnesset.Last (PhraseEnd letters) := by
  refine ⟨⟨?_, trivial⟩, Or.inl (last_phrase false (w := ['כ', 'נ', 'ס']) rfl h)⟩
  exact Last_append (l := [sp, he "ה", opt (he "-")]) (fun _ hc => Or.inl hc) ⟨Nat.one_pos, fun _ _ => trivial⟩

theorem heShortAlts_last : (any [fourDigits, heKnesset]).Last (PhraseEnd ['ת']) :=
  Last_any.2 (List.forall_mem_cons.2 ⟨fourDigits_last, List.forall_mem_singleton.2
    (heKnesset_last List.mem_cons_self)⟩)

theorem heTimeAlts_last : (any heTimeAlts).Last (PhraseEnd ['ה', 'ת']) := by
  refine Last_any.2 (List.forall_mem_cons.2 ⟨fourDigits_last, List.forall_mem_cons.2 ⟨⟨⟨?_, trivial⟩, ?_⟩,
    List.forall_mem_cons.2 ⟨heKnesset_last (by decide), fun _ h => absurd h List.not_mem_nil⟩⟩⟩)
  · exact Last_append (l := [sp]) (last_phrase false (w := "הקודמ".toList) rfl (by decide))
      (word_needs (by decide))
  · exact Or.inl (last_phrase false (w := "הקדנצי".toList) rfl (by decide))

theorem enTimeAlts_last {ci : Bool} : (any (enTimeAlts ci)).Last (PhraseEnd ['t', 'm']) := by
  refine Last_any.2 (List.forall_mem_cons.2 ⟨fourDigits_last, List.forall_mem_cons.2 ⟨?_,
    List.forall_mem_cons.2 ⟨?_, fun _ h => absurd h List.not_mem_nil⟩⟩⟩)
  · exact Last_append (l := [_, _, _, _, _]) (last_phrase ci (w := "Knesse".toList) rfl (by decide))
      (word_needs (by decide))
  · exact Last_append (l := [_, _]) (last_phrase ci (w := "ter".toList) rfl (by decide))
      (word_needs (by decide))

/-- **A front that ends in a word of its own**, with another last letter than any time phrase. -/
theorem kept_of_last {a phrase : Pattern} {letters : List Char} {p : Char → Bool}
    (ht : tmpl ∈ ruleTemplates) (hphrase : TimePhrase tmpl t)
    (hpattern : tmpl.pattern = cat (l ++ [a] ++ [] ++ [T, sentenceEnd])) (hF : Untimed (l ++ [a]) [])
    (hT : ReadBack T (timeSuffix tmpl.language t) t) (hm : tmpl.pattern.search s = some m)
    (htime : m.groups .time = none) (hmark : NoMark s) (hlast : a.Last fun c => ¬PhraseEnd letters c)
    (hne : a.Needs fun _ => True) (hhas : phrase.Has t) (hend : phrase.Last (PhraseEnd letters))
    (htext : PhraseText p t) : TimeKept tmpl s t (ofMatch tmpl m) := by
  refine kept_of_closed ht hphrase hpattern hF hT hm htime hmark fun v pre g hg => ?_
  obtain ⟨t', c, rfl, -⟩ := htext.plain
  have hc : PhraseEnd letters c := hend.concat hhas
  have hy : ∃ y', v ++ timeSuffix tmpl.language (t' ++ [c]) = y' ++ [c] := by
    cases tmpl.language
    · exact ⟨v ++ (" ב".toList ++ t'), by simp [timeSuffix]⟩
    · exact ⟨v ++ (" in ".toList ++ t'), by simp [timeSuffix]⟩
  obtain ⟨y', hy⟩ := hy
  rw [hy, List.append_nil] at hg
  exact (Last_append hlast hne).concat hg hc

end

end CivicProof
