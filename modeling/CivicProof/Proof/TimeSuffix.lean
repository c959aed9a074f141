import CivicProof.Proof.Overlap
import CivicProof.Proof.TimePhrases
import CivicProof.Regex.Extend

/-!
# A time suffix behind a statement

What the templates do with a text behind which a time phrase was put.

* `ReadBack`: the phrase is read back, and in no other way; `readBack_he`, `readBack_en`.
* `ReadBack.back_cases`: from where the end of a template goes on.
-/

namespace CivicProof

open Regex Re

/-! ## The end of a sentence -/

/-- The class `[.?!]`. -/
def isMark (c : Char) : Bool := c == '.' || c == '?' || c == '!'

theorem sentenceEnd_iff {g g' : Caps GroupName} {pre w post : List Char} :
    sentenceEnd.Matches g pre w post g' ↔ ∃ mark r, w = mark ++ r ∧
      ((∃ c, isMark c = true ∧ mark = [c]) ∨ mark = []) ∧ (∀ c ∈ r, isSpace c = true) ∧ post = [] ∧
      g' = g := by
  constructor
  · intro h
    obtain ⟨mark, rest, rfl, hmark, h⟩ := (Plain_set (p := isMark)).opt.cat_iff.1 h
    obtain ⟨r, rest, rfl, hr, hend, rfl, hg⟩ := (Plain_rep (p := isSpace)).cat_iff.1 h
    exact ⟨mark, r, by rw [List.append_nil], hmark, hr.1, List.isEmpty_iff.1 hend, hg⟩
  · rintro ⟨mark, r, rfl, hmark, hr, rfl, rfl⟩
    have hrun : Run isSpace 0 none r := ⟨hr, Nat.zero_le _, fun _ h => absurd h (Option.not_mem_none _)⟩
    refine (Plain_set (p := isMark)).opt.cat_iff.2 ⟨mark, r, rfl, hmark, ?_⟩
    exact (Plain_rep (p := isSpace)).cat_iff.2 ⟨r, [], (List.append_nil r).symm, hrun, rfl, rfl, rfl⟩

/-- A text with no mark at its end but for white space. -/
def NoMark (s : List Char) : Prop := Fenced isMark (s.reverse.dropWhile isSpace)

instance (s : List Char) : Decidable (NoMark s) :=
  inferInstanceAs (Decidable (∀ c ∈ (s.reverse.dropWhile isSpace).head?, isMark c = false))

theorem isMark_not_space {c : Char} (h : isMark c = true) : isSpace c = false := by
  unfold isMark at h
  rw [Bool.or_eq_true, Bool.or_eq_true, beq_iff_eq, beq_iff_eq, beq_iff_eq] at h
  rcases h with (rfl | rfl) | rfl <;> decide

theorem NoMark.not_mark {a r : List Char} {c : Char} (h : NoMark (a ++ c :: r))
    (hr : ∀ d ∈ r, isSpace d = true) : isMark c = false := by
  by_contra hc
  rw [Bool.not_eq_false] at hc
  have hrev : (a ++ c :: r).reverse = r.reverse ++ c :: a.reverse := by simp
  unfold NoMark at h
  rw [hrev, List.dropWhile_append_of_pos fun d hd => hr d (List.mem_reverse.1 hd),
    List.dropWhile_cons_of_neg (by rw [isMark_not_space hc]; exact Bool.false_ne_true)] at h
  rw [h c rfl] at hc
  cases hc

/-- The end of a text without a mark is white space. -/
theorem space_of_sentenceEnd {g g' : Caps GroupName} {pre a w post : List Char}
    (h : sentenceEnd.Matches g pre w post g') (hmark : NoMark (a ++ w)) :
    ∀ c ∈ w, isSpace c = true := by
  obtain ⟨mark, r, rfl, ⟨c, hc, rfl⟩ | rfl, hr, -, -⟩ := sentenceEnd_iff.1 h
  · rw [List.singleton_append] at hmark
    rw [hmark.not_mark hr] at hc
    cases hc
  · exact hr

/-! ## Suffixes -/

/-- A text with a last character that is no white space and no mark. -/
def EndsPlain (y : List Char) : Prop := ∃ y' c, y = y' ++ [c] ∧ isSpace c = false ∧ isMark c = false

theorem EndsPlain.ne_nil {y : List Char} (h : EndsPlain y) : y ≠ [] := by
  obtain ⟨y', c, rfl, -⟩ := h
  simp

/-- No end of a sentence is an end of the text. -/
theorem EndsPlain.eq_nil {g g' : Caps GroupName} {pre y a w post : List Char} (hy : EndsPlain y)
    (h : sentenceEnd.Matches g pre w post g') (heq : ∃ b, b ++ y = a ++ w) : w = [] := by
  obtain ⟨y', c, rfl, hspace, hmark⟩ := hy
  obtain ⟨b, heq⟩ := heq
  obtain ⟨mark, r, rfl, hm, hr, -, -⟩ := sentenceEnd_iff.1 h
  have hlast : ∀ d w', mark ++ r = w' ++ [d] → d = c := by
    intro d w' hw
    rw [hw, ← List.append_assoc, ← List.append_assoc] at heq
    simpa using (List.append_inj' heq rfl).2.symm
  rcases List.eq_nil_or_concat r with rfl | ⟨r', d, rfl⟩
  · rcases hm with ⟨d, hd, rfl⟩ | rfl
    · rw [hlast d [] rfl, hmark] at hd
      cases hd
    · rfl
  · have hd := hr d (by simp)
    rw [hlast d (mark ++ r') (by simp), hspace] at hd
    cases hd

/-- The suffix `y` is read back by the optional time `T` as the phrase `t`, and in no other way. -/
structure ReadBack (T : Pattern) (y t : List Char) : Prop where
  skips : ∀ g pre post, T.Matches g pre [] post g
  takes : ∀ {g g' pre w post}, T.Matches g pre w post g' →
    w = [] ∧ g' = g ∨ w ≠ [] ∧ ∃ τ, g' = Function.update g .time (some τ)
  reads : ∀ g pre r post, (∀ c ∈ r, isSpace c = true) →
    T.Matches g pre (r ++ y) post (Function.update g .time (some t))
  only : ∀ {g g' pre r post}, T.Matches g pre (r ++ y) post g' →
    (∀ c ∈ r, isSpace c = true) ∧ g' = Function.update g .time (some t)
  whole : ∀ {g g' pre a x post}, y = a ++ x → a ≠ [] → x ≠ [] → ¬T.Matches g pre x post g'
  plain : EndsPlain y

/-- What follows the front of a template: a time or none, and the end of the sentence. -/
def back (T : Pattern) : Pattern := cat [T, sentenceEnd]

section

variable {T : Pattern} {y t : List Char} {g g' : Caps GroupName} {pre w post : List Char}

theorem back_iff : (back T).Matches g pre w post g' ↔ ∃ u v g₁, w = u ++ v ∧
    T.Matches g pre u (v ++ post) g₁ ∧ sentenceEnd.Matches g₁ (u.reverse ++ pre) v post g' := Iff.rfl

theorem back_post_eq_nil (h : (back T).Matches g pre w post g') : post = [] := by
  obtain ⟨u, v, g₁, -, -, hend⟩ := back_iff.1 h
  exact sentenceEnd_ends.post_eq_nil hend

variable (hc : ReadBack T y t)

include hc

theorem ReadBack.back_space (g : Caps GroupName) (pre : List Char) {r : List Char}
    (hr : ∀ c ∈ r, isSpace c = true) : (back T).Matches g pre r [] g :=
  ⟨[], r, g, rfl, hc.skips _ _ _, sentenceEnd_iff.2 ⟨[], r, rfl, Or.inr rfl, hr, rfl, rfl⟩⟩

/-- Without a time and a mark, white space follows. -/
theorem ReadBack.space_of_back {a : List Char} (h : (back T).Matches g pre w post g')
    (htime : g' .time = none) (hmark : NoMark (a ++ w)) : (∀ c ∈ w, isSpace c = true) ∧ g' = g := by
  obtain ⟨u, v, g₁, rfl, hT, hend⟩ := back_iff.1 h
  obtain ⟨-, -, -, -, -, -, hg⟩ := sentenceEnd_iff.1 hend
  subst hg
  rcases hc.takes hT with ⟨rfl, rfl⟩ | ⟨-, τ, rfl⟩
  · exact ⟨space_of_sentenceEnd hend hmark, rfl⟩
  · rw [Function.update_self] at htime
    cases htime

theorem ReadBack.back_reads (g : Caps GroupName) (pre : List Char) {r : List Char}
    (hr : ∀ c ∈ r, isSpace c = true) :
    (back T).Matches g pre (r ++ y) [] (Function.update g .time (some t)) :=
  ⟨r ++ y, [], _, (List.append_nil _).symm, hc.reads _ _ _ _ hr,
    sentenceEnd_iff.2 ⟨[], [], rfl, Or.inr rfl, fun _ hc => absurd hc List.not_mem_nil, rfl, rfl⟩⟩

theorem ReadBack.back_only {r : List Char} (h : (back T).Matches g pre (r ++ y) post g') :
    (∀ c ∈ r, isSpace c = true) ∧ g' = Function.update g .time (some t) := by
  obtain ⟨u, v, g₁, heq, hT, hend⟩ := back_iff.1 h
  obtain rfl := hc.plain.eq_nil hend ⟨r, heq⟩
  obtain ⟨-, -, -, -, -, -, rfl⟩ := sentenceEnd_iff.1 hend
  rw [List.append_nil] at heq
  exact hc.only (heq ▸ hT)

theorem ReadBack.back_whole {a : List Char} (heq : y = a ++ w) (ha : a ≠ []) (hw : w ≠ []) :
    ¬(back T).Matches g pre w post g' := by
  intro h
  obtain ⟨u, v, g₁, rfl, hT, hend⟩ := back_iff.1 h
  obtain rfl := hc.plain.eq_nil (a := a ++ u) hend ⟨[], by rw [List.nil_append, heq, List.append_assoc]⟩
  rw [List.append_nil] at heq hw
  exact hc.whole heq ha hw hT

/-- At the end of the text there is no time. -/
theorem ReadBack.back_nil (h : (back T).Matches g pre [] post g') : g' = g := by
  obtain ⟨u, v, g₁, heq, hT, hend⟩ := back_iff.1 h
  obtain ⟨rfl, rfl⟩ := List.append_eq_nil_iff.1 heq.symm
  obtain ⟨-, -, -, -, -, -, rfl⟩ := sentenceEnd_iff.1 hend
  exact ((hc.takes hT).resolve_right fun h => h.1 rfl).2

/-- **What goes on to the end** of the longer text: nothing, or the whole suffix behind white space. -/
theorem ReadBack.back_cases {s : List Char} (hw : w <:+ s ++ y) (h : (back T).Matches g pre w [] g') :
    w = [] ∧ g' = g ∨ ∃ r, w = r ++ y ∧ (∀ c ∈ r, isSpace c = true) ∧
      g' = Function.update g .time (some t) := by
  by_cases hnil : w = []
  · subst hnil
    exact Or.inl ⟨rfl, hc.back_nil h⟩
  · right
    obtain ⟨b, hb⟩ := hw
    rcases List.append_eq_append_iff.1 hb with ⟨r, -, rfl⟩ | ⟨a, -, heq⟩
    · exact ⟨r, rfl, hc.back_only h⟩
    · by_cases ha : a = []
      · subst ha
        rw [List.nil_append] at heq
        subst heq
        exact ⟨[], rfl, hc.back_only (r := []) h⟩
      · exact absurd h (hc.back_whole heq ha hnil)

end

/-! ## The suffixes of the templates -/

/-- A character that can neither end nor part the words of a phrase. -/
def PlainChar (c : Char) : Prop := isSpace c = false ∧ isMark c = false ∧ c ≠ '-'

instance (c : Char) : Decidable (PlainChar c) := inferInstanceAs (Decidable (_ ∧ _))

/-- What a suffix needs of its phrase: no character of the class `p`, and plain characters at both
ends. -/
structure PhraseText (p : Char → Bool) (τ : List Char) : Prop where
  free : ∀ c ∈ τ, p c = false
  front : ∀ c ∈ τ.head?, PlainChar c
  plain : EndsPlain τ

theorem PhraseText.of_parts {p : Char → Bool} {u v w : List Char} (hfree : ∀ c ∈ u ++ w, p c = false)
    (hu : u ≠ []) (hplain : ∀ c ∈ u, PlainChar c) (hv : v ≠ []) (hplain' : ∀ c ∈ v, PlainChar c)
    (heq : ∃ a, u ++ w = a ++ v) : PhraseText p (u ++ w) := by
  refine ⟨hfree, ?_, ?_⟩
  · obtain ⟨c, u, rfl⟩ := List.exists_cons_of_ne_nil hu
    intro d hd
    obtain rfl := Option.some.inj hd
    exact hplain c List.mem_cons_self
  · obtain ⟨a, heq⟩ := heq
    obtain ⟨v, c, rfl⟩ := (List.eq_nil_or_concat v).resolve_left hv
    have hc := hplain' c (by simp)
    exact ⟨a ++ v, c, by rw [heq]; simp, hc.1, hc.2.1⟩

theorem plainChar_of_digit {c : Char} (h : isDigit c = true) : PlainChar c := by
  refine ⟨(isDigit_plain h).1, ?_, (isDigit_plain h).2.2.1⟩
  by_contra hmark
  rw [Bool.not_eq_false, isMark, Bool.or_eq_true, Bool.or_eq_true, beq_iff_eq, beq_iff_eq,
    beq_iff_eq] at hmark
  rcases hmark with (rfl | rfl) | rfl <;> exact absurd h (by decide)

/-- A character that is not plain has no case. -/
theorem foldCase_of_not_plain {c : Char} (h : ¬PlainChar c) : foldCase c = c := by
  unfold PlainChar at h
  rw [not_and_or, not_and_or, Bool.not_eq_false, Bool.not_eq_false, not_not] at h
  rcases h with h | h | rfl
  · exact foldCase_space h
  · rw [isMark, Bool.or_eq_true, Bool.or_eq_true, beq_iff_eq, beq_iff_eq, beq_iff_eq] at h
    rcases h with (rfl | rfl) | rfl <;> decide
  · decide

theorem SameWord.plain {s : String} {w : List Char} (h : SameWord s w)
    (hs : ∀ a ∈ s.toList, PlainChar (foldCase a)) : ∀ c ∈ w, PlainChar c := by
  intro c hc
  by_contra hno
  obtain ⟨a, ha, hfold⟩ := h.letter hc
  have hplain := hs a ha
  rw [← hfold, foldCase_of_not_plain hno] at hplain
  exact hno hplain

theorem SameWord.ne_nil {s : String} {w : List Char} (h : SameWord s w) (hs : s.toList ≠ []) : w ≠ [] := by
  rintro rfl
  exact hs (List.forall₂_nil_right_iff.1 h)

theorem fourDigits_phrase {p : Char → Bool} (hp : ∀ c, isDigit c = true → p c = false) {τ : List Char}
    (h : fourDigits.Has τ) : PhraseText p τ := by
  have hrun : Run isDigit 4 (some 4) τ := h.1
  have hplain : ∀ c ∈ τ, PlainChar c := fun c hc => plainChar_of_digit (hrun.1 c hc)
  have hne : τ ≠ [] := by
    rintro rfl
    exact absurd hrun.2.1 (by decide)
  have hparts := PhraseText.of_parts (p := p) (u := τ) (v := τ) (w := [])
    (fun c hc => hp c (hrun.1 c (by simpa using hc))) hne hplain hne hplain ⟨[], by simp⟩
  rwa [List.append_nil] at hparts

/-- The letter of the Hebrew suffix. -/
def isBet (c : Char) : Bool := c == 'ב'

theorem isBet_of_space {c : Char} (h : isSpace c = true) : isBet c = false := by
  by_contra hc
  rw [Bool.not_eq_false, isBet, beq_iff_eq] at hc
  subst hc
  exact absurd h (by decide)

theorem isBet_of_digit {c : Char} (h : isDigit c = true) : isBet c = false := by
  by_contra hc
  rw [Bool.not_eq_false, isBet, beq_iff_eq] at hc
  subst hc
  exact absurd h (by decide)

theorem forall_append {P : Char → Prop} {u v : List Char} (hu : ∀ c ∈ u, P c) (hv : ∀ c ∈ v, P c) :
    ∀ c ∈ u ++ v, P c := fun c hc => (List.mem_append.1 hc).elim (hu c) (hv c)

theorem heTerm_phrase {τ : List Char} (h : (cat [he "הקדנציה", opt (cat [sp, he "הקודמת"])]).Has τ) :
    PhraseText isBet τ := by
  obtain ⟨term, rest, rfl, rfl, h⟩ := (plain_he "הקדנציה").cat_iff.1 h
  rcases h with h | ⟨rfl, -⟩
  · obtain ⟨s, last, rfl, hs, h⟩ := plain_sp.cat_iff.1 h
    obtain ⟨rfl, -⟩ := (plain_he "הקודמת" ..).1 h
    refine .of_parts (v := "הקודמת".toList) ?_ (by decide) (by decide) (by decide) (by decide)
      ⟨_, (List.append_assoc ..).symm⟩
    exact forall_append (by decide) (forall_append (fun c hc => isBet_of_space (hs.1 c hc)) (by decide))
  · exact .of_parts (v := "הקדנציה".toList) (by decide) (by decide) (by decide) (by decide) (by decide)
      ⟨[], by simp⟩

theorem heKnesset_phrase {τ : List Char} (h : heKnesset.Has τ) : PhraseText isBet τ := by
  obtain ⟨kn, rest, rfl, rfl, h⟩ := (plain_he "כנסת").cat_iff.1 h
  rcases h with h | ⟨rfl, -⟩
  · obtain ⟨s, rest, rfl, hs, h⟩ := plain_sp.cat_iff.1 h
    obtain ⟨prefixed, rest, rfl, rfl, h⟩ := (plain_he "ה").cat_iff.1 h
    obtain ⟨hyphen, ds, rfl, hhyphen, hds, -⟩ := (plain_he "-").opt.cat_iff.1 h
    refine .of_parts (v := ds) ?_ (by decide) (by decide) ?_ (fun c hc => plainChar_of_digit (hds.1 c hc))
      ⟨"כנסת".toList ++ (s ++ ("ה".toList ++ hyphen)), by simp⟩
    · refine forall_append (by decide) (forall_append (fun c hc => isBet_of_space (hs.1 c hc)) ?_)
      refine forall_append (by decide) (forall_append ?_ fun c hc => isBet_of_digit (hds.1 c hc))
      rcases hhyphen with rfl | rfl <;> decide
    · rintro rfl
      exact absurd hds.2.1 (by decide)
  · exact .of_parts (v := "כנסת".toList) (by decide) (by decide) (by decide) (by decide) (by decide)
      ⟨[], by simp⟩

/-- The letter of the English suffix, in any case. -/
def isLetterI (c : Char) : Bool := foldCase c == 'i'

theorem isLetterI_of_space {c : Char} (h : isSpace c = true) : isLetterI c = false := by
  rw [isLetterI, foldCase_space h]
  by_contra hc
  rw [Bool.not_eq_false, beq_iff_eq] at hc
  subst hc
  exact absurd h (by decide)

theorem isLetterI_of_digit {c : Char} (h : isDigit c = true) : isLetterI c = false := by
  rw [isLetterI, foldCase_digit h]
  by_contra hc
  rw [Bool.not_eq_false, beq_iff_eq] at hc
  subst hc
  exact absurd h (by decide)

theorem SameWord.no_i {s : String} {w : List Char} (h : SameWord s w)
    (hs : ∀ a ∈ s.toList, isLetterI a = false) : ∀ c ∈ w, isLetterI c = false := by
  intro c hc
  obtain ⟨a, ha, hfold⟩ := h.letter hc
  rw [isLetterI, hfold]
  exact hs a ha

section

variable {ci : Bool} {τ : List Char}

theorem enTerm_phrase (h : (cat [en ci "last", sp, en ci "term"]).Has τ) : PhraseText isLetterI τ := by
  obtain ⟨last, rest, rfl, hlast, h⟩ := (plain_en ci "last").cat_iff.1 h
  obtain ⟨s, term, rfl, hs, h⟩ := plain_sp.cat_iff.1 h
  obtain ⟨hterm, -⟩ := (plain_en ci "term" ..).1 h
  have hlast := sameWord_of_lit hlast
  have hterm := sameWord_of_lit hterm
  refine .of_parts (v := term) ?_ (hlast.ne_nil (by decide)) (hlast.plain (by decide))
    (hterm.ne_nil (by decide)) (hterm.plain (by decide)) ⟨_, (List.append_assoc ..).symm⟩
  exact forall_append (hlast.no_i (by decide)) (forall_append
    (fun c hc => isLetterI_of_space (hs.1 c hc)) (hterm.no_i (by decide)))

theorem enKnesset_phrase (h : (cat [en ci "the", sp, .rep isDigit 1 none true,
    any [en ci "st", en ci "nd", en ci "rd", en ci "th"], sp, en ci "Knesset"]).Has τ) :
    PhraseText isLetterI τ := by
  obtain ⟨the, rest, rfl, hthe, h⟩ := (plain_en ci "the").cat_iff.1 h
  obtain ⟨s, rest, rfl, hs, h⟩ := plain_sp.cat_iff.1 h
  obtain ⟨ds, rest, rfl, hds, h⟩ := (Plain_rep (p := isDigit)).cat_iff.1 h
  obtain ⟨suffix, rest, rfl, ⟨ordinal, hmem, hsuffix⟩, h⟩ :=
    (Plain_any (plain_en ci) (l := ["st", "nd", "rd", "th"])).cat_iff.1 h
  obtain ⟨s', kn, rfl, hs', h⟩ := plain_sp.cat_iff.1 h
  obtain ⟨hkn, -⟩ := (plain_en ci "Knesset" ..).1 h
  have hthe := sameWord_of_lit hthe
  have hkn := sameWord_of_lit hkn
  have hordinal : ∀ s ∈ ["st", "nd", "rd", "th"], ∀ a ∈ s.toList, isLetterI a = false := by decide
  refine .of_parts (v := kn) ?_ (hthe.ne_nil (by decide)) (hthe.plain (by decide))
    (hkn.ne_nil (by decide)) (hkn.plain (by decide)) ⟨the ++ (s ++ (ds ++ (suffix ++ s'))), by simp⟩
  refine forall_append (hthe.no_i (by decide)) (forall_append
    (fun c hc => isLetterI_of_space (hs.1 c hc)) (forall_append
    (fun c hc => isLetterI_of_digit (hds.1 c hc)) (forall_append
    ((sameWord_of_lit hsuffix).no_i (hordinal ordinal hmem)) (forall_append
    (fun c hc => isLetterI_of_space (hs'.1 c hc)) (hkn.no_i (by decide))))))

end

/-- **A suffix is read back**: white space, a word with the only character of the class `p`, what may
stand behind that word, and the phrase. -/
theorem readBack_of {b c a : Pattern} {B C : List Char → Prop} {p : Char → Bool} {d : Char}
    {y t : List Char} (hb : b.Plain B) (hc : c.Plain C) (ha : a.bare = true)
    (hB : ∀ w, B w → ∃ e w', w = e :: w' ∧ p e = true ∧ ∀ x ∈ w', p x = false)
    (hC : ∀ w, C w → ∀ x ∈ w, p x = false) (hA : ∀ τ, a.Has τ → PhraseText p τ)
    (hspace : ∀ x, isSpace x = true → p x = false) (hd : p d = true) (hy : ∀ x ∈ y, p x = false)
    (ht : a.Has t) (hread : ∃ w v, y = w ++ v ∧ B (d :: w) ∧ C v)
    (hsame : ∀ w v τ, B (d :: w) → C v → PhraseText p τ → w ++ (v ++ τ) = y ++ t → τ = t) :
    ReadBack (opt (cat [sp, b, c, .group .time a])) (' ' :: d :: (y ++ t)) t := by
  have hform : ∀ {g g' : Caps GroupName} {pre w post : List Char},
      (opt (cat [sp, b, c, .group .time a])).Matches g pre w post g' ↔
        (∃ s u v τ, w = s ++ (u ++ (v ++ τ)) ∧ Run isSpace 1 none s ∧ B u ∧ C v ∧ a.Has τ ∧
          g' = Function.update g .time (some τ)) ∨ w = [] ∧ g' = g := by
    intro g g' pre w post
    refine or_congr_left ?_
    constructor
    · intro h
      obtain ⟨s, rest, rfl, hs, h⟩ := plain_sp.cat_iff.1 h
      obtain ⟨u, rest, rfl, hu, h⟩ := hb.cat_iff.1 h
      obtain ⟨v, τ, rfl, hv, g₁, hphrase, hg⟩ := hc.cat_iff.1 h
      obtain ⟨hτ, rfl⟩ := (plain_of_bare ha ..).1 hphrase
      exact ⟨s, u, v, τ, rfl, hs, hu, hv, hτ, hg⟩
    · rintro ⟨s, u, v, τ, rfl, hs, hu, hv, hτ, rfl⟩
      refine plain_sp.cat_iff.2 ⟨s, _, rfl, hs, hb.cat_iff.2 ⟨u, _, rfl, hu, hc.cat_iff.2
        ⟨v, τ, rfl, hv, g, (plain_of_bare ha ..).2 ⟨hτ, rfl⟩, rfl⟩⟩⟩
  have hyt : ∀ x ∈ y ++ t, p x = false := forall_append hy (hA t ht).free
  have hclash : ∀ {x : Char}, p x = true → p x = false → False := fun h h' => by
    rw [h] at h'
    cases h'
  -- the character of the class stands in one place
  have hplace : ∀ {q s : List Char} {e : Char} {w' v τ : List Char}, (∀ x ∈ s, isSpace x = true) →
      p e = true → (∀ x ∈ w', p x = false) → C v → a.Has τ →
      q ++ d :: (y ++ t) = s ++ (e :: w' ++ (v ++ τ)) → q = s ∧ d = e ∧ y ++ t = w' ++ (v ++ τ) := by
    intro q s e w' v τ hs he hw' hv hτ heq
    rw [List.cons_append] at heq
    rcases List.append_eq_append_iff.1 heq with ⟨z, rfl, hz⟩ | ⟨z, rfl, hz⟩
    · cases z with
      | nil =>
        obtain ⟨rfl, htail⟩ := List.cons_eq_cons.1 hz
        exact ⟨(List.append_nil q).symm, rfl, htail⟩
      | cons x z =>
        obtain ⟨rfl, -⟩ := List.cons_eq_cons.1 hz
        exact (hclash hd (hspace d (hs d (by simp)))).elim
    · cases z with
      | nil =>
        obtain ⟨rfl, htail⟩ := List.cons_eq_cons.1 hz
        exact ⟨List.append_nil s, rfl, htail.symm⟩
      | cons x z =>
        obtain ⟨rfl, htail⟩ := List.cons_eq_cons.1 hz
        have hmem : d ∈ w' ++ (v ++ τ) := by
          rw [htail]
          exact List.mem_append_right z List.mem_cons_self
        exact (hclash hd (forall_append hw' (forall_append (hC v hv) (hA τ hτ).free) d hmem)).elim
  refine ⟨fun g pre post => hform.2 (Or.inr ⟨rfl, rfl⟩), fun h => ?_, ?_, ?_, ?_, ?_⟩
  · rcases hform.1 h with ⟨s, u, v, τ, rfl, hs, -, -, -, hg⟩ | h
    · refine Or.inr ⟨fun hnil => ?_, τ, hg⟩
      obtain ⟨rfl, -⟩ := List.append_eq_nil_iff.1 hnil
      exact absurd hs.2.1 (by decide)
    · exact Or.inl h
  · intro g pre r post hr
    obtain ⟨w, v, rfl, hw, hv⟩ := hread
    refine hform.2 (Or.inl ⟨r ++ [' '], d :: w, v, t, by simp, ⟨?_, by simp, by simp⟩, hw, hv, ht, rfl⟩)
    exact forall_append hr (by decide)
  · intro g g' pre r post h
    rcases hform.1 h with ⟨s, u, v, τ, heq, hs, hu, hv, hτ, rfl⟩ | ⟨hnil, -⟩
    · obtain ⟨e, w', rfl, he, hw'⟩ := hB u hu
      obtain ⟨rfl, rfl, htail⟩ := hplace (q := r ++ [' ']) hs.1 he hw' hv hτ (by rw [← heq]; simp)
      rw [hsame w' v τ hu hv (hA τ hτ) htail.symm]
      exact ⟨fun c hc => hs.1 c (List.mem_append_left _ hc), rfl⟩
    · simp at hnil
  · intro g g' pre q x post heq hq hx h
    rcases hform.1 h with ⟨s, u, v, τ, rfl, hs, hu, hv, hτ, -⟩ | ⟨hnil, -⟩
    · obtain ⟨e, w', rfl, he, hw'⟩ := hB u hu
      have hlen : 2 ≤ (q ++ s).length := by
        have hpos := List.length_pos_of_ne_nil hq
        have hs' := hs.2.1
        rw [List.length_append]
        omega
      rw [← List.append_assoc] at heq
      rcases List.append_eq_append_iff.1 (show [' '] ++ d :: (y ++ t) = _ from heq) with
        ⟨z, hz, htail⟩ | ⟨z, hz, -⟩
      · cases z with
        | nil =>
          rw [hz] at hlen
          exact absurd hlen (by decide)
        | cons x z =>
          obtain ⟨-, htail⟩ := List.cons_eq_cons.1 htail
          exact hclash he (hyt e (by rw [htail]; simp))
      · have hlen' := congrArg List.length hz
        rw [List.length_append, List.length_singleton] at hlen'
        omega
    · exact hx hnil
  · obtain ⟨t', c, rfl, hc⟩ := (hA t ht).plain
    exact ⟨' ' :: d :: (y ++ t'), c, by simp, hc⟩


/-! ### The two languages -/

/-- The suffix that says when, in the language of a statement. -/
def timeSuffix : Language → List Char → List Char
  | .he, t => " ב".toList ++ t
  | .en, t => " in ".toList ++ t

/-- **The Hebrew suffix.** -/
theorem readBack_he {alts : List Pattern} {t : List Char} (halts : (any alts).bare = true)
    (hphrase : ∀ τ, (any alts).Has τ → PhraseText isBet τ) (ht : (any alts).Has t) :
    ReadBack (heTime alts) (timeSuffix .he t) t := by
  refine readBack_of (y := []) (plain_he "ב") (plain_he "-").opt halts ?_ ?_ hphrase
    (fun x => isBet_of_space) rfl (fun x hx => absurd hx List.not_mem_nil) ht
    ⟨[], [], rfl, rfl, Or.inr rfl⟩ ?_
  · rintro w rfl
    exact ⟨'ב', [], rfl, rfl, fun x hx => absurd hx List.not_mem_nil⟩
  · rintro w (rfl | rfl) <;> decide
  · rintro w v τ hw hv - heq
    obtain ⟨-, rfl⟩ := List.cons_eq_cons.1 (show 'ב' :: w = ['ב'] from hw)
    rcases hv with rfl | rfl
    · -- no phrase begins with a hyphen
      have hfront := (hphrase t ht).front '-' (by rw [← List.nil_append t, ← heq]; rfl)
      exact absurd hfront (by decide)
    · exact heq

/-- **The English suffix.** -/
theorem readBack_en {ci : Bool} {t : List Char} (hphrase : ∀ τ, (any (enTimeAlts ci)).Has τ →
    PhraseText isLetterI τ) (ht : (any (enTimeAlts ci)).Has t) :
    ReadBack (enTimeSuffix ci) (timeSuffix .en t) t := by
  have hin : ∀ d : Char, d = 'i' → List.Forall₂ (fun a c => charEq ci a c = true) "in".toList [d, 'n'] := by
    rintro d rfl
    exact .cons (by cases ci <;> decide) (.cons (by cases ci <;> decide) .nil)
  refine readBack_of (y := ['n', ' ']) (plain_en ci "in") plain_sp (by cases ci <;> decide) ?_ ?_ hphrase
    (fun x => isLetterI_of_space) (by decide) (by decide) ht
    ⟨['n'], [' '], rfl, hin 'i' rfl, ⟨by decide, by decide, by simp⟩⟩ ?_
  · intro w hw
    cases hw with
    | @cons _ e _ w' he hw' =>
      refine ⟨e, w', rfl, ?_, ?_⟩
      · have hfold := charEq_mono he
        rw [charEq, if_pos rfl, beq_iff_eq] at hfold
        rw [isLetterI, hfold]
        decide
      · cases hw' with
        | @cons _ f _ w' hf hnil =>
          cases hnil
          intro x hx
          obtain rfl := List.mem_singleton.1 hx
          have hfold := charEq_mono hf
          rw [charEq, if_pos rfl, beq_iff_eq] at hfold
          rw [isLetterI, hfold]
          decide
  · exact fun w hw x hx => isLetterI_of_space (hw.1 x hx)
  · intro w v τ hw hv hτ heq
    have hlen := hw.length_eq
    obtain ⟨f, rfl⟩ : ∃ f, w = [f] := List.length_eq_one_iff.1 (by simpa using hlen.symm)
    obtain ⟨-, htail⟩ := List.cons_eq_cons.1 (show f :: (v ++ τ) = 'n' :: ([' '] ++ t) from heq)
    have hfence : ∀ {τ}, PhraseText isLetterI τ → Fenced isSpace τ := fun h c hc => (h.front c hc).1
    exact (spaces_inj hv.1 (by decide) (hfence hτ) (hfence (hphrase t ht)) htail).2

end CivicProof
