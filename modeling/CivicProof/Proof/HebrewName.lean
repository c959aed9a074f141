import CivicProof.Normal.Words
import CivicProof.Spec.Resolve

/-!
# Hebrew names

`normalize_hebrew` strips niqqud before it composes, so a presentation form brings its points
back (`U+FB2A` is a shin with its dot).

* `UnicodeData.normalizeHebrew_eq`: the normalised name, word by word.
* `UnicodeData.normalizeHebrew_bare`: points come from presentation forms only.
* `normalizeHebrew_law_iff`: the normal form laws hold exactly on texts without them.
-/

namespace CivicProof

open CivicProof.Normal

/-- The points and accents that `normalize_hebrew` strips. -/
def isNiqqud (ch : Char) : Bool := 0x591 ≤ ch.toNat && ch.toNat ≤ 0x5C7

/-- A text without its points. -/
def unpointed (s : String) : List Char := s.toList.filter fun ch => !isNiqqud ch

/-- The Unicode database, as far as names depend on it: NFC is canonical composition, white space
and points take part in no composite. -/
structure UnicodeData (U : Unicode) (D : Charset Char) : Prop where
  nfc : ∀ s, (U.nfc s).toList = D.nfc s.toList
  space : Separates D isSpace
  blank : D.decomp ' ' = [' ']
  niqqud : ∀ c, isNiqqud c = true →
    D.decomp c = [c] ∧ (∀ b, D.pair c b = none) ∧ ∀ a, D.pair a c = none

/-- No character that brings points with it: no presentation form of a pointed letter. -/
def Unpresented (D : Charset Char) (s : String) : Prop :=
  ∀ c ∈ s.toList, isNiqqud c = true ∨ ∀ d ∈ D.decomp c, isNiqqud d = false

/-- Canonically equivalent texts. -/
def CanonicallyEquivalent (D : Charset Char) (s t : String) : Prop :=
  D.nfd s.toList = D.nfd t.toList

/-- Texts that differ only in niqqud and in white space. -/
def SameLetters (s t : String) : Prop :=
  words isSpace (unpointed s) = words isSpace (unpointed t)

/-- The normal form of one name. -/
structure NormalForm (U : Unicode) (D : Charset Char) (s : String) : Prop where
  again : normalizeHebrew U (normalizeHebrew U s) = normalizeHebrew U s
  bare : ∀ c ∈ (normalizeHebrew U s).toList, isNiqqud c = false
  tidy : Tidy isSpace (normalizeHebrew U s).toList
  composed : D.nfc (normalizeHebrew U s).toList = (normalizeHebrew U s).toList

/-- The laws of `normalize_hebrew`, on two names. -/
structure NormalFormLaw (U : Unicode) (D : Charset Char) (s t : String) : Prop where
  left : NormalForm U D s
  right : NormalForm U D t
  same : CanonicallyEquivalent D s t ∨ SameLetters s t → normalizeHebrew U s = normalizeHebrew U t

/-! ## Word by word -/

theorem joinWith_toList (ws : List (List Char)) :
    (joinWith " " (ws.map String.ofList)).toList = joined ' ' ws := by
  induction ws with
  | nil => rfl
  | cons w ws ih =>
    by_cases hne : ws = []
    · subst hne
      exact String.toList_ofList
    · obtain ⟨w', ws', rfl⟩ := List.exists_cons_of_ne_nil hne
      have hstep : joinWith " " ((w :: w' :: ws').map String.ofList) =
          String.ofList w ++ " " ++ joinWith " " ((w' :: ws').map String.ofList) := rfl
      rw [hstep, String.toList_append, String.toList_append, ih, String.toList_ofList,
        joined_cons hne]
      simp

theorem unpointed_of_bare {s : String} (h : ∀ c ∈ s.toList, isNiqqud c = false) :
    unpointed s = s.toList := by
  refine List.filter_eq_self.2 fun c hc => ?_
  rw [h c hc]
  rfl

namespace UnicodeData

variable {U : Unicode} {D : Charset Char} (hU : UnicodeData U D)

include hU

theorem blank_divider : D.Divider ' ' := by
  obtain ⟨w, hw, -, hdiv⟩ := hU.space.divider ' ' rfl
  rw [hU.blank] at hw
  rwa [(List.cons.inj hw).1]

/-- The normalised name: the words of the composed text, after the points went. -/
theorem normalizeHebrew_toList (s : String) :
    (normalizeHebrew U s).toList = joined ' ' (words isSpace (D.nfc (unpointed s))) := by
  rw [normalizeHebrew]
  split
  · subst_vars
    rfl
  · have hwords : ∀ l : List (List Char), l.filter (· ≠ []) = l.filter fun w => !w.isEmpty := by
      intro l
      refine List.filter_congr fun w _ => ?_
      cases w <;> rfl
    dsimp only
    rw [hwords, joinWith_toList, hU.nfc, String.toList_ofList]
    rfl

/-- **Word by word**: each word is stripped of its points and composed. -/
theorem normalizeHebrew_eq (s : String) : (normalizeHebrew U s).toList =
    joined ' ' ((words isSpace (unpointed s)).map D.nfc) := by
  rw [hU.normalizeHebrew_toList, hU.space.words_nfc]

theorem words_normalizeHebrew (s : String) :
    words isSpace (normalizeHebrew U s).toList = (words isSpace (unpointed s)).map D.nfc := by
  rw [hU.normalizeHebrew_toList, ← hU.space.words_nfc]
  exact words_joined rfl fun w hw => (words_spec _ w hw).imp id fun h c hc => (h c hc).2

theorem normalizeHebrew_tidy (s : String) : Tidy isSpace (normalizeHebrew U s).toList := by
  rw [hU.normalizeHebrew_toList]
  exact tidy_joined fun w hw => (words_spec _ w hw).imp id fun h c hc => (h c hc).2

theorem normalizeHebrew_composed (s : String) :
    D.nfc (normalizeHebrew U s).toList = (normalizeHebrew U s).toList := by
  have hfix : (D.nfc ∘ D.nfc) = D.nfc := funext Charset.nfc_nfc
  rw [hU.normalizeHebrew_eq, nfc_joined hU.blank hU.blank_divider, List.map_map, hfix]

/-! ## Where points come from -/

/-- A composite is not a point. -/
theorem pair_bare (a b c : Char) (h : D.pair a b = some c) : isNiqqud c = false := by
  cases hc : isNiqqud c with
  | false => rfl
  | true =>
    have hlen := congrArg List.length (D.decomp_pair a b c h)
    have ha := List.length_pos_iff.2 (D.decomp_ne_nil a)
    have hb := List.length_pos_iff.2 (D.decomp_ne_nil b)
    rw [(hU.niqqud c hc).1, List.length_append, List.length_singleton] at hlen
    omega

/-- The composed text has points exactly if a character of the text brings one. -/
theorem nfc_bare {l : List Char} :
    (∀ c ∈ D.nfc l, isNiqqud c = false) ↔ ∀ c ∈ l, ∀ d ∈ D.decomp c, isNiqqud d = false := by
  have hmem : ∀ {d : Char}, d ∈ D.nfd l ↔ ∃ c ∈ l, d ∈ D.decomp c :=
    Charset.mem_order.trans List.mem_flatMap
  constructor
  · intro h c hc d hd
    cases hn : isNiqqud d with
    | false => rfl
    | true =>
      obtain ⟨-, hleft, hright⟩ := hU.niqqud d hn
      have hstays := h d (Charset.mem_compose hleft hright (hmem.2 ⟨c, hc, hd⟩))
      rw [hn] at hstays
      cases hstays
  · intro h
    refine Charset.forall_mem_compose hU.pair_bare fun d hd => ?_
    obtain ⟨c, hc, hd⟩ := hmem.1 hd
    exact h c hc d hd

/-- **Points come from presentation forms only.** -/
theorem normalizeHebrew_bare (s : String) :
    (∀ c ∈ (normalizeHebrew U s).toList, isNiqqud c = false) ↔ Unpresented D s := by
  have hword : (∀ c ∈ (normalizeHebrew U s).toList, isNiqqud c = false) ↔
      ∀ c ∈ D.nfc (unpointed s), isNiqqud c = false := by
    rw [hU.normalizeHebrew_toList]
    constructor
    · intro h c hc
      cases hsep : isSpace c with
      | true =>
        unfold isSpace at hsep
        unfold isNiqqud
        grind
      | false =>
        obtain ⟨w, hw, hcw⟩ := mem_words hc hsep
        exact h c (mem_joined_of_mem hw hcw)
    · intro h c hc
      rcases mem_joined hc with rfl | ⟨w, hw, hcw⟩
      · rfl
      · exact h c ((words_spec _ w hw).2 c hcw).1
  rw [hword, hU.nfc_bare]
  constructor
  · intro h c hc
    cases hn : isNiqqud c with
    | true => exact Or.inl rfl
    | false => exact Or.inr (h c (List.mem_filter.2 ⟨hc, by rw [hn]; rfl⟩))
  · intro h c hc
    obtain ⟨hc, hn⟩ := List.mem_filter.1 hc
    refine (h c hc).resolve_left fun hniq => ?_
    rw [hniq] at hn
    cases hn

/-! ## The laws -/

/-- A bare result is its own normal form. -/
theorem normalizeHebrew_again {s : String}
    (h : ∀ c ∈ (normalizeHebrew U s).toList, isNiqqud c = false) :
    normalizeHebrew U (normalizeHebrew U s) = normalizeHebrew U s := by
  apply String.toList_inj.1
  have hfix : (D.nfc ∘ D.nfc) = D.nfc := funext Charset.nfc_nfc
  rw [hU.normalizeHebrew_eq (normalizeHebrew U s), unpointed_of_bare h, hU.words_normalizeHebrew,
    List.map_map, hfix, hU.normalizeHebrew_eq]

/-- Names that differ only in niqqud and white space have one normal form. -/
theorem normalizeHebrew_letters {s t : String} (h : SameLetters s t) :
    normalizeHebrew U s = normalizeHebrew U t := by
  apply String.toList_inj.1
  rw [hU.normalizeHebrew_eq, hU.normalizeHebrew_eq, h]

/-- Canonically equivalent names without presentation forms have one normal form. -/
theorem normalizeHebrew_canonical {s t : String} (hs : Unpresented D s) (ht : Unpresented D t)
    (h : CanonicallyEquivalent D s t) : normalizeHebrew U s = normalizeHebrew U t := by
  have hwhole : ∀ {s : String}, Unpresented D s →
      ∀ c ∈ s.toList, ∀ d ∈ D.decomp c, (!isNiqqud d) = !isNiqqud c := by
    intro s hs c hc d hd
    cases hn : isNiqqud c with
    | true =>
      rw [(hU.niqqud c hn).1, List.mem_singleton] at hd
      rw [hd, hn]
    | false =>
      have hdecomp := (hs c hc).resolve_left (hn ▸ Bool.false_ne_true)
      rw [hdecomp d hd]
  have hnfd := Charset.nfd_filter (hwhole hs) (hwhole ht) h
  have hnfc : D.nfc (unpointed s) = D.nfc (unpointed t) := congrArg D.compose hnfd
  apply String.toList_inj.1
  rw [hU.normalizeHebrew_toList, hU.normalizeHebrew_toList, hnfc]

theorem normalForm_iff (s : String) : NormalForm U D s ↔ Unpresented D s := by
  constructor
  · exact fun h => (hU.normalizeHebrew_bare s).1 h.bare
  · intro h
    have hbare := (hU.normalizeHebrew_bare s).2 h
    exact ⟨hU.normalizeHebrew_again hbare, hbare, hU.normalizeHebrew_tidy s,
      hU.normalizeHebrew_composed s⟩

end UnicodeData

/-- **The normal form laws**: they hold of names without presentation forms of pointed letters,
and of no others. -/
theorem normalizeHebrew_law_iff {U : Unicode} {D : Charset Char} (hU : UnicodeData U D)
    (s t : String) : NormalFormLaw U D s t ↔ Unpresented D s ∧ Unpresented D t := by
  constructor
  · exact fun h => ⟨(hU.normalForm_iff s).1 h.left, (hU.normalForm_iff t).1 h.right⟩
  · rintro ⟨hs, ht⟩
    refine ⟨(hU.normalForm_iff s).2 hs, (hU.normalForm_iff t).2 ht, fun hsame => ?_⟩
    rcases hsame with hcanon | hletters
    · exact hU.normalizeHebrew_canonical hs ht hcanon
    · exact hU.normalizeHebrew_letters hletters

/-! ## A presentation form -/

/-- Text whose one presentation form is `U+FB2A`, the letter shin with its dot. -/
def shinDot : Charset Char where
  ccc c := if c = '\u05C1' then 24 else 0
  decomp c := if c = '\uFB2A' then ['\u05E9', '\u05C1'] else [c]
  pair _ _ := none
  decomp_ne_nil c := by split <;> simp
  decomp_decomp c d hd := by
    split at hd
    · rcases List.mem_cons.1 hd with rfl | hd
      · rfl
      · rw [List.mem_singleton.1 hd]
        rfl
    · rename_i hc
      rw [List.mem_singleton.1 hd, if_neg hc]
  decomp_pair _ _ _ h := nomatch h

/-- Its database. -/
def shinDotText : Unicode := ⟨fun s => String.ofList (shinDot.nfc s.toList), lower, fun _ => true⟩

theorem shinDot_decomp {c : Char} (h : c ≠ '\uFB2A') : shinDot.decomp c = [c] := if_neg h

theorem shinDotData : UnicodeData shinDotText shinDot where
  nfc s := String.toList_ofList
  blank := rfl
  space :=
    { divider := fun w hw => by
        have hne : w ≠ '\uFB2A' := by rintro rfl; cases hw
        have hdot : w ≠ '\u05C1' := by rintro rfl; cases hw
        exact ⟨w, shinDot_decomp hne, hw, if_neg hdot, fun _ => rfl, fun _ => rfl⟩
      decomp := fun c hc d hd => by
        by_cases hne : c = '\uFB2A'
        · subst hne
          revert d
          decide
        · rw [shinDot_decomp hne, List.mem_singleton] at hd
          rw [hd, hc]
      pair := fun _ _ _ h => nomatch h }
  niqqud c hc := by
    have hne : c ≠ '\uFB2A' := by rintro rfl; cases hc
    exact ⟨shinDot_decomp hne, fun _ => rfl, fun _ => rfl⟩

/-- A name with a point and one without. -/
theorem normalizeHebrew_law_pointed :
    NormalFormLaw shinDotText shinDot "\u05E9\u05C1\u05DE\u05D9" " \u05E9\u05DE\u05D9" := by
  have hplain : Unpresented shinDot "\u05E9\u05C1\u05DE\u05D9" ∧
      Unpresented shinDot " \u05E9\u05DE\u05D9" := by
    unfold Unpresented
    decide
  exact (normalizeHebrew_law_iff shinDotData _ _).2 hplain

/-- The presentation form keeps its point, and loses it the second time. -/
theorem normalizeHebrew_presented : UnicodeData shinDotText shinDot ∧
    normalizeHebrew shinDotText "\uFB2A" = "\u05E9\u05C1" ∧
      normalizeHebrew shinDotText "\u05E9\u05C1" = "\u05E9" ∧
      ¬ NormalFormLaw shinDotText shinDot "\uFB2A" "\uFB2A" := by
  have hfirst : normalizeHebrew shinDotText "\uFB2A" = "\u05E9\u05C1" := by decide
  refine ⟨shinDotData, hfirst, by decide, fun h => ?_⟩
  have hbare := h.left.bare '\u05C1' (by rw [hfirst]; decide)
  cases hbare

end CivicProof
