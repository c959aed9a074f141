import CivicProof.Proof.TimeOffice

/-!
# English offices and time suffixes

The office template takes a suffix without a digit into an office with words of the statement's own,
and into no other: `enOfficeWords`.
-/

namespace CivicProof

open Regex Re

/-! ## English offices -/

/-- The offices of `_EN_OFFICE`. -/
def enOffices : Pattern :=
  let l := en true
  any [cat [l "Prime", sp, l "Minister"], cat [l "Minister", sp, l "of", sp, enWords],
    cat [l "Deputy", sp, l "Minister", opt (cat [sp, l "of", sp, enWords])],
    cat [l "Member", sp, l "of", sp, l "Knesset"],
    cat [l "Chair", opt (l "person"), sp, l "of", sp, enWords]]

/-- The offices without a word of the statement's own. -/
def enFixedOffices : Pattern :=
  let l := en true
  any [cat [l "Prime", sp, l "Minister"], cat [l "Deputy", sp, l "Minister"],
    cat [l "Member", sp, l "of", sp, l "Knesset"]]

/-- What stands before the words of the other offices. -/
def enOfficeFronts : List (List Pattern) :=
  let l := en true
  [[l "Minister", sp, l "of"], [l "Deputy", sp, l "Minister", sp, l "of"],
    [l "Chair", opt (l "person"), sp, l "of"]]

theorem enFronts_bare : ∀ F ∈ enOfficeFronts, (cat F).bare = true := by decide

section

variable {w y : List Char}

theorem enOffices_iff : enOffices.Has w ↔
    (∃ F ∈ enOfficeFronts, (cat (F ++ [sp, enWords])).Has w) ∨ enFixedOffices.Has w := by
  have hdeputy : (cat [en true "Deputy", sp, en true "Minister",
      opt (cat [sp, en true "of", sp, enWords])]).Has w ↔
        (cat ([en true "Deputy", sp, en true "Minister", sp, en true "of"] ++ [sp, enWords])).Has w ∨
          (cat [en true "Deputy", sp, en true "Minister"]).Has w := by
    refine (Has_append [en true "Deputy", sp, en true "Minister"]
      [opt (cat [sp, en true "of", sp, enWords])] rfl rfl).trans ?_
    refine Iff.trans ?_ (or_congr_left (Has_append [en true "Deputy", sp, en true "Minister"]
      [sp, en true "of", sp, enWords] rfl rfl).symm)
    constructor
    · rintro ⟨u, v, rfl, hu, hv | ⟨rfl, -⟩⟩
      · exact Or.inl ⟨u, v, rfl, hu, hv⟩
      · exact Or.inr (by rwa [List.append_nil])
    · rintro (⟨u, v, rfl, hu, hv⟩ | hu)
      · exact ⟨u, v, rfl, hu, Or.inl hv⟩
      · exact ⟨w, [], (List.append_nil w).symm, hu, Or.inr ⟨rfl, rfl⟩⟩
  unfold enOffices enFixedOffices enOfficeFronts Re.Has at *
  rw [Matches_any, Matches_any]
  simp only [List.exists_mem_cons_iff, List.not_mem_nil, false_and, exists_false, or_false]
  rw [hdeputy]
  constructor
  · rintro (h | h | (h | h) | h | h)
    · exact Or.inr (Or.inl h)
    · exact Or.inl (Or.inl h)
    · exact Or.inl (Or.inr (Or.inl h))
    · exact Or.inr (Or.inr (Or.inl h))
    · exact Or.inr (Or.inr (Or.inr h))
    · exact Or.inl (Or.inr (Or.inr h))
  · rintro ((h | h | h) | h | h | h)
    · exact Or.inr (Or.inl h)
    · exact Or.inr (Or.inr (Or.inl (Or.inl h)))
    · exact Or.inr (Or.inr (Or.inr (Or.inr h)))
    · exact Or.inl h
    · exact Or.inr (Or.inr (Or.inl (Or.inr h)))
    · exact Or.inr (Or.inr (Or.inr (Or.inl h)))

end

/-! ### Letters -/

section

variable {ci : Bool} {s s' : String} {Q : Char → Prop}

theorem en_needs_fold (h : ∃ a ∈ s.toList, Q (foldCase a)) : (en ci s).Needs fun c => Q (foldCase c) := by
  obtain ⟨a, ha, hQ⟩ := h
  exact Needs_lit.2 ⟨a, ha, fun c hc => by rwa [beq_iff_eq.1 (charEq_mono hc)]⟩

theorem en_within_fold (h : ∀ a ∈ s.toList, Q (foldCase a)) : (en ci s).Within fun c => Q (foldCase c) :=
  Within_lit.2 fun a ha c hc => by
    rw [beq_iff_eq.1 (charEq_mono hc)]
    exact h a ha

theorem sp_within_fold (h : ∀ c, isSpace c = true → Q c) : sp.Within fun c => Q (foldCase c) := by
  intro c hc
  rw [foldCase_space hc]
  exact h c hc

/-- The first two letters of a text. -/
def opening (w : List Char) : List Char := (w.take 2).map foldCase

theorem opening_of_match {l : List Pattern} {g g' : Caps GroupName} {pre w post : List Char}
    (h : (cat (en true s :: l)).Matches g pre w post g') (hs : 2 ≤ s.toList.length) :
    opening (w ++ post) = opening s.toList := by
  obtain ⟨u, v, rfl, hu, -⟩ := (plain_en true s).cat_iff.1 h
  have hword : SameWord s u := hu
  have hmap : ∀ {a b : List Char}, List.Forall₂ (fun a c => charEq true a c = true) a b →
      b.map foldCase = a.map foldCase := by
    intro a b hab
    induction hab with
    | nil => rfl
    | cons hc _ ih => rw [List.map_cons, List.map_cons, ih, beq_iff_eq.1 hc]
  rw [opening, opening, List.map_take, List.map_take, List.map_append, List.map_append, hmap hword,
    List.append_assoc, List.take_append_of_le_length (by rwa [List.length_map])]

/-- Two words end in one place. -/
theorem two_words_inj {u u' z z' : List Char} (hs' : ∀ a ∈ s'.toList, isSpace (foldCase a) = false)
    (hne : s'.toList ≠ []) (hu : (cat [en true s, sp, en true s']).Has u)
    (hu' : (cat [en true s, sp, en true s']).Has u') (h : u ++ z = u' ++ z') : z = z' := by
  obtain ⟨a, rest, rfl, ha, hrest⟩ := (plain_en true s).cat_iff.1 hu
  obtain ⟨b, c, rfl, hb, hc⟩ := plain_sp.cat_iff.1 hrest
  obtain ⟨a', rest', rfl, ha', hrest'⟩ := (plain_en true s).cat_iff.1 hu'
  obtain ⟨b', c', rfl, hb', hc'⟩ := plain_sp.cat_iff.1 hrest'
  have hc : SameWord s' c := ((plain_en true s' ..).1 hc).1
  have hc' : SameWord s' c' := ((plain_en true s' ..).1 hc').1
  have hfence : ∀ {c v}, SameWord s' c → Fenced isSpace (c ++ v) := by
    intro c v hc d hd
    rw [List.head?_append_of_ne_nil _ (hc.ne_nil hne)] at hd
    exact hc.no_space hs' d (List.mem_of_head? hd)
  simp only [List.append_assoc] at h
  obtain ⟨-, h⟩ := List.append_inj h (ha.length_eq.symm.trans ha'.length_eq)
  obtain ⟨-, h⟩ := spaces_inj hb.1 hb'.1 (hfence hc) (hfence hc') h
  exact (List.append_inj h (hc.length_eq.trans hc'.length_eq.symm)).2

end

/-! ### The suffix -/

/-- `[A-Za-z\s]` under the ignore-case flag. -/
def isEnWord : Char → Bool := ciSet true fun c => isLatin c || isSpace c

theorem isEnWord_of {c : Char} (h : isSpace c = true ∨ isLatin (foldCase c) = true) :
    isEnWord c = true := by
  rw [isEnWord, ciSet]
  rcases h with h | h <;> simp [h]

/-- What the offices need to know of a suffix without a digit. -/
structure EnWordSuffix (y : List Char) : Prop where
  letters : ∀ c ∈ y, isSpace c = true ∨ foldCase c ∈ "inlasterm".toList
  last : ∃ y' c, y = y' ++ [c] ∧ foldCase c = 'm'

theorem enWordSuffix {ci : Bool} {t : List Char} (ht : (any (enTimeAlts ci)).Has t)
    (hd : ∀ c ∈ t, isDigit c = false) : EnWordSuffix (timeSuffix .en t) := by
  obtain ⟨a, ha, h⟩ := Matches_any.1 ht
  have hclash : ∀ {ds : List Char}, (∀ c ∈ ds, isDigit c = true) → 1 ≤ ds.length → (∀ c ∈ ds, c ∈ t) →
      False := by
    intro ds hds hlen hsub
    obtain ⟨c, ds, rfl⟩ := List.exists_cons_of_length_pos hlen
    have hc := hds c List.mem_cons_self
    rw [hd c (hsub c List.mem_cons_self)] at hc
    cases hc
  unfold enTimeAlts at ha
  rcases List.mem_cons.1 ha with rfl | ha
  · have hrun : Run isDigit 4 (some 4) t := h.1
    exact (hclash hrun.1 (Nat.le_trans (by decide) hrun.2.1) fun c hc => hc).elim
  rcases List.mem_cons.1 ha with rfl | ha
  · obtain ⟨the, rest, rfl, -, h⟩ := (plain_en ci "the").cat_iff.1 h
    obtain ⟨s, rest, rfl, -, h⟩ := plain_sp.cat_iff.1 h
    obtain ⟨ds, rest, rfl, hds, h⟩ := (Plain_rep (p := isDigit)).cat_iff.1 h
    exact (hclash hds.1 hds.2.1 fun c hc => by simp [hc]).elim
  obtain rfl := List.mem_singleton.1 ha
  obtain ⟨last, rest, rfl, hlast, h⟩ := (plain_en ci "last").cat_iff.1 h
  obtain ⟨s, term, rfl, hs, h⟩ := plain_sp.cat_iff.1 h
  have hlast := sameWord_of_lit hlast
  have hterm := sameWord_of_lit ((plain_en ci "term" ..).1 h).1
  have hword : ∀ {word : String} {w : List Char}, SameWord word w →
      (∀ a ∈ word.toList, foldCase a ∈ "inlasterm".toList) →
        ∀ c ∈ w, isSpace c = true ∨ foldCase c ∈ "inlasterm".toList := by
    intro word w hw hletters c hc
    obtain ⟨a, ha, hfold⟩ := hw.letter hc
    exact Or.inr (hfold ▸ hletters a ha)
  refine ⟨forall_append (by decide) (forall_append (hword hlast (by decide)) (forall_append
    (fun c hc => Or.inl (hs.1 c hc)) (hword hterm (by decide)))), ?_⟩
  obtain ⟨u, c, rfl⟩ : ∃ u c, term = u ++ [c] :=
    ⟨_, _, (List.dropLast_append_getLast (hterm.ne_nil (by decide))).symm⟩
  refine ⟨" in ".toList ++ (last ++ (s ++ u)), c, by simp [timeSuffix], ?_⟩
  have hend : (en true "term").Last fun c => foldCase c = 'm' :=
    Last_lit (w := "ter".toList) rfl fun c hc => beq_iff_eq.1 hc
  exact hend.concat ((plain_en true "term" (fun _ => none) [] _ [] _).2 ⟨hterm, rfl⟩)

/-! ### The offices -/

theorem enFronts_last : ∀ F ∈ enOfficeFronts, (cat F).Last fun c => foldCase c = 'f' := by
  have hof : (en true "of").Last fun c => foldCase c = 'f' :=
    Last_lit (w := ['o']) rfl fun c hc => beq_iff_eq.1 hc
  have hne : (en true "of").Needs fun _ => True := word_needs (by decide)
  refine List.forall_mem_cons.2 ⟨?_, List.forall_mem_cons.2 ⟨?_, List.forall_mem_cons.2 ⟨?_,
    fun _ h => absurd h List.not_mem_nil⟩⟩⟩
  · exact Last_append (l := [_, _]) hof hne
  · exact Last_append (l := [_, _, _, _]) hof hne
  · exact Last_append (l := [_, _, _]) hof hne

theorem enFronts_needs : ∀ F ∈ enOfficeFronts, ∀ x ∈ ['i', 'f'], (cat F).Needs fun c => foldCase c = x := by
  have hneeds : ∀ {s : String} {x : Char}, (∃ a ∈ s.toList, foldCase a = x) →
      (en true s).Needs fun c => foldCase c = x := fun h => en_needs_fold (Q := (· = _)) h
  have hof : (en true "of").Needs fun c => foldCase c = 'f' := hneeds (by decide)
  refine List.forall_mem_cons.2 ⟨?_, List.forall_mem_cons.2 ⟨?_, List.forall_mem_cons.2 ⟨?_,
    fun _ h => absurd h List.not_mem_nil⟩⟩⟩ <;>
  refine List.forall_mem_cons.2 ⟨?_, List.forall_mem_cons.2 ⟨Needs_cat.2 ⟨_, by simp, hof⟩,
    fun _ h => absurd h List.not_mem_nil⟩⟩
  · exact Needs_cat.2 ⟨en true "Minister", by simp, hneeds (by decide)⟩
  · exact Needs_cat.2 ⟨en true "Minister", by simp, hneeds (by decide)⟩
  · exact Needs_cat.2 ⟨en true "Chair", by simp, hneeds (by decide)⟩

/-- An office with words of its own is no fixed one. -/
theorem enOffices_disjoint {F : List Pattern} (hF : F ∈ enOfficeFronts) {w : List Char}
    (h : (cat (F ++ [sp, enWords])).Has w) : ¬enFixedOffices.Has w := by
  have hwithin : ∀ {s : String} {x : Char}, (∀ a ∈ s.toList, foldCase a ≠ x) →
      (en true s).Within fun c => ¬foldCase c = x := fun h => en_within_fold (Q := (· ≠ _)) h
  have hsp : ∀ {x : Char}, isSpace x = false → sp.Within fun c => ¬foldCase c = x := by
    intro x hx
    refine sp_within_fold (Q := (· ≠ x)) fun c hc heq => ?_
    rw [← heq, hc] at hx
    cases hx
  obtain ⟨f, v, rfl, hf, -⟩ := (Has_append _ _ (enFronts_bare F hF) rfl).1 h
  have hletter : ∀ x ∈ ['i', 'f'], ∃ c ∈ f ++ v, foldCase c = x := fun x hx =>
    let ⟨c, hc, hcx⟩ := (enFronts_needs F hF x hx).exists_mem hf
    ⟨c, List.mem_append_left v hc, hcx⟩
  intro hfixed
  have hfree : (∀ c ∈ f ++ v, foldCase c ≠ 'f') ∨ ∀ c ∈ f ++ v, foldCase c ≠ 'i' := by
    obtain ⟨a, ha, hm⟩ := Matches_any.1 hfixed
    rcases List.mem_cons.1 ha with rfl | ha
    · refine Or.inl (Within.forall_mem (Within_cat.2 ?_) hm)
      simp (disch := decide) [hwithin, hsp]
    rcases List.mem_cons.1 ha with rfl | ha
    · refine Or.inl (Within.forall_mem (Within_cat.2 ?_) hm)
      simp (disch := decide) [hwithin, hsp]
    obtain rfl := List.mem_singleton.1 ha
    refine Or.inr (Within.forall_mem (Within_cat.2 ?_) hm)
    simp (disch := decide) [hwithin, hsp]
  rcases hfree with hfree | hfree
  · obtain ⟨c, hc, hx⟩ := hletter 'f' (by decide)
    exact hfree c hc hx
  · obtain ⟨c, hc, hx⟩ := hletter 'i' (by decide)
    exact hfree c hc hx

/-- Every office has a letter that the suffix lacks. -/
theorem enOffices_needs : enOffices.Needs fun c => foldCase c ∈ ['p', 'f'] := by
  have hneeds : ∀ {s : String}, (∃ a ∈ s.toList, foldCase a ∈ ['p', 'f']) →
      (en true s).Needs fun c => foldCase c ∈ ['p', 'f'] := fun h => en_needs_fold (Q := (· ∈ _)) h
  refine Needs_any.2 (List.forall_mem_cons.2 ⟨?_, List.forall_mem_cons.2 ⟨?_, List.forall_mem_cons.2 ⟨?_,
    List.forall_mem_cons.2 ⟨?_, List.forall_mem_cons.2 ⟨?_, fun _ h => absurd h List.not_mem_nil⟩⟩⟩⟩⟩)
  · exact Needs_cat.2 ⟨en true "Prime", by simp, hneeds (by decide)⟩
  · exact Needs_cat.2 ⟨en true "of", by simp, hneeds (by decide)⟩
  · exact Needs_cat.2 ⟨en true "Deputy", by simp, hneeds (by decide)⟩
  · exact Needs_cat.2 ⟨en true "of", by simp, hneeds (by decide)⟩
  · exact Needs_cat.2 ⟨en true "of", by simp, hneeds (by decide)⟩

theorem enFixed_last : enFixedOffices.Last fun c => foldCase c ∈ ['r', 't'] := by
  have hlast : ∀ {s : String} {w : List Char} {a : Char}, s.toList = w ++ [a] → foldCase a ∈ ['r', 't'] →
      (en true s).Last fun c => foldCase c ∈ ['r', 't'] := fun hs ha =>
    Last_lit hs fun c hc => by rwa [beq_iff_eq.1 (charEq_mono hc)]
  have hminister : (en true "Minister").Last fun c => foldCase c ∈ ['r', 't'] :=
    hlast (w := "Ministe".toList) rfl (by decide)
  refine Last_any.2 (List.forall_mem_cons.2 ⟨?_, List.forall_mem_cons.2 ⟨?_, List.forall_mem_cons.2 ⟨?_,
    fun _ h => absurd h List.not_mem_nil⟩⟩⟩)
  · exact Last_append (l := [_, _]) hminister (word_needs (by decide))
  · exact Last_append (l := [_, _]) hminister (word_needs (by decide))
  · exact Last_append (l := [_, _, _, _]) (hlast (w := "Knesse".toList) rfl (by decide))
      (word_needs (by decide))

/-- An office with words of its own is made of words. -/
theorem enFronts_within {F : List Pattern} (hF : F ∈ enOfficeFronts) :
    (cat (F ++ [sp, enWords])).Within fun c => isEnWord c = true := by
  have hword : ∀ {s : String}, (∀ a ∈ s.toList, isLatin (foldCase a) = true) →
      (en true s).Within fun c => isEnWord c = true := by
    intro s hs
    refine Within_lit.2 fun a ha c hc => isEnWord_of (Or.inr ?_)
    rw [beq_iff_eq.1 (charEq_mono hc)]
    exact hs a ha
  have hsp : sp.Within fun c => isEnWord c = true := fun c hc => isEnWord_of (Or.inl hc)
  have hwords : enWords.Within fun c => isEnWord c = true := fun c hc => hc
  have hall : ∀ F ∈ enOfficeFronts, (cat (F ++ [sp, enWords])).Within fun c => isEnWord c = true := by
    refine List.forall_mem_cons.2 ⟨?_, List.forall_mem_cons.2 ⟨?_, List.forall_mem_cons.2 ⟨?_,
      fun _ h => absurd h List.not_mem_nil⟩⟩⟩ <;> simp (disch := decide) [hword, hsp, hwords]
  exact hall F hF

theorem enFronts_words_bare : ∀ F ∈ enOfficeFronts, (cat (F ++ [sp, enWords])).bare = true := by decide

/-- How an office with words of its own begins. -/
theorem enFronts_opening {F : List Pattern} (hF : F ∈ enOfficeFronts) {w : List Char}
    (h : (cat (F ++ [sp, enWords])).Has w) (z : List Char) : ∃ s ∈ ["Minister", "Deputy", "Chair"],
      opening (w ++ z) = opening s.toList ∧
        (s = "Deputy" → F = [en true "Deputy", sp, en true "Minister", sp, en true "of"]) := by
  have hm : (cat (F ++ [sp, enWords])).Matches (fun _ => none) [] w z fun _ => none :=
    (plain_of_bare (enFronts_words_bare F hF) ..).2 ⟨h, rfl⟩
  have hbegin : ∀ F ∈ enOfficeFronts, ∃ s ∈ ["Minister", "Deputy", "Chair"], (∃ l, F = en true s :: l) ∧
      (s = "Deputy" → F = [en true "Deputy", sp, en true "Minister", sp, en true "of"]) := by
    refine List.forall_mem_cons.2 ⟨⟨"Minister", by simp, ⟨_, rfl⟩, fun h => absurd h (by decide)⟩,
      List.forall_mem_cons.2 ⟨⟨"Deputy", by simp, ⟨_, rfl⟩, fun _ => rfl⟩,
        List.forall_mem_cons.2 ⟨⟨"Chair", by simp, ⟨_, rfl⟩, fun h => absurd h (by decide)⟩,
          fun _ h => absurd h List.not_mem_nil⟩⟩⟩
  have hlen : ∀ s ∈ ["Minister", "Deputy", "Chair"], 2 ≤ s.toList.length := by decide
  obtain ⟨s, hs, ⟨l, rfl⟩, hdeputy⟩ := hbegin F hF
  exact ⟨s, hs, opening_of_match hm (hlen s hs), hdeputy⟩

/-- **An office with words of its own** goes on to the end of a text of words. -/
theorem enOffices_onward {F : List Pattern} (hF : F ∈ enOfficeFronts) {w z : List Char}
    (h : (cat (F ++ [sp, enWords])).Has w) (hz : ∀ c ∈ z, isEnWord c = true) {g : Caps GroupName}
    {pre : List Char} {x : FrontWay} (hx : enOffices.first Place.part g pre (w ++ z) = some x) :
    x.post = [] := by
  have hin : ∀ c ∈ w ++ z, isEnWord c = true :=
    forall_append ((enFronts_within hF).forall_mem h) hz
  obtain ⟨s, hs, hopening, hdeputy⟩ := enFronts_opening hF h z
  -- an alternative that answers begins as the office does
  have hsame : ∀ {s' : String} {l : List Pattern}, 2 ≤ s'.toList.length →
      (cat (en true s' :: l)).first Place.part g pre (w ++ z) = some x →
        opening s.toList = opening s'.toList := by
    intro s' l hlen hx
    obtain ⟨u, hpost, -, hm⟩ := ways_matches (first_mem hx)
    rw [← hopening, hpost, opening_of_match hm hlen]
  obtain ⟨a, ha, hx⟩ := first_any hx
  rcases List.mem_cons.1 ha with rfl | ha
  · have hclash : ∀ s ∈ ["Minister", "Deputy", "Chair"], opening s.toList ≠ opening "Prime".toList := by
      decide
    exact absurd (hsame (by decide) hx) (hclash s hs)
  rcases List.mem_cons.1 ha with rfl | ha
  · exact words_onward (l := [_, _, _, _]) hin hx
  rcases List.mem_cons.1 ha with rfl | ha
  · have hwords : ∀ s ∈ ["Minister", "Deputy", "Chair"], opening s.toList = opening "Deputy".toList →
        s = "Deputy" := by decide
    obtain rfl := hdeputy (hwords s hs (hsame (by decide) hx))
    obtain ⟨u, v, rfl, hu, hv⟩ := (Has_append [en true "Deputy", sp, en true "Minister"]
      [sp, en true "of", sp, enWords] rfl rfl).1 h
    obtain ⟨y, hy, hx⟩ := first_append (l := [en true "Deputy", sp, en true "Minister"]) hx
    obtain ⟨u', hpost, hu', -⟩ := has_of_way (r := cat [en true "Deputy", sp, en true "Minister"]) rfl hy
    rw [List.append_assoc] at hpost
    have hrest : v ++ z = y.post := two_words_inj (by decide) (by decide) hu hu' hpost
    -- behind the two words the others can go on, so they do
    rw [Re.cat, first_opt, Option.some.injEq] at hx
    obtain ⟨x', hx'⟩ := Option.ne_none_iff_exists'.1
      (first_ne_none (r := cat [sp, en true "of", sp, enWords]) rfl hv y.groups y.pre z)
    rw [hrest] at hx'
    rw [hx', Option.getD_some] at hx
    subst hx
    refine words_onward (l := [_, _, _]) (fun c hc => hin c ?_) hx'
    rw [← hrest] at hc
    rw [List.append_assoc]
    exact List.mem_append_right u hc
  rcases List.mem_cons.1 ha with rfl | ha
  · have hclash : ∀ s ∈ ["Minister", "Deputy", "Chair"], opening s.toList ≠ opening "Member".toList := by
      decide
    exact absurd (hsame (by decide) hx) (hclash s hs)
  obtain rfl := List.mem_singleton.1 ha
  exact words_onward (l := [_, _, _, _, _]) hin hx

theorem enOfficeWords {y : List Char} (hy : EnWordSuffix y) : OfficeWords enOffices enFixedOffices y := by
  have hsuffix : ∀ {r : List Char}, (∀ c ∈ r, isSpace c = true) → ∀ c ∈ r ++ y,
      isSpace c = true ∨ foldCase c ∈ "inlasterm".toList :=
    fun hr => forall_append (fun c hc => Or.inl (hr c hc)) hy.letters
  have hlatin : ∀ x ∈ "inlasterm".toList, isLatin x = true := by decide
  refine ⟨rfl, fun b hb h => ?_, fun {w e q r} hw hr h => ?_, fun {w r g pre x} hw hnot hr hx => ?_⟩
  · obtain ⟨c, hc, hletter⟩ := enOffices_needs.exists_mem h
    rcases (hb c hc).elim Or.inl (hy.letters c) with hspace | hother
    · rw [foldCase_space hspace] at hletter
      have hplain : ∀ x ∈ ['p', 'f'], isSpace x = false := by decide
      rw [hplain c hletter] at hspace
      cases hspace
    · have hplain : ∀ x ∈ ['p', 'f'], x ∉ "inlasterm".toList := by decide
      exact hplain _ hletter hother
  · have he : foldCase e ∈ ['r', 't'] := enFixed_last.concat hw
    have hespace : isSpace e = false := by
      by_contra hspace
      rw [Bool.not_eq_false] at hspace
      rw [foldCase_space hspace] at he
      have hplain : ∀ x ∈ ['r', 't'], isSpace x = false := by decide
      rw [hplain e he] at hspace
      cases hspace
    rcases enOffices_iff.1 h with ⟨F, hF, h⟩ | hfixed
    · have hmark : ∀ x ∈ ['r', 't'], x ≠ 'f' := by decide
      obtain ⟨f, d, rfl, hf, hd⟩ := front_cut (enFronts_bare F hF) rfl (enFronts_last F hF) (hmark _ he)
        (fun c hc hf => by
          rcases hsuffix hr c hc with hspace | hother
          · rw [foldCase_space hspace] at hf
            rw [hf] at hspace
            exact absurd hspace (by decide)
          · rw [hf] at hother
            exact absurd hother (by decide)) h
      have hcut : (cat (F ++ [sp, enWords])).Has (f ++ d ++ [e]) :=
        (Has_append _ _ (enFronts_bare F hF) rfl).2 ⟨f, d ++ [e], List.append_assoc .., hf,
          words_cut (fun c hc => isEnWord_of (Or.inl hc)) hespace hd⟩
      exact ⟨enOffices_iff.2 (Or.inl ⟨F, hF, hcut⟩), enOffices_disjoint hF hcut⟩
    · obtain ⟨y', c, rfl, hc⟩ := hy.last
      have hend : q ++ e :: (r ++ (y' ++ [c])) = (q ++ e :: (r ++ y')) ++ [c] := by simp
      rw [hend] at hfixed
      have hlast : foldCase c ∈ ['r', 't'] := enFixed_last.concat hfixed
      rw [hc] at hlast
      exact absurd hlast (by decide)
  · obtain ⟨F, hF, hw⟩ := (enOffices_iff.1 hw).resolve_right hnot
    exact enOffices_onward hF hw (fun c hc => isEnWord_of ((hsuffix hr c hc).imp_right (hlatin _))) hx

end CivicProof
