import CivicProof.Proof.TimeOffice

/-!
# Hebrew offices and time suffixes

As in English: a minister, a deputy and a chair take the suffix in, the prime minister and a member of
the Knesset do not: `heOfficeWords`.
-/

namespace CivicProof

open Regex Re

/-! ## Hebrew offices -/

/-- The offices of `_HE_OFFICE`. -/
def heOffices : Pattern :=
  any [cat [he "שר", opt (he "ת"), heOfficeTail],
    cat [he "סגן", opt (he "ית"), sp, he "שר", opt (he "ת"), heOfficeTail],
    cat [he "ראש", sp, he "הממשלה"], cat [he "חבר", opt (he "ת"), sp, he "כנסת"],
    cat [he "יו\"ר", sp, .rep isHeWords 1 none true]]

/-- The offices without a word of the statement's own. -/
def heFixedOffices : Pattern :=
  any [cat [he "ראש", sp, he "הממשלה"], cat [he "חבר", opt (he "ת"), sp, he "כנסת"]]

/-- How the other offices end: with a minister of something, or with the words of a chair. -/
def ministerEnd : List Pattern := [opt (he "ת"), heOfficeTail]

def chairEnd : List Pattern := [sp, .rep isHeWords 1 none true]

/-- The other offices, in two parts. -/
def heOfficeParts : List (List Pattern × List Pattern) :=
  [([he "שר"], ministerEnd), ([he "סגן", opt (he "ית"), sp, he "שר"], ministerEnd),
    ([he "יו\"ר"], chairEnd)]

theorem heOffices_iff {w : List Char} : heOffices.Has w ↔
    (∃ P ∈ heOfficeParts, (cat (P.1 ++ P.2)).Has w) ∨ heFixedOffices.Has w := by
  unfold heOffices heFixedOffices heOfficeParts Re.Has
  rw [Matches_any, Matches_any]
  simp only [List.exists_mem_cons_iff, List.not_mem_nil, false_and, exists_false, or_false]
  constructor
  · rintro (h | h | h | h | h)
    · exact Or.inl (Or.inl h)
    · exact Or.inl (Or.inr (Or.inl h))
    · exact Or.inr (Or.inl h)
    · exact Or.inr (Or.inr h)
    · exact Or.inl (Or.inr (Or.inr h))
  · rintro ((h | h | h) | h | h)
    · exact Or.inl h
    · exact Or.inr (Or.inl h)
    · exact Or.inr (Or.inr (Or.inr (Or.inr h)))
    · exact Or.inr (Or.inr (Or.inl h))
    · exact Or.inr (Or.inr (Or.inr (Or.inl h)))

theorem heParts_bare : ∀ P ∈ heOfficeParts, (cat P.1).bare = true ∧ (cat P.2).bare = true := by decide

theorem heParts_last : ∀ P ∈ heOfficeParts, (cat P.1).Last fun c => c = 'ר' := by
  have hlast : ∀ {s : String} {w : List Char}, s.toList = w ++ ['ר'] → (he s).Last fun c => c = 'ר' :=
    fun hs => Last_lit hs fun c hc => (charEq_iff ..).1 hc
  have hne : (he "שר").Needs fun _ => True := word_needs (by decide)
  refine List.forall_mem_cons.2 ⟨hlast (w := ['ש']) rfl, List.forall_mem_cons.2 ⟨?_,
    List.forall_mem_cons.2 ⟨hlast (w := "יו\"".toList) rfl, fun _ h => absurd h List.not_mem_nil⟩⟩⟩
  exact Last_append (l := [_, _, _]) (hlast (w := ['ש']) rfl) hne

theorem isHeWords_of_space {c : Char} (h : isSpace c = true) : isHeWords c = true := by
  simp [isHeWords, h]

theorem he_head {s : String} {l : List Pattern} {g g' : Caps GroupName} {pre w post : List Char}
    (h : (cat (he s :: l)).Matches g pre w post g') (hs : s.toList ≠ []) :
    (w ++ post).head? = s.toList.head? := by
  obtain ⟨u, v, rfl, rfl, -⟩ := (plain_he s).cat_iff.1 h
  rw [List.append_assoc, List.head?_append_of_ne_nil _ hs]

/-- A minister of something, or of nothing more. -/
theorem ministerEnd_iff {v : List Char} : (cat ministerEnd).Has v ↔ ∃ te tl, v = te ++ tl ∧
    (te = ['ת'] ∨ te = []) ∧ ((cat chairEnd).Has tl ∨ tl = []) := by
  constructor
  · intro h
    obtain ⟨te, tl, rfl, hte, h⟩ := (plain_he "ת").opt.cat_iff.1 h
    refine ⟨te, tl, rfl, hte, h.imp (fun h => ?_) And.left⟩
    exact ((plain_of_bare (r := cat chairEnd) rfl ..).1 h).1
  · rintro ⟨te, tl, rfl, hte, htl⟩
    refine (plain_he "ת").opt.cat_iff.2 ⟨te, tl, rfl, hte, htl.imp (fun h => ?_) fun h => ⟨h, rfl⟩⟩
    exact (plain_of_bare (r := cat chairEnd) rfl ..).2 ⟨h, rfl⟩

section

variable {d z v : List Char} {e : Char}

theorem heEnd_cut {R : List Pattern} (hR : R = ministerEnd ∨ R = chairEnd) (he : isSpace e = false)
    (h : (cat R).Has (d ++ e :: z)) : (cat R).Has (d ++ [e]) := by
  have hwords : ∀ d, (cat chairEnd).Has (d ++ e :: z) → (cat chairEnd).Has (d ++ [e]) := fun d h =>
    words_cut (fun c => isHeWords_of_space) he h
  rcases hR with rfl | rfl
  · obtain ⟨te, tl, heq, hte, htl⟩ := ministerEnd_iff.1 h
    rcases hte with rfl | rfl
    · cases d with
      | nil =>
        obtain ⟨rfl, -⟩ := List.cons_eq_cons.1 heq
        exact ministerEnd_iff.2 ⟨['ת'], [], rfl, Or.inl rfl, Or.inr rfl⟩
      | cons c d =>
        obtain ⟨rfl, rfl⟩ := List.cons_eq_cons.1 heq
        exact ministerEnd_iff.2 ⟨['ת'], d ++ [e], rfl, Or.inl rfl,
          Or.inl (hwords d (htl.resolve_right (by simp)))⟩
    · obtain rfl : d ++ e :: z = tl := heq
      exact ministerEnd_iff.2 ⟨[], d ++ [e], rfl, Or.inr rfl, Or.inl (hwords d (htl.resolve_right (by simp)))⟩
  · exact hwords d h

theorem heWords_in {tl : List Char} (h : (cat chairEnd).Has tl) : ∀ c ∈ tl, isHeWords c = true := by
  obtain ⟨c, u, rfl, hc, -, hu⟩ := (words_iff fun c => isHeWords_of_space).1 h
  exact List.forall_mem_cons.2 ⟨isHeWords_of_space hc, hu⟩

theorem heEnd_onward {R : List Pattern} (hR : R = ministerEnd ∨ R = chairEnd) (hv : (cat R).Has v)
    (hz : ∀ c ∈ z, isHeWords c = true) (hzs : ∃ b z', z = b :: z' ∧ isSpace b = true ∧ z' ≠ [])
    {g : Caps GroupName} {pre : List Char} {x : FrontWay}
    (hx : (cat R).first Place.part g pre (v ++ z) = some x) : x.post = [] := by
  rcases hR with rfl | rfl
  · obtain ⟨te, tl, rfl, hte, htl⟩ := ministerEnd_iff.1 hv
    obtain ⟨c, u, hrest, hc, hne, hu⟩ : ∃ c u, tl ++ z = c :: u ∧ isSpace c = true ∧ u ≠ [] ∧
        ∀ d ∈ u, isHeWords d = true := by
      obtain ⟨b, z', rfl, hb, hne⟩ := hzs
      rcases htl with h | rfl
      · have hin := heWords_in h
        obtain ⟨c, u, rfl, hc, hne, -⟩ := (words_iff fun c => isHeWords_of_space).1 h
        exact ⟨c, u ++ b :: z', rfl, hc, by simp,
          forall_append (fun d hd => hin d (List.mem_cons_of_mem _ hd)) hz⟩
      · exact ⟨b, z', rfl, hb, hne, fun d hd => hz d (List.mem_cons_of_mem _ hd)⟩
    have htotal : ∀ (g : Caps GroupName) pre post, heOfficeTail.Matches g pre [] post g :=
      fun g pre post => Or.inr ⟨rfl, rfl⟩
    obtain ⟨x₁, hx₁, hx⟩ := first_seq_total (a := opt (he "ת")) (ways_ne_nil htotal) hx
    have hpost : x₁.post = c :: u := by
      rw [first_opt, Option.some.injEq] at hx₁
      rcases hte with rfl | rfl
      · obtain ⟨x₂, hx₂⟩ := Option.ne_none_iff_exists'.1
          (first_ne_none (r := he "ת") rfl (w := ['ת']) ((plain_he "ת" ..).2 ⟨rfl, rfl⟩) g pre (tl ++ z))
        obtain ⟨w, hw, hhas, -⟩ := has_of_way (r := he "ת") rfl (first_mem hx₂)
        obtain rfl : w = ['ת'] := ((plain_he "ת" ..).1 hhas).1
        rw [List.append_assoc, hx₂, Option.getD_some] at hx₁
        rw [← hx₁, ← hrest]
        exact (List.append_cancel_left hw).symm
      · have hnone : (he "ת").first Place.part g pre (c :: u) = none := by
          refine Option.eq_none_iff_forall_ne_some.2 fun x₂ hx₂ => ?_
          obtain ⟨w, hw, hhas, -⟩ := has_of_way (r := he "ת") rfl (first_mem hx₂)
          obtain rfl : w = ['ת'] := ((plain_he "ת" ..).1 hhas).1
          obtain ⟨rfl, -⟩ := List.cons_eq_cons.1 hw
          exact absurd hc (by decide)
        rw [List.nil_append, hrest, hnone, Option.getD_none] at hx₁
        rw [← hx₁]
    rw [heOfficeTail, first_opt, Option.some.injEq, hpost] at hx
    obtain ⟨x₂, hx₂⟩ := Option.ne_none_iff_exists'.1 (first_ne_none (r := cat chairEnd) rfl
      ((words_iff fun c => isHeWords_of_space).2 ⟨c, u, rfl, hc, hne, hu⟩) x₁.groups x₁.pre [])
    rw [List.append_nil] at hx₂
    have hsome : (cat [sp, .rep isHeWords 1 none true] : Pattern).first Place.part x₁.groups x₁.pre (c :: u) =
      some x₂ := hx₂
    rw [hsome, Option.getD_some] at hx
    subst hx
    exact words_onward (l := [sp]) (List.forall_mem_cons.2 ⟨isHeWords_of_space hc, hu⟩) hsome
  · exact words_onward (l := [sp]) (forall_append (heWords_in hv) hz) hx

end

theorem heParts_end : ∀ P ∈ heOfficeParts, P.2 = ministerEnd ∨ P.2 = chairEnd :=
  List.forall_mem_cons.2 ⟨Or.inl rfl, List.forall_mem_cons.2 ⟨Or.inl rfl, List.forall_mem_cons.2
    ⟨Or.inr rfl, fun _ h => absurd h List.not_mem_nil⟩⟩⟩

/-- A deputy minister's title ends in one place. -/
theorem deputy_inj {f f' u u' : List Char} (hf : (cat [he "סגן", opt (he "ית"), sp, he "שר"]).Has f)
    (hf' : (cat [he "סגן", opt (he "ית"), sp, he "שר"]).Has f') (h : f ++ u = f' ++ u') : u = u' := by
  have hform : ∀ {f}, (cat [he "סגן", opt (he "ית"), sp, he "שר"]).Has f → ∃ it s,
      f = "סגן".toList ++ (it ++ (s ++ "שר".toList)) ∧ (it = "ית".toList ∨ it = []) ∧ Run isSpace 1 none s := by
    intro f h
    obtain ⟨a, rest, rfl, rfl, h⟩ := (plain_he "סגן").cat_iff.1 h
    obtain ⟨it, rest, rfl, hit, h⟩ := (plain_he "ית").opt.cat_iff.1 h
    obtain ⟨s, b, rfl, hs, h⟩ := plain_sp.cat_iff.1 h
    obtain rfl := ((plain_he "שר" ..).1 h).1
    exact ⟨it, s, rfl, hit, hs⟩
  obtain ⟨it, s, rfl, hit, hs⟩ := hform hf
  obtain ⟨it', s', rfl, hit', hs'⟩ := hform hf'
  simp only [List.append_assoc] at h
  have h := List.append_cancel_left h
  have hspaces : ∀ {s s' u u' : List Char}, Run isSpace 1 none s → Run isSpace 1 none s' →
      s ++ ("שר".toList ++ u) = s' ++ ("שר".toList ++ u') → u = u' := by
    intro s s' u u' hs hs' h
    have hfence : ∀ u, Fenced isSpace ("שר".toList ++ u) := fun u c hc => by
      obtain rfl := Option.some.inj hc
      decide
    exact List.append_cancel_left (spaces_inj hs.1 hs'.1 (hfence u) (hfence u') h).2
  have hclash : ∀ {s z z' : List Char}, Run isSpace 1 none s → "ית".toList ++ z ≠ s ++ z' := by
    intro s z z' hs heq
    obtain ⟨c, s, rfl⟩ := List.exists_cons_of_length_pos hs.2.1
    obtain ⟨rfl, -⟩ := List.cons_eq_cons.1 heq
    exact absurd (hs.1 _ List.mem_cons_self) (by decide)
  rcases hit with rfl | rfl <;> rcases hit' with rfl | rfl
  · exact hspaces hs hs' (List.append_cancel_left h)
  · exact absurd (show "ית".toList ++ _ = s' ++ _ from h) (hclash hs')
  · exact absurd (show "ית".toList ++ _ = s ++ _ from h.symm) (hclash hs)
  · exact hspaces hs hs' h

/-- **The title of an office ends in one place.** -/
theorem heParts_inj {P P' : List Pattern × List Pattern} (hP : P ∈ heOfficeParts) (hP' : P' ∈ heOfficeParts)
    {f f' u u' : List Char} (hf : (cat P.1).Has f) (hf' : (cat P'.1).Has f') (h : f ++ u = f' ++ u') :
    P = P' ∧ u = u' := by
  have hclash : ∀ {s s' : String} (l l' : List Pattern), (cat (he s :: l)).bare = true →
      (cat (he s' :: l')).bare = true → s.toList ≠ [] → s'.toList ≠ [] →
        s.toList.head? ≠ s'.toList.head? → (cat (he s :: l)).Has f → ¬(cat (he s' :: l')).Has f' := by
    intro s s' l l' hb hb' hs hs' hne hf hf'
    have hhead := he_head ((plain_of_bare hb (fun _ => none) [] f u _).2 ⟨hf, rfl⟩) hs
    have hhead' := he_head ((plain_of_bare hb' (fun _ => none) [] f' u' _).2 ⟨hf', rfl⟩) hs'
    rw [h, hhead'] at hhead
    exact hne hhead.symm
  have hword : ∀ {s : String}, (cat [he s]).Has f → (cat [he s]).Has f' → u = u' := by
    intro s hf hf'
    obtain rfl := ((plain_he s ..).1 hf).1
    obtain rfl := ((plain_he s ..).1 hf').1
    exact List.append_cancel_left h
  simp only [heOfficeParts, List.mem_cons, List.not_mem_nil, or_false] at hP hP'
  rcases hP with rfl | rfl | rfl <;> rcases hP' with rfl | rfl | rfl
  · exact ⟨rfl, hword hf hf'⟩
  · exact absurd hf' (hclash [] _ rfl rfl (by decide) (by decide) (by decide) hf)
  · exact absurd hf' (hclash [] [] rfl rfl (by decide) (by decide) (by decide) hf)
  · exact absurd hf' (hclash _ [] rfl rfl (by decide) (by decide) (by decide) hf)
  · exact ⟨rfl, deputy_inj hf hf' h⟩
  · exact absurd hf' (hclash _ [] rfl rfl (by decide) (by decide) (by decide) hf)
  · exact absurd hf' (hclash [] [] rfl rfl (by decide) (by decide) (by decide) hf)
  · exact absurd hf' (hclash [] _ rfl rfl (by decide) (by decide) (by decide) hf)
  · exact ⟨rfl, hword hf hf'⟩

/-- What the offices need to know of a suffix without a digit. -/
structure HeWordSuffix (y : List Char) : Prop where
  begins : ∃ t, y = ' ' :: 'ב' :: t
  words : ∀ c ∈ y, isHeWords c = true ∧ c ≠ 'ר'

theorem heWordSuffix {t : List Char} (ht : (any heTimeAlts).Has t) (hd : ∀ c ∈ t, isDigit c = false) :
    HeWordSuffix (timeSuffix .he t) := by
  have hspace : ∀ {s : List Char}, Run isSpace 1 none s → ∀ c ∈ s, isHeWords c = true ∧ c ≠ 'ר' := by
    intro s hs c hc
    refine ⟨isHeWords_of_space (hs.1 c hc), ?_⟩
    rintro rfl
    exact absurd (hs.1 _ hc) (by decide)
  refine ⟨⟨t, rfl⟩, forall_append (by decide) ?_⟩
  obtain ⟨a, ha, h⟩ := Matches_any.1 ht
  unfold heTimeAlts at ha
  rcases List.mem_cons.1 ha with rfl | ha
  · have hrun : Run isDigit 4 (some 4) t := h.1
    obtain ⟨c, t, rfl⟩ := List.exists_cons_of_length_pos (Nat.lt_of_lt_of_le (by decide) hrun.2.1)
    have hc := hrun.1 c List.mem_cons_self
    rw [hd c List.mem_cons_self] at hc
    cases hc
  rcases List.mem_cons.1 ha with rfl | ha
  · obtain ⟨term, rest, rfl, rfl, h⟩ := (plain_he "הקדנציה").cat_iff.1 h
    rcases h with h | ⟨rfl, -⟩
    · obtain ⟨s, last, rfl, hs, h⟩ := plain_sp.cat_iff.1 h
      obtain rfl := ((plain_he "הקודמת" ..).1 h).1
      exact forall_append (by decide) (forall_append (hspace hs) (by decide))
    · decide
  obtain rfl := List.mem_singleton.1 ha
  obtain ⟨kn, rest, rfl, rfl, h⟩ := (plain_he "כנסת").cat_iff.1 h
  rcases h with h | ⟨rfl, -⟩
  · obtain ⟨s, rest, rfl, hs, h⟩ := plain_sp.cat_iff.1 h
    obtain ⟨prefixed, rest, rfl, rfl, h⟩ := (plain_he "ה").cat_iff.1 h
    obtain ⟨hyphen, ds, rfl, -, hds, -⟩ := (plain_he "-").opt.cat_iff.1 h
    obtain ⟨c, ds, rfl⟩ := List.exists_cons_of_length_pos hds.2.1
    have hc := hds.1 c List.mem_cons_self
    rw [hd c (by simp)] at hc
    cases hc
  · decide

theorem heOffices_needs : heOffices.Needs fun c => c = 'ר' := by
  have hneeds : ∀ {s : String}, 'ר' ∈ s.toList → (he s).Needs fun c => c = 'ר' := fun h =>
    Needs_lit.2 ⟨'ר', h, fun c hc => (charEq_iff ..).1 hc⟩
  refine Needs_any.2 (List.forall_mem_cons.2 ⟨?_, List.forall_mem_cons.2 ⟨?_, List.forall_mem_cons.2 ⟨?_,
    List.forall_mem_cons.2 ⟨?_, List.forall_mem_cons.2 ⟨?_, fun _ h => absurd h List.not_mem_nil⟩⟩⟩⟩⟩)
  · exact Needs_cat.2 ⟨he "שר", by simp, hneeds (by decide)⟩
  · exact Needs_cat.2 ⟨he "שר", by simp, hneeds (by decide)⟩
  · exact Needs_cat.2 ⟨he "ראש", by simp, hneeds (by decide)⟩
  · exact Needs_cat.2 ⟨he "חבר", by simp, hneeds (by decide)⟩
  · exact Needs_cat.2 ⟨he "יו\"ר", by simp, hneeds (by decide)⟩

theorem heFixed_last : heFixedOffices.Last fun c => c ∈ ['ה', 'ת'] := by
  have hlast : ∀ {s : String} {w : List Char} {a : Char}, s.toList = w ++ [a] → a ∈ ['ה', 'ת'] →
      (he s).Last fun c => c ∈ ['ה', 'ת'] := fun hs ha =>
    Last_lit hs fun c hc => by rwa [(charEq_iff ..).1 hc]
  refine Last_any.2 (List.forall_mem_cons.2 ⟨?_, List.forall_mem_cons.2 ⟨?_,
    fun _ h => absurd h List.not_mem_nil⟩⟩)
  · exact Last_append (l := [_, _]) (hlast (w := "הממשל".toList) rfl (by decide))
      (word_needs (by decide))
  · exact Last_append (l := [_, _, _]) (hlast (w := "כנס".toList) rfl (by decide))
      (word_needs (by decide))

/-- The text of a fixed office: its first two letters, and no `ב` behind them. -/
theorem heFixed_form {w : List Char} (h : heFixedOffices.Has w) : ∃ a b u, w = a :: b :: u ∧
    (a = 'ר' ∧ b = 'א' ∨ a = 'ח' ∧ b = 'ב') ∧ ∀ c ∈ u, c ≠ 'ב' := by
  have hspace : ∀ {s : List Char}, Run isSpace 1 none s → ∀ c ∈ s, c ≠ 'ב' := by
    rintro s hs c hc rfl
    exact absurd (hs.1 _ hc) (by decide)
  obtain ⟨a, ha, h⟩ := Matches_any.1 h
  rcases List.mem_cons.1 ha with rfl | ha
  · obtain ⟨head, rest, rfl, rfl, h⟩ := (plain_he "ראש").cat_iff.1 h
    obtain ⟨s, gov, rfl, hs, h⟩ := plain_sp.cat_iff.1 h
    obtain rfl := ((plain_he "הממשלה" ..).1 h).1
    exact ⟨'ר', 'א', 'ש' :: (s ++ "הממשלה".toList), rfl, Or.inl ⟨rfl, rfl⟩,
      List.forall_mem_cons.2 ⟨by decide, forall_append (hspace hs) (by decide)⟩⟩
  obtain rfl := List.mem_singleton.1 ha
  obtain ⟨member, rest, rfl, rfl, h⟩ := (plain_he "חבר").cat_iff.1 h
  obtain ⟨te, rest, rfl, hte, h⟩ := (plain_he "ת").opt.cat_iff.1 h
  obtain ⟨s, kn, rfl, hs, h⟩ := plain_sp.cat_iff.1 h
  obtain rfl := ((plain_he "כנסת" ..).1 h).1
  refine ⟨'ח', 'ב', 'ר' :: (te ++ (s ++ "כנסת".toList)), rfl, Or.inr ⟨rfl, rfl⟩,
    List.forall_mem_cons.2 ⟨by decide, forall_append ?_ (forall_append (hspace hs) (by decide))⟩⟩
  rcases hte with rfl | rfl <;> decide

theorem heParts_head {P : List Pattern × List Pattern} (hP : P ∈ heOfficeParts) {f : List Char}
    (hf : (cat P.1).Has f) (u : List Char) : (f ++ u).head? ∈ ['ש', 'ס', 'י'].map some := by
  have hbegin : ∀ P ∈ heOfficeParts, ∃ s l, P.1 = he s :: l ∧ s.toList ≠ [] ∧
      s.toList.head? ∈ ['ש', 'ס', 'י'].map some := by
    refine List.forall_mem_cons.2 ⟨⟨"שר", _, rfl, by decide, by decide⟩, List.forall_mem_cons.2
      ⟨⟨"סגן", _, rfl, by decide, by decide⟩, List.forall_mem_cons.2
        ⟨⟨"יו\"ר", _, rfl, by decide, by decide⟩, fun _ h => absurd h List.not_mem_nil⟩⟩⟩
  obtain ⟨s, l, hl, hne, hhead⟩ := hbegin P hP
  have hm : (cat P.1).Matches (fun _ => none) [] f u fun _ => none :=
    (plain_of_bare (heParts_bare P hP).1 ..).2 ⟨hf, rfl⟩
  rw [hl] at hm
  rwa [he_head hm hne]

theorem heOffices_disjoint {P : List Pattern × List Pattern} (hP : P ∈ heOfficeParts) {f u : List Char}
    (hf : (cat P.1).Has f) : ¬heFixedOffices.Has (f ++ u) := by
  intro h
  obtain ⟨a, b, v, heq, hab, -⟩ := heFixed_form h
  have hhead := heParts_head hP hf u
  rw [heq, List.head?_cons] at hhead
  rcases hab with ⟨rfl, -⟩ | ⟨rfl, -⟩ <;> exact absurd hhead (by decide)

/-- **An office with words of its own** goes on to the end of a text of words. -/
theorem heOffices_onward {P : List Pattern × List Pattern} (hP : P ∈ heOfficeParts) {w z : List Char}
    (h : (cat (P.1 ++ P.2)).Has w) (hz : ∀ c ∈ z, isHeWords c = true)
    (hzs : ∃ b z', z = b :: z' ∧ isSpace b = true ∧ z' ≠ []) {g : Caps GroupName} {pre : List Char}
    {x : FrontWay} (hx : heOffices.first Place.part g pre (w ++ z) = some x) : x.post = [] := by
  obtain ⟨f, v, rfl, hf, hv⟩ := (Has_append _ _ (heParts_bare P hP).1 (heParts_bare P hP).2).1 h
  rw [List.append_assoc] at hx
  -- an alternative that answers has the same title
  have hpart : ∀ P' ∈ heOfficeParts, (cat (P'.1 ++ P'.2)).first Place.part g pre (f ++ (v ++ z)) = some x →
      x.post = [] := by
    intro P' hP' hx
    obtain ⟨y, hy, hx⟩ := first_append hx
    obtain ⟨f', hpost, hf', -⟩ := has_of_way (heParts_bare P' hP').1 hy
    obtain ⟨rfl, hrest⟩ := heParts_inj hP hP' hf hf' hpost
    rw [← hrest] at hx
    exact heEnd_onward (heParts_end P hP) hv hz hzs hx
  have hfixed : ∀ {s : String} {l : List Pattern}, s.toList ≠ [] →
      s.toList.head? ∉ ['ש', 'ס', 'י'].map some →
        (cat (he s :: l)).first Place.part g pre (f ++ (v ++ z)) ≠ some x := by
    intro s l hne hs hx
    obtain ⟨u, hpost, -, hm⟩ := ways_matches (first_mem hx)
    have hhead := heParts_head hP hf (v ++ z)
    rw [hpost, he_head hm hne] at hhead
    exact hs hhead
  obtain ⟨a, ha, hx⟩ := first_any hx
  rcases List.mem_cons.1 ha with rfl | ha
  · exact hpart ([he "שר"], ministerEnd) (by simp [heOfficeParts]) hx
  rcases List.mem_cons.1 ha with rfl | ha
  · exact hpart ([he "סגן", opt (he "ית"), sp, he "שר"], ministerEnd) (by simp [heOfficeParts]) hx
  rcases List.mem_cons.1 ha with rfl | ha
  · exact absurd hx (hfixed (by decide) (by decide))
  rcases List.mem_cons.1 ha with rfl | ha
  · exact absurd hx (hfixed (by decide) (by decide))
  obtain rfl := List.mem_singleton.1 ha
  exact hpart ([he "יו\"ר"], chairEnd) (by simp [heOfficeParts]) hx

theorem heOfficeWords {y : List Char} (hy : HeWordSuffix y) : OfficeWords heOffices heFixedOffices y := by
  have hresh : ∀ {c : Char}, isSpace c = true → c ≠ 'ר' := by
    rintro c hc rfl
    exact absurd hc (by decide)
  refine ⟨rfl, fun b hb h => ?_, fun {w e q r} hw hr h => ?_, fun {w r g pre x} hw hnot hr hx => ?_⟩
  · obtain ⟨c, hc, rfl⟩ := heOffices_needs.exists_mem h
    exact (hb _ hc).elim (fun hspace => hresh hspace rfl) fun hmem => (hy.words _ hmem).2 rfl
  · have he : e ∈ ['ה', 'ת'] := heFixed_last.concat hw
    have hplain : ∀ e ∈ ['ה', 'ת'], isSpace e = false ∧ e ≠ 'ר' ∧ e ∉ ['ר', 'ח', 'א', 'ב'] := by decide
    obtain ⟨hespace, hemark, hefirst⟩ := hplain e he
    rcases heOffices_iff.1 h with ⟨P, hP, h⟩ | hfixed
    · obtain ⟨hb, hb'⟩ := heParts_bare P hP
      obtain ⟨f, d, rfl, hf, hd⟩ := front_cut hb hb' (heParts_last P hP) hemark
        (forall_append (fun c hc => hresh (hr c hc)) fun c hc => (hy.words c hc).2) h
      have hcut : (cat (P.1 ++ P.2)).Has (f ++ d ++ [e]) :=
        (Has_append _ _ hb hb').2 ⟨f, d ++ [e], List.append_assoc .., hf,
          heEnd_cut (heParts_end P hP) hespace hd⟩
      refine ⟨heOffices_iff.2 (Or.inl ⟨P, hP, hcut⟩), ?_⟩
      rw [List.append_assoc]
      exact heOffices_disjoint hP hf
    · exfalso
      obtain ⟨a, b, u, heq, hab, hu⟩ := heFixed_form hfixed
      cases q with
      | nil =>
        obtain ⟨rfl, -⟩ := List.cons_eq_cons.1 heq
        rcases hab with ⟨rfl, -⟩ | ⟨rfl, -⟩ <;> exact absurd hefirst (by decide)
      | cons a' q =>
        cases q with
        | nil =>
          obtain ⟨-, heq⟩ := List.cons_eq_cons.1 heq
          obtain ⟨rfl, -⟩ := List.cons_eq_cons.1 heq
          rcases hab with ⟨-, rfl⟩ | ⟨-, rfl⟩ <;> exact absurd hefirst (by decide)
        | cons b' q =>
          obtain ⟨-, heq⟩ := List.cons_eq_cons.1 heq
          obtain ⟨-, rfl⟩ := List.cons_eq_cons.1 heq
          obtain ⟨t, rfl⟩ := hy.begins
          exact hu 'ב' (by simp) rfl
  · obtain ⟨P, hP, hw⟩ := (heOffices_iff.1 hw).resolve_right hnot
    refine heOffices_onward hP hw (forall_append (fun c hc => isHeWords_of_space (hr c hc))
      fun c hc => (hy.words c hc).1) ?_ hx
    obtain ⟨t, rfl⟩ := hy.begins
    cases r with
    | nil => exact ⟨' ', 'ב' :: t, rfl, by decide, by simp⟩
    | cons b r => exact ⟨b, r ++ ' ' :: 'ב' :: t, rfl, hr b List.mem_cons_self, by simp⟩

end CivicProof
