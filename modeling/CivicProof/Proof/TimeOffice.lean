import CivicProof.Proof.TimeKept

/-!
# Time suffixes behind offices

The words of an office can go on, unless the office is one of the fixed ones.

* `OfficeWords`: what the offices of a template make of a suffix.
* `office_kept_iff`: a suffix without a digit stays apart from the fixed offices only.
-/

namespace CivicProof

open Regex Re

/-! ## Offices and a suffix -/

/-- What the offices `o` of a template make of a suffix `y`: a fixed office ends before it, any other
goes on to its end. -/
structure OfficeWords (o fixed : Pattern) (y : List Char) : Prop where
  bare : o.bare = true
  inside : ∀ b, (∀ c ∈ b, isSpace c = true ∨ c ∈ y) → ¬o.Has b
  cut : ∀ {w e p r}, fixed.Has (w ++ [e]) → (∀ c ∈ r, isSpace c = true) →
    o.Has (p ++ e :: (r ++ y)) → o.Has (p ++ [e]) ∧ ¬fixed.Has (p ++ [e])
  onward : ∀ {w r g pre x}, o.Has w → ¬fixed.Has w → (∀ c ∈ r, isSpace c = true) →
    o.first Place.part g pre (w ++ (r ++ y)) = some x → x.post = []

section

variable {o fixed : Pattern} {y : List Char} {l : List Pattern} {T : Pattern} {t s : List Char}
  {m : Match GroupName} (W : OfficeWords o fixed y)

include W

/-- An office that takes the suffix in begins before the end of the fixed one. -/
theorem OfficeWords.cut_suffix {z w r p : List Char} {e : Char} (hw : fixed.Has (w ++ [e]))
    (hr : ∀ c ∈ r, isSpace c = true) (hp : p <:+ z ++ e :: r) (h : o.Has (p ++ y)) :
    ∃ q, p = q ++ [e] ++ r ∧ o.Has (q ++ [e]) := by
  obtain ⟨a, ha⟩ := hp
  have hspace : ∀ {b}, r = b ++ p → False := by
    intro b hb
    refine W.inside (p ++ y) (fun c hc => ?_) h
    exact (List.mem_append.1 hc).imp (fun hc => hr c (by rw [hb]; exact List.mem_append_right b hc)) id
  rcases List.append_eq_append_iff.1 ha with ⟨q, -, hq⟩ | ⟨b, -, hb⟩
  · refine ⟨q, by rw [hq]; simp, (W.cut hw hr ?_).1⟩
    rw [hq] at h
    simpa using h
  · cases b with
    | nil =>
      obtain rfl : e :: r = p := hb
      exact ⟨[], rfl, (W.cut (p := []) hw hr h).1⟩
    | cons c b => exact (hspace (List.cons_eq_cons.1 hb).2).elim

/-- A way through the office takes an office. -/
theorem OfficeWords.has_of_way {h x : FrontWay} (hx : x ∈ waysFrom [.group .office o] h) :
    ∃ w, h.post = w ++ x.post ∧ o.Has w ∧ x.groups = Function.update h.groups .office (some w) := by
  obtain ⟨w, hpost, -, g, hm, hg⟩ := ways_matches hx
  obtain ⟨hw, rfl⟩ := (plain_of_bare W.bare ..).1 hm
  exact ⟨w, hpost, hw, hg⟩

/-- The office of a match, and what follows it. -/
theorem OfficeWords.office (P : Located l [.group .office o] T s m) :
    ∃ w, P.lead.head.post = w ++ P.lead.last.post ∧ o.Has w ∧ m.groups .office = some w := by
  have hmem : P.lead.last ∈ waysFrom [.group .office o] P.lead.head := by
    rw [P.lead.rest_eq]
    exact List.mem_append_right _ List.mem_cons_self
  obtain ⟨w, hpost, hw, hg⟩ := W.has_of_way hmem
  exact ⟨w, hpost, hw, by rw [P.groups, hg, Function.update_self]⟩

theorem OfficeWords.ne_nil {w : List Char} (h : o.Has w) : w ≠ [] := by
  rintro rfl
  exact W.inside [] (fun c hc => absurd hc List.not_mem_nil) h

/-- **A fixed office** keeps the suffix out. -/
theorem OfficeWords.fixed_apart (hT : ReadBack T y t) (hF : Untimed l [.group .office o]) (P : Located l [.group .office o] T s m)
    (K : P.lead.Longer y) (hfixed : ∃ w, m.groups .office = some w ∧ fixed.Has w) :
    ¬K.Absorbed ∧ ∀ u v, s = u ++ v → u.length < P.before.length →
      ∀ g, ¬(cat (l ++ [.group .office o])).Matches (fun _ => none) u.reverse (v ++ y) [] g := by
  obtain ⟨w, hpost, hw, hoffice⟩ := W.office P
  obtain ⟨w', hw', hfixed⟩ := hfixed
  obtain rfl : w = w' := Option.some.inj (hoffice.symm.trans hw')
  obtain ⟨w, e, rfl⟩ : ∃ w₀ e, w = w₀ ++ [e] :=
    ⟨_, _, (List.dropLast_append_getLast (W.ne_nil hw)).symm⟩
  have hclean : ∀ c ∈ P.lead.last.post, isSpace c = true := P.lead.clean
  -- the text up to the office
  obtain ⟨a, htext⟩ : ∃ a, P.text = a ++ P.lead.head.post := by
    have hmem : P.lead.head ∈ (cat l).ways Place.part (fun _ => none) P.before.reverse P.text := by
      rw [P.lead.head_eq]
      exact List.mem_append_right _ List.mem_cons_self
    obtain ⟨a, ha⟩ := suffix_of_way hmem
    exact ⟨a, ha.symm⟩
  have htext' : P.text = (a ++ w) ++ e :: P.lead.last.post := htext.trans (by rw [hpost]; simp)
  have hgroup : ∀ {q r : List Char} (g : Caps GroupName) (pre : List Char), o.Has q →
      (cat [.group .office o]).Matches g pre q r (Function.update g .office (some q)) :=
    fun g pre h => ⟨g, (plain_of_bare W.bare ..).2 ⟨h, rfl⟩, rfl⟩
  refine ⟨?_, fun u v hs hlt g hm => ?_⟩
  · rintro (⟨h, hh, x, hx, hnil⟩ | ⟨x, hx, hnil⟩)
    · obtain ⟨b, hb, hhas, -⟩ := W.has_of_way hx
      rw [hnil, List.append_nil] at hb
      rw [← hb] at hhas
      have hsuffix : h.post <:+ P.text ++ y := by
        have hmem : h ∈ (cat l).ways Place.part (fun _ => none) P.before.reverse (P.text ++ y) := by
          rw [K.head_eq]
          exact List.mem_append_left _ hh
        exact suffix_of_way hmem
      rcases K.old_head h hh with ⟨h₀, hh₀, rfl⟩ | hlt
      · obtain ⟨q, hq, hhas'⟩ := W.cut_suffix hfixed hclean
          (htext' ▸ List.suffix_append_self_iff.1 hsuffix) hhas
        exact P.lead.no_clean hh₀ hq hclean (hgroup _ _ hhas')
      · have hinside : h.post <:+ y := List.suffix_of_suffix_length_le hsuffix
          (List.suffix_append P.text y) (Nat.le_of_lt hlt)
        exact W.inside _ (fun c hc => Or.inr (hinside.subset hc)) hhas
    · have hway : x ∈ waysFrom [.group .office o] (P.lead.head.ahead y) := by
        rw [K.rest_eq]
        exact List.mem_append_left _ hx
      obtain ⟨b, hb, hhas, -⟩ := W.has_of_way hway
      rw [hnil, List.append_nil] at hb
      have hwhole : b = w ++ e :: (P.lead.last.post ++ y) := by
        rw [← hb, Way.ahead, hpost]
        simp
      exact (W.cut hfixed hclean (hwhole ▸ hhas)).2 hfixed
  · obtain ⟨a', b, g₁, hv, hl, hb⟩ := Matches_append.1 hm
    obtain ⟨g₂, hhas, -⟩ := hb
    have hhas := ((plain_of_bare W.bare ..).1 hhas).1
    rcases List.append_eq_append_iff.1 hv with ⟨c, -, rfl⟩ | ⟨p, rfl, rfl⟩
    · exact W.inside b (fun d hd => Or.inr (List.mem_append_right c hd)) hhas
    · have hs' : u ++ (a' ++ p) = (P.before ++ (a ++ w)) ++ e :: P.lead.last.post :=
        (hs.symm.trans (P.eq.trans (congrArg (P.before ++ ·) htext'))).trans (List.append_assoc ..).symm
      have hsuffix : p <:+ (P.before ++ (a ++ w)) ++ e :: P.lead.last.post :=
        ⟨u ++ a', by rw [← hs', List.append_assoc]⟩
      obtain ⟨q, rfl, hhas'⟩ := W.cut_suffix hfixed hclean hsuffix hhas
      refine P.no_earlier hT (q := a' ++ (q ++ [e])) (hs.trans (by simp)) hlt hclean (Matches_append.2
        ⟨a', q ++ [e], g₁, rfl, hl.around hF.blind _ _, hgroup _ _ hhas'⟩)

/-- **Any other office** takes it in. -/
theorem OfficeWords.other_absorbs (hT : ReadBack T y t) (P : Located l [.group .office o] T s m)
    (K : P.lead.Longer y) (hother : ¬∃ w, m.groups .office = some w ∧ fixed.Has w) : K.Absorbed := by
  obtain ⟨w, hpost, hw, hoffice⟩ := W.office P
  have hclean : ∀ c ∈ P.lead.last.post, isSpace c = true := P.lead.clean
  have hnot : ¬fixed.Has w := fun h => hother ⟨w, hoffice, h⟩
  have hway : ∀ {x}, (waysFrom [.group .office o] (P.lead.head.ahead y)).head? = some x → x.post = [] := by
    intro x hx
    have hfirst : (Re.group .office o).first Place.part (P.lead.head.ahead y).groups
        (P.lead.head.ahead y).pre (w ++ (P.lead.last.post ++ y)) = some x := by
      rw [← List.append_assoc, ← hpost]
      exact hx
    obtain ⟨z, hz, rfl⟩ := first_group hfirst
    have hnil : z.post = [] := W.onward hw hnot hclean hz
    exact hnil
  rw [K.rest_eq] at hway
  cases hrests : K.rests with
  | nil =>
    rw [hrests] at hway
    have hnil : P.lead.last.post ++ y = [] := hway rfl
    exact absurd (List.append_eq_nil_iff.1 hnil).2 hT.plain.ne_nil
  | cons x rests =>
    rw [hrests] at hway
    exact Or.inr ⟨x, by rw [hrests]; exact List.mem_cons_self, hway rfl⟩

end

/-! ## The law -/

section

variable {tmpl : RuleTemplate} {o fixed : Pattern} {l : List Pattern} {T : Pattern} {s t : List Char}
  {m : Match GroupName}

/-- **The law for a template with an office** at its end. -/
theorem office_kept_iff (ht : tmpl ∈ ruleTemplates) (hphrase : TimePhrase tmpl t)
    (hpattern : tmpl.pattern = cat (l ++ [.group .office o] ++ [T, sentenceEnd]))
    (hF : Untimed l [.group .office o]) (hT : ReadBack T (timeSuffix tmpl.language t) t)
    (hm : tmpl.pattern.search s = some m) (htime : m.groups .time = none) (hmark : NoMark s)
    (hplain : (cat (l ++ [.group .office o])).Within NonDigit)
    (hW : (∀ c ∈ t, isDigit c = false) → OfficeWords o fixed (timeSuffix tmpl.language t)) :
    TimeKept tmpl s t (ofMatch tmpl m) ↔
      (∃ c ∈ t, isDigit c = true) ∨ ∃ w, m.groups .office = some w ∧ fixed.Has w := by
  by_cases hd : ∃ c ∈ t, isDigit c = true
  · refine iff_of_true ?_ (Or.inl hd)
    obtain ⟨c, hc, hdigit⟩ := hd
    refine kept_of_closed ht hphrase hpattern hF hT hm htime hmark fun v pre g hg => ?_
    have hmem : c ∈ timeSuffix tmpl.language t := by
      cases tmpl.language <;> exact List.mem_append_right _ hc
    have hnot : isDigit c = false := hplain.forall_mem hg c (List.mem_append_right v hmem)
    rw [hdigit] at hnot
    cases hnot
  · have W := hW fun c hc => by
      rw [Bool.eq_false_iff]
      exact fun hdigit => hd ⟨c, hc, hdigit⟩
    rw [or_iff_right hd]
    exact kept_iff ht hphrase hpattern hF hT hm htime hmark fun P K =>
      ⟨W.fixed_apart hT hF P K, W.other_absorbs hT P K⟩

end

/-! ## Where the words of an office are cut -/

section

variable {F R : List Pattern} {K : Char → Prop} {p : Char → Bool} {q z d w : List Char} {e : Char}

/-- Up to its last own word, an office stands before a text without the end of that word. -/
theorem front_cut (hF : (cat F).bare = true) (hR : (cat R).bare = true) (hlast : (cat F).Last K)
    (he : ¬K e) (hz : ∀ c ∈ z, ¬K c)
    (h : (cat (F ++ R)).Has (q ++ e :: z)) :
    ∃ f d, q = f ++ d ∧ (cat F).Has f ∧ (cat R).Has (d ++ e :: z) := by
  obtain ⟨f, v, heq, hf, hv⟩ := (Has_append F R hF hR).1 h
  rcases List.append_eq_append_iff.1 heq with ⟨c, rfl, hc⟩ | ⟨d, rfl, rfl⟩
  · rcases List.eq_nil_or_concat c with rfl | ⟨c, k, rfl⟩
    · obtain rfl : e :: z = v := hc
      exact ⟨q, [], (List.append_nil q).symm, by rwa [List.append_nil] at hf, hv⟩
    · exfalso
      rw [List.concat_eq_append, ← List.append_assoc] at hf
      have hk : K k := hlast.concat hf
      have hmem : k ∈ e :: z := by rw [hc]; simp
      rcases List.mem_cons.1 hmem with rfl | hmem
      · exact he hk
      · exact hz k hmem hk
  · exact ⟨f, d, rfl, hf, hv⟩

/-- White space and words: one space, and whatever is white space or a word. -/
theorem words_iff (hp : ∀ c, isSpace c = true → p c = true) :
    (cat [sp, .rep p 1 none true]).Has w ↔
      ∃ c u, w = c :: u ∧ isSpace c = true ∧ u ≠ [] ∧ ∀ d ∈ u, p d = true := by
  constructor
  · intro h
    obtain ⟨s, u, rfl, hs, h⟩ := plain_sp.cat_iff.1 h
    obtain ⟨hu, -⟩ := (Plain_rep (p := p) ..).1 h
    obtain ⟨c, s, rfl⟩ := List.exists_cons_of_length_pos hs.2.1
    have hne : u ≠ [] := List.ne_nil_of_length_pos hu.2.1
    exact ⟨c, s ++ u, rfl, hs.1 c List.mem_cons_self, List.append_ne_nil_of_right_ne_nil s hne,
      forall_append (fun d hd => hp d (hs.1 d (List.mem_cons_of_mem _ hd))) hu.1⟩
  · rintro ⟨c, u, rfl, hc, hne, hu⟩
    refine plain_sp.cat_iff.2 ⟨[c], u, rfl, ⟨fun d hd => ?_, le_refl 1, by simp⟩, ?_⟩
    · rwa [List.mem_singleton.1 hd]
    · exact (Plain_rep (p := p) ..).2 ⟨⟨hu, List.length_pos_of_ne_nil hne, by simp⟩, rfl⟩

/-- Words are cut behind a letter. -/
theorem words_cut (hp : ∀ c, isSpace c = true → p c = true) (he : isSpace e = false)
    (h : (cat [sp, .rep p 1 none true]).Has (d ++ e :: z)) :
    (cat [sp, .rep p 1 none true]).Has (d ++ [e]) := by
  obtain ⟨c, u, heq, hc, -, hu⟩ := (words_iff hp).1 h
  cases d with
  | nil =>
    obtain ⟨rfl, -⟩ := List.cons_eq_cons.1 heq
    rw [he] at hc
    cases hc
  | cons c' d =>
    obtain ⟨rfl, rfl⟩ := List.cons_eq_cons.1 heq
    refine (words_iff hp).2 ⟨c', d ++ [e], rfl, hc, by simp, fun x hx => hu x ?_⟩
    rcases List.mem_append.1 hx with hx | hx
    · exact List.mem_append_left _ hx
    · rw [List.mem_singleton.1 hx]
      simp

/-- Words that can go on to the end of a text do. -/
theorem words_onward {l : List Pattern} {g : Caps GroupName} {pre : List Char} {x : FrontWay}
    (hz : ∀ c ∈ z, p c = true)
    (h : (cat (l ++ [.rep p 1 none true])).first Place.part g pre z = some x) : x.post = [] :=
  first_to_end (fun _ hy c hc => hz c ((suffix_of_way hy).subset hc)) h

end

end CivicProof
