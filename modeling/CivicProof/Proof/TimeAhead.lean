import CivicProof.Proof.TimeSuffix

/-!
# A match with a suffix ahead

A statement that a template matches without a time is read again with a time phrase behind it. What
stands in front of the time is matched as before, unless the front of the template can take the phrase
in.

* `exists_located`: a match without a time and a mark is the first clean way through the front.
* `Located.kept`: the time is read, if no way that is tried before takes the suffix in.
* `Located.lost`: if one does, there is no time.
-/

namespace CivicProof

open Regex Re

/-! ## The front of a template -/

/-- A way through the front of a template. -/
abbrev FrontWay := Way GroupName (List Char)

/-- Only white space follows. -/
def Clean (x : FrontWay) : Prop := ∀ c ∈ x.post, isSpace c = true

/-- The ways through the second part of a front from a way through the first. -/
def waysFrom (l : List Pattern) (h : FrontWay) : List FrontWay :=
  (cat l).ways Place.part h.groups h.pre h.post

/-- **The first clean way through a front** in two parts. -/
structure Lead (l l' : List Pattern) (pre post : List Char) where
  heads : List FrontWay
  head : FrontWay
  heads' : List FrontWay
  rests : List FrontWay
  last : FrontWay
  rests' : List FrontWay
  head_eq : (cat l).ways Place.part (fun _ => none) pre post = heads ++ head :: heads'
  rest_eq : waysFrom l' head = rests ++ last :: rests'
  clean : Clean last
  no_head : ∀ h ∈ heads, ∀ x ∈ waysFrom l' h, ¬Clean x
  no_rest : ∀ x ∈ rests, ¬Clean x

section

variable {T : Pattern} {y t : List Char} {l l' front : List Pattern} {pre post : List Char}
  {m : Match GroupName}

/-- A match of a template: the first way through the front from which the rest goes on. -/
theorem matchAt_front : (cat (front ++ [T, sentenceEnd])).matchAt pre post =
    (((cat front).ways Place.part (fun _ => none) pre post).findSome? fun x =>
      (back T).first Place.part x.groups x.pre x.post).map fun z =>
        ⟨z.groups, pre.length, z.pre.length⟩ := by
  rw [matchAt_eq_first, Re.first, ways_append, List.head?_flatMap]
  rfl

theorem matchAt_heads : (cat (l ++ l' ++ [T, sentenceEnd])).matchAt pre post =
    (((cat l).ways Place.part (fun _ => none) pre post).findSome? fun h =>
      (waysFrom l' h).findSome? fun x =>
        (back T).first Place.part x.groups x.pre x.post).map fun z =>
          ⟨z.groups, pre.length, z.pre.length⟩ := by
  rw [matchAt_front, ways_append, findSome?_flatMap]
  rfl

theorem first_isSome {g g' : Caps GroupName} {w : List Char} (h : (back T).Matches g pre w [] g') :
    ((back T).first Place.part g pre w).isSome := by
  have hmem := mem_ways h
  rw [List.append_nil] at hmem
  exact List.isSome_head?.2 (List.ne_nil_of_mem hmem)

theorem back_of_first {g : Caps GroupName} {z : FrontWay}
    (h : (back T).first Place.part g pre post = some z) : (back T).Matches g pre post [] z.groups := by
  obtain ⟨w, hpost, -, hm⟩ := ways_matches (first_mem h)
  have hnil := back_post_eq_nil hm
  rw [hnil, List.append_nil] at hpost
  rw [hpost]
  rw [hnil] at hm
  exact hm

variable (hT : ReadBack T y t)

include hT

/-- **A match without a time and a mark** is the first clean way through the front. -/
theorem exists_lead {a : List Char} (hm : (cat (l ++ l' ++ [T, sentenceEnd])).matchAt pre post = some m)
    (htime : m.groups .time = none) (hmark : NoMark (a ++ post)) :
    ∃ L : Lead l l' pre post, m.groups = L.last.groups := by
  rw [matchAt_heads, Option.map_eq_some_iff] at hm
  obtain ⟨z, hfound, rfl⟩ := hm
  obtain ⟨heads, h, heads', hhead, hfrom, hno⟩ := List.findSome?_eq_some_iff.1 hfound
  obtain ⟨rests, x, rests', hrest, hz, hno'⟩ := List.findSome?_eq_some_iff.1 hfrom
  have hunclean : ∀ x : FrontWay, (back T).first Place.part x.groups x.pre x.post = none → ¬Clean x := by
    intro x hnone hclean
    have hsome := first_isSome (hT.back_space x.groups x.pre hclean)
    rw [hnone] at hsome
    cases hsome
  have hx : ∃ b, post = b ++ x.post := by
    have hmem : h ∈ (cat l).ways Place.part (fun _ => none) pre post := by
      rw [hhead]
      exact List.mem_append_right _ List.mem_cons_self
    have hmem' : x ∈ waysFrom l' h := by
      rw [hrest]
      exact List.mem_append_right _ List.mem_cons_self
    obtain ⟨u, rfl, -⟩ := ways_matches hmem
    obtain ⟨v, hv, -⟩ := ways_matches hmem'
    exact ⟨u ++ v, by rw [hv, List.append_assoc]⟩
  obtain ⟨b, rfl⟩ := hx
  rw [← List.append_assoc] at hmark
  obtain ⟨hclean, hgroups⟩ := hT.space_of_back (back_of_first hz) htime hmark
  exact ⟨⟨heads, h, heads', rests, x, rests', hhead, hrest, hclean,
    fun h hh x hx => hunclean x (List.findSome?_eq_none_iff.1 (hno h hh) x hx),
    fun x hx => hunclean x (hno' x hx)⟩, hgroups⟩

end

/-- The lead of a text in the text with the suffix behind it. -/
structure Lead.Longer {l l' : List Pattern} {pre post : List Char} (L : Lead l l' pre post)
    (y : List Char) where
  heads : List FrontWay
  heads' : List FrontWay
  rests : List FrontWay
  rests' : List FrontWay
  head_eq : (cat l).ways Place.part (fun _ => none) pre (post ++ y) =
    heads ++ L.head.ahead y :: heads'
  rest_eq : waysFrom l' (L.head.ahead y) = rests ++ L.last.ahead y :: rests'
  old_head : ∀ h ∈ heads, (∃ h₀ ∈ L.heads, h = h₀.ahead y) ∨ h.post.length < y.length
  old_rest : ∀ x ∈ rests, (∃ x₀ ∈ L.rests, x = x₀.ahead y) ∨ x.post.length < y.length

section

variable {T : Pattern} {y t : List Char} {l l' : List Pattern} {pre post : List Char}
  {L : Lead l l' pre post} {m : Match GroupName}

theorem Lead.exists_longer (L : Lead l l' pre post) (hl : (cat l).blind = true)
    (hl' : (cat l').blind = true) (y : List Char) : Nonempty (L.Longer y) := by
  obtain ⟨heads, heads', hhead, hold⟩ := ways_split hl y L.head_eq
  obtain ⟨rests, rests', hrest, hold'⟩ := ways_split hl' y L.rest_eq
  exact ⟨⟨heads, heads', rests, rests', hhead, hrest, hold, hold'⟩⟩

/-- A way that is tried before takes the suffix in. -/
def Lead.Longer.Absorbed (K : L.Longer y) : Prop :=
  (∃ h ∈ K.heads, ∃ x ∈ waysFrom l' h, x.post = []) ∨ ∃ x ∈ K.rests, x.post = []

theorem suffix_of_way {a : Pattern} {g : Caps GroupName} {x : FrontWay}
    (h : x ∈ a.ways Place.part g pre post) : x.post <:+ post := by
  obtain ⟨w, hpost, -⟩ := ways_matches h
  exact ⟨w, hpost.symm⟩

/-- A way with all of the suffix ahead is a way through the text itself. -/
theorem early_way {a : Pattern} (ha : a.blind = true) {g : Caps GroupName} {x : FrontWay} {r : List Char}
    (h : x ∈ a.ways Place.part g pre (post ++ y)) (hx : x.post = r ++ y) :
    ∃ x₀ ∈ a.ways Place.part g pre post, x = x₀.ahead y ∧ x₀.post = r := by
  have hmem : x ∈ (a.ways Place.part g pre (post ++ y)).filter (Way.early y.length) := by
    refine List.mem_filter.2 ⟨h, ?_⟩
    rw [Way.early, hx, List.length_append, decide_eq_true_iff]
    omega
  rw [ways_extend y ha] at hmem
  obtain ⟨x₀, hx₀, rfl⟩ := List.mem_map.1 hmem
  exact ⟨x₀, hx₀, rfl, List.append_cancel_right hx⟩

variable (hT : ReadBack T y t)

include hT

/-- From a way tried before, the search goes on only where the suffix is taken in. -/
theorem Lead.Longer.head_stuck (K : L.Longer y) (hl' : (cat l').blind = true) {h x z : FrontWay}
    (hh : h ∈ K.heads) (hx : x ∈ waysFrom l' h)
    (hz : (back T).first Place.part x.groups x.pre x.post = some z) : x.post = [] := by
  have hsuffix : x.post <:+ post ++ y := by
    have hway : h ∈ (cat l).ways Place.part (fun _ => none) pre (post ++ y) := by
      rw [K.head_eq]
      exact List.mem_append_left _ hh
    exact (suffix_of_way hx).trans (suffix_of_way hway)
  rcases hT.back_cases hsuffix (back_of_first hz) with ⟨hnil, -⟩ | ⟨r, hr, hspace, -⟩
  · exact hnil
  · exfalso
    rcases K.old_head h hh with ⟨h₀, hh₀, rfl⟩ | hlt
    · obtain ⟨x₀, hx₀, -, rfl⟩ := early_way hl' hx hr
      exact L.no_head h₀ hh₀ x₀ hx₀ hspace
    · have hlen := (suffix_of_way hx).length_le
      rw [hr, List.length_append] at hlen
      omega

theorem Lead.Longer.rest_stuck (K : L.Longer y) {x z : FrontWay} (hx : x ∈ K.rests)
    (hz : (back T).first Place.part x.groups x.pre x.post = some z) : x.post = [] := by
  have hsuffix : x.post <:+ L.head.post ++ y := by
    have hway : x ∈ waysFrom l' (L.head.ahead y) := by
      rw [K.rest_eq]
      exact List.mem_append_left _ hx
    exact suffix_of_way hway
  rcases hT.back_cases hsuffix (back_of_first hz) with ⟨hnil, -⟩ | ⟨r, hr, hspace, -⟩
  · exact hnil
  · exfalso
    rcases K.old_rest x hx with ⟨x₀, hx₀, rfl⟩ | hlt
    · obtain rfl : x₀.post = r := List.append_cancel_right hr
      exact L.no_rest x₀ hx₀ hspace
    · rw [hr, List.length_append] at hlt
      omega

/-- **The match goes on into the suffix** if no way that is tried before takes it in. -/
theorem Lead.Longer.matchAt_extend (K : L.Longer y) (hl' : (cat l').blind = true) (h : ¬K.Absorbed) :
    ∃ m', (cat (l ++ l' ++ [T, sentenceEnd])).matchAt pre (post ++ y) = some m' ∧
      m'.groups = Function.update L.last.groups .time (some t) := by
  obtain ⟨z, hz⟩ := Option.isSome_iff_exists.1
    (first_isSome (hT.back_reads (L.last.ahead y).groups (L.last.ahead y).pre L.clean))
  have hfrom : (waysFrom l' (L.head.ahead y)).findSome? (fun x =>
      (back T).first Place.part x.groups x.pre x.post) = some z := by
    refine List.findSome?_eq_some_iff.2 ⟨_, _, _, K.rest_eq, hz, fun x hx => ?_⟩
    refine Option.eq_none_iff_forall_ne_some.2 fun z' hz' => h (Or.inr ⟨x, hx, ?_⟩)
    exact K.rest_stuck hT hx hz'
  have hfound : ((cat l).ways Place.part (fun _ => none) pre (post ++ y)).findSome? (fun h =>
      (waysFrom l' h).findSome? fun x => (back T).first Place.part x.groups x.pre x.post) = some z := by
    refine List.findSome?_eq_some_iff.2 ⟨_, _, _, K.head_eq, hfrom, fun h' hh' => ?_⟩
    refine List.findSome?_eq_none_iff.2 fun x hx => ?_
    refine Option.eq_none_iff_forall_ne_some.2 fun z' hz' => h (Or.inl ⟨h', hh', x, hx, ?_⟩)
    exact K.head_stuck hT hl' hh' hx hz'
  refine ⟨⟨z.groups, pre.length, z.pre.length⟩, ?_, (hT.back_only (back_of_first hz)).2⟩
  rw [matchAt_heads, hfound]
  rfl

/-- In the longer text there is a match in any case. -/
theorem Lead.Longer.matchAt_ne_none (K : L.Longer y) :
    (cat (l ++ l' ++ [T, sentenceEnd])).matchAt pre (post ++ y) ≠ none := by
  rw [Ne, matchAt_heads, Option.map_eq_none_iff]
  intro hnone
  have hhead : L.head.ahead y ∈ (cat l).ways Place.part (fun _ => none) pre (post ++ y) := by
    rw [K.head_eq]
    exact List.mem_append_right _ List.mem_cons_self
  have hlast : L.last.ahead y ∈ waysFrom l' (L.head.ahead y) := by
    rw [K.rest_eq]
    exact List.mem_append_right _ List.mem_cons_self
  have hsome := first_isSome (hT.back_reads (L.last.ahead y).groups (L.last.ahead y).pre L.clean)
  have hstuck := List.findSome?_eq_none_iff.1 (List.findSome?_eq_none_iff.1 hnone _ hhead) _ hlast
  exact absurd hstuck (Option.isSome_iff_ne_none.1 hsome)

/-- **If one does, there is no time** in the match. -/
theorem Lead.Longer.no_time (K : L.Longer y) (hl' : (cat l').blind = true) (h : K.Absorbed)
    (hfree : (cat l).avoids .time = true) (hfree' : (cat l').avoids .time = true)
    (hm : (cat (l ++ l' ++ [T, sentenceEnd])).matchAt pre (post ++ y) = some m) :
    m.groups .time = none := by
  rw [matchAt_heads, Option.map_eq_some_iff] at hm
  obtain ⟨z, hz, rfl⟩ := hm
  -- a way that takes the suffix in answers
  have hanswers : ∀ x : FrontWay, x.post = [] →
      (back T).first Place.part x.groups x.pre x.post ≠ none := by
    intro x hx hnone
    have hsome := first_isSome (hT.back_space x.groups x.pre (r := x.post) (by simp [hx]))
    rw [hnone] at hsome
    cases hsome
  have hfrom : (∃ h ∈ K.heads, ∃ x ∈ waysFrom l' h,
      (back T).first Place.part x.groups x.pre x.post = some z) ∨
      ∃ x ∈ K.rests, (back T).first Place.part x.groups x.pre x.post = some z := by
    rw [K.head_eq, List.findSome?_append, Option.or_eq_some_iff] at hz
    rcases hz with hz | ⟨hnone, hz⟩
    · obtain ⟨h', hh', hz⟩ := List.exists_of_findSome?_eq_some hz
      obtain ⟨x, hx, hz⟩ := List.exists_of_findSome?_eq_some hz
      exact Or.inl ⟨h', hh', x, hx, hz⟩
    · rcases h with ⟨h', hh', x, hx, hnil⟩ | ⟨x, hx, hnil⟩
      · exact absurd (List.findSome?_eq_none_iff.1 (List.findSome?_eq_none_iff.1 hnone h' hh') x hx)
          (hanswers x hnil)
      · rw [List.findSome?_cons, K.rest_eq, List.findSome?_append] at hz
        cases hrests : K.rests.findSome? fun x =>
            (back T).first Place.part x.groups x.pre x.post with
        | none => exact absurd (List.findSome?_eq_none_iff.1 hrests x hx) (hanswers x hnil)
        | some z' =>
          rw [hrests, Option.some_or] at hz
          obtain rfl := Option.some.inj hz
          exact Or.inr (List.exists_of_findSome?_eq_some hrests)
  have hgroups : ∃ h x : FrontWay, h ∈ (cat l).ways Place.part (fun _ => none) pre (post ++ y) ∧
      x ∈ waysFrom l' h ∧ x.post = [] ∧ (back T).first Place.part x.groups x.pre x.post = some z := by
    rcases hfrom with ⟨h', hh', x, hx, hz⟩ | ⟨x, hx, hz⟩
    · refine ⟨h', x, ?_, hx, K.head_stuck hT hl' hh' hx hz, hz⟩
      rw [K.head_eq]
      exact List.mem_append_left _ hh'
    · refine ⟨L.head.ahead y, x, ?_, ?_, K.rest_stuck hT hx hz, hz⟩
      · rw [K.head_eq]
        exact List.mem_append_right _ List.mem_cons_self
      · rw [K.rest_eq]
        exact List.mem_append_left _ hx
  obtain ⟨h', x, hh', hx, hnil, hz⟩ := hgroups
  have hback := back_of_first hz
  rw [hnil] at hback
  dsimp only
  rw [hT.back_nil hback, ways_groups_of_avoids hfree' hx, ways_groups_of_avoids hfree hh']

end

/-! ## Statements -/

/-- A match of a template in a statement, without a time: where it begins, and the way it takes. -/
structure Located (l l' : List Pattern) (T : Pattern) (s : List Char) (m : Match GroupName) where
  before : List Char
  text : List Char
  eq : s = before ++ text
  lead : Lead l l' before.reverse text
  groups : m.groups = lead.last.groups
  left : ∀ u v, s = u ++ v → u.length < before.length →
    (cat (l ++ l' ++ [T, sentenceEnd])).matchAt u.reverse v = none

/-- The front of a template: it looks at nothing but its own text, and has no time. -/
structure Untimed (l l' : List Pattern) : Prop where
  blind : (cat l).blind = true
  blind' : (cat l').blind = true
  free : (cat l).avoids .time = true
  free' : (cat l').avoids .time = true

section

variable {T : Pattern} {y t s : List Char} {l l' : List Pattern} {m m' : Match GroupName}
  (hT : ReadBack T y t) (hF : Untimed l l')

include hF in
theorem Untimed.blind_append : (cat (l ++ l')).blind = true := by
  have hl := hF.blind
  have hl' := hF.blind'
  rw [blind_cat] at hl hl' ⊢
  rw [List.all_append, hl, hl']
  rfl

include hF in
theorem Untimed.free_append : (cat (l ++ l')).avoids .time = true := by
  have hl := hF.free
  have hl' := hF.free'
  rw [avoids_cat] at hl hl' ⊢
  rw [List.all_append, hl, hl']
  rfl

include hT

theorem exists_located (hm : (cat (l ++ l' ++ [T, sentenceEnd])).search s = some m)
    (htime : m.groups .time = none) (hmark : NoMark s) : Nonempty (Located l l' T s m) := by
  obtain ⟨u, v, rfl, hat, hleft⟩ := search_eq_some hm
  obtain ⟨L, hgroups⟩ := exists_lead hT hat htime hmark
  exact ⟨⟨u, v, rfl, L, hgroups, hleft⟩⟩

/-- A new match in the longer text takes the suffix in, and has no time. -/
theorem absorbs_of_new {front : List Pattern} {pre post : List Char} (hblind : (cat front).blind = true)
    (hfree : (cat front).avoids .time = true)
    (hno : (cat (front ++ [T, sentenceEnd])).matchAt pre post = none)
    (hm : (cat (front ++ [T, sentenceEnd])).matchAt pre (post ++ y) = some m) :
    (∃ g, (cat front).Matches (fun _ => none) pre (post ++ y) [] g) ∧ m.groups .time = none := by
  rw [matchAt_front, Option.map_eq_some_iff] at hm
  obtain ⟨z, hz, rfl⟩ := hm
  obtain ⟨x, hx, hz⟩ := List.exists_of_findSome?_eq_some hz
  obtain ⟨w, hpost, -, hw⟩ := ways_matches hx
  rcases hT.back_cases (suffix_of_way hx) (back_of_first hz) with ⟨hnil, hg⟩ | ⟨r, hr, hspace, -⟩
  · rw [hnil, List.append_nil] at hpost
    rw [hnil] at hw
    refine ⟨⟨_, hpost ▸ hw⟩, ?_⟩
    dsimp only
    rw [hg, ways_groups_of_avoids hfree hx]
  · exfalso
    obtain ⟨x₀, hx₀, -, rfl⟩ := early_way hblind hx hr
    have hsome := first_isSome (hT.back_space x₀.groups x₀.pre hspace)
    rw [matchAt_front, Option.map_eq_none_iff] at hno
    rw [List.findSome?_eq_none_iff.1 hno x₀ hx₀] at hsome
    cases hsome

include hF

/-- **The time is read**, and nothing else changes, if the suffix is not taken in. -/
theorem Located.kept (P : Located l l' T s m) (K : P.lead.Longer y) (hno : ¬K.Absorbed)
    (hleft : ∀ u v, s = u ++ v → u.length < P.before.length →
      ∀ g, ¬(cat (l ++ l')).Matches (fun _ => none) u.reverse (v ++ y) [] g) :
    ∃ m', (cat (l ++ l' ++ [T, sentenceEnd])).search (s ++ y) = some m' ∧
      m'.groups = Function.update m.groups .time (some t) := by
  obtain ⟨m', hm', hgroups⟩ := K.matchAt_extend hT hF.blind' hno
  refine ⟨m', ?_, by rw [hgroups, P.groups]⟩
  have hs : s ++ y = P.before ++ (P.text ++ y) :=
    (congrArg (· ++ y) P.eq).trans (List.append_assoc ..)
  rw [hs]
  refine search_of_leftmost hm' fun u v heq hlt => ?_
  rcases List.append_eq_append_iff.1 heq with ⟨a, hu, -⟩ | ⟨a, hbefore, hv⟩
  · rw [hu, List.length_append] at hlt
    omega
  · rw [← List.append_assoc] at hv
    have hsplit : s = u ++ (a ++ P.text) := P.eq.trans (by rw [hbefore, List.append_assoc])
    refine Option.eq_none_iff_forall_ne_some.2 fun z hz => ?_
    rw [hv] at hz
    obtain ⟨⟨g, hg⟩, -⟩ := absorbs_of_new hT hF.blind_append hF.free_append
      (P.left u _ hsplit hlt) hz
    exact hleft u _ hsplit hlt g hg

/-- **There is no time** if a way that is tried before takes the suffix in. -/
theorem Located.lost (P : Located l l' T s m) (K : P.lead.Longer y) (habs : K.Absorbed)
    (hm : (cat (l ++ l' ++ [T, sentenceEnd])).search (s ++ y) = some m') :
    m'.groups .time = none := by
  obtain ⟨u, v, heq, hat, hleft⟩ := search_eq_some hm
  have hs : s ++ y = P.before ++ (P.text ++ y) :=
    (congrArg (· ++ y) P.eq).trans (List.append_assoc ..)
  rcases Nat.lt_trichotomy u.length P.before.length with hlt | hlen | hlt
  · rw [hs] at heq
    rcases List.append_eq_append_iff.1 heq with ⟨a, hu, -⟩ | ⟨a, hbefore, rfl⟩
    · rw [hu, List.length_append] at hlt
      omega
    · have hsplit : s = u ++ (a ++ P.text) := P.eq.trans (by rw [hbefore, List.append_assoc])
      rw [← List.append_assoc] at hat
      exact (absorbs_of_new hT hF.blind_append hF.free_append (P.left u _ hsplit hlt) hat).2
  · obtain ⟨rfl, rfl⟩ := List.append_inj (heq.symm.trans hs) hlen
    exact K.no_time hT hF.blind' habs hF.free hF.free' hat
  · exact absurd (hleft P.before (P.text ++ y) hs hlt) (K.matchAt_ne_none hT)

end

end CivicProof
