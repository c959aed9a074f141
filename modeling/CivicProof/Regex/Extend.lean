import CivicProof.Regex.Places

/-!
# The search in a longer text

An expression that looks at no text but its own finds in a longer text what it found, in the same order,
with new ways that end in the text that came behind.

* `ways_matches`, `mem_ways`: the ways are the matches, with what they capture.
* `ways_extend`, `ways_split`: the ways in a longer text.
* `ways_cat_pairwise`, `greedyEnds_pairwise`, `lazyEnds_pairwise`: the order of repetitions.
* `has_iff_way`: a bare expression has the texts it finds a way through.
* `first_to_end`: a greedy repetition at the end takes all that is left of its class.
* `Re.Last`: the last character of what an expression matches.
-/

namespace CivicProof.Regex

variable {N : Type} [DecidableEq N] {γ : Type}

/-! ## Ways and matches -/

/-- **A way is a match**, with what it captures. -/
theorem ways_matches {r : Re N} : ∀ {g : Caps N} {pre post : List Char} {x : Way N (List Char)},
    x ∈ r.ways Place.part g pre post → ∃ w, post = w ++ x.post ∧ x.pre = w.reverse ++ pre ∧
      r.Matches g pre w x.post x.groups := by
  induction r with
  | eps =>
    intro g pre post x h
    obtain rfl := List.mem_singleton.1 h
    exact ⟨[], rfl, rfl, rfl, rfl⟩
  | set p =>
    intro g pre post x h
    cases post with
    | nil => cases h
    | cons c cs =>
      rw [Re.ways] at h
      split at h
      · obtain rfl := List.mem_singleton.1 h
        exact ⟨[c], rfl, rfl, c, ‹_›, rfl, rfl⟩
      · cases h
  | seq a b iha ihb =>
    intro g pre post x h
    obtain ⟨y, hy, hx⟩ := List.mem_flatMap.1 h
    obtain ⟨u, rfl, hpre, ha⟩ := iha hy
    obtain ⟨v, hpost, hpre', hb⟩ := ihb hx
    refine ⟨u ++ v, ?_, ?_, u, v, y.groups, rfl, hpost ▸ ha, hpre ▸ hb⟩
    · rw [hpost, List.append_assoc]
    · rw [hpre', hpre, List.reverse_append, List.append_assoc]
  | alt a b iha ihb =>
    intro g pre post x h
    rcases List.mem_append.1 h with h | h
    · obtain ⟨w, hpost, hpre, hm⟩ := iha h
      exact ⟨w, hpost, hpre, Or.inl hm⟩
    · obtain ⟨w, hpost, hpre, hm⟩ := ihb h
      exact ⟨w, hpost, hpre, Or.inr hm⟩
  | rep p lo hi greedy =>
    intro g pre post x h
    have hends : ∃ y ∈ greedyEnds p lo hi pre post, (⟨g, y.1, y.2⟩ : Way N (List Char)) = x := by
      cases greedy
      · obtain ⟨y, hy, hx⟩ := List.mem_map.1 h
        exact ⟨y, mem_lazyEnds.1 hy, hx⟩
      · exact List.mem_map.1 h
    obtain ⟨y, hy, rfl⟩ := hends
    obtain ⟨w, hpost, hpre, hw⟩ := greedyEnds_sound hy
    exact ⟨w, hpost, hpre, hw, rfl⟩
  | group n a iha =>
    intro g pre post x h
    obtain ⟨y, hy, rfl⟩ := List.mem_map.1 h
    obtain ⟨w, hpost, hpre, ha⟩ := iha hy
    refine ⟨w, hpost, hpre, y.groups, ha, ?_⟩
    simp [hpost, hpre]
  | assert t =>
    intro g pre post x h
    rw [Re.ways] at h
    split at h
    · obtain rfl := List.mem_singleton.1 h
      exact ⟨[], rfl, rfl, ‹_›, rfl, rfl⟩
    · cases h

/-- **A match is a way**, with what it captures. -/
theorem mem_ways {r : Re N} : ∀ {g g' : Caps N} {pre w post : List Char}, r.Matches g pre w post g' →
    (⟨g', w.reverse ++ pre, post⟩ : Way N (List Char)) ∈ r.ways Place.part g pre (w ++ post) := by
  induction r with
  | eps =>
    rintro g g' pre w post ⟨rfl, rfl⟩
    exact List.mem_singleton_self _
  | set p =>
    rintro g g' pre w post ⟨c, hc, rfl, rfl⟩
    rw [List.cons_append, Re.ways]
    simp [hc]
  | seq a b iha ihb =>
    rintro g g' pre w post ⟨u, v, g₁, rfl, ha, hb⟩
    rw [List.append_assoc]
    refine List.mem_flatMap.2 ⟨_, iha ha, ?_⟩
    rw [List.reverse_append, List.append_assoc]
    exact ihb hb
  | alt a b iha ihb =>
    rintro g g' pre w post (h | h)
    · exact List.mem_append_left _ (iha h)
    · exact List.mem_append_right _ (ihb h)
  | rep p lo hi greedy =>
    rintro g g' pre w post ⟨hw, rfl⟩
    have hend : (w.reverse ++ pre, post) ∈ greedyEnds p lo hi pre (w ++ post) :=
      greedyEnds_complete hw
    cases greedy
    · exact List.mem_map.2 ⟨_, mem_lazyEnds.2 hend, rfl⟩
    · exact List.mem_map.2 ⟨_, hend, rfl⟩
  | group n a iha =>
    rintro g g' pre w post ⟨g₁, ha, rfl⟩
    refine List.mem_map.2 ⟨_, iha ha, ?_⟩
    simp
  | assert t =>
    rintro g g' pre w post ⟨ht, rfl, rfl⟩
    rw [List.nil_append, Re.ways, if_pos ht]
    exact List.mem_singleton_self _

/-! ## Expressions that look at no text but their own -/

/-- No assertions. -/
def Re.blind : Re N → Bool
  | .eps | .set _ | .rep _ _ _ _ => true
  | .seq a b | .alt a b => a.blind && b.blind
  | .group _ a => a.blind
  | .assert _ => false

omit [DecidableEq N] in
@[simp] theorem blind_cat {l : List (Re N)} : (Re.cat l).blind = l.all Re.blind := by
  induction l with
  | nil => rfl
  | cons a l ih =>
    cases l with
    | nil => simp [Re.cat]
    | cons b l =>
      have hcons : (Re.cat (a :: b :: l)).blind = (a.blind && (Re.cat (b :: l)).blind) := rfl
      rw [hcons, ih, List.all_cons (a := a)]

omit [DecidableEq N] in
@[simp] theorem blind_any {l : List (Re N)} : (Re.any l).blind = l.all Re.blind := by
  induction l with
  | nil => rfl
  | cons a l ih =>
    cases l with
    | nil => simp [Re.any]
    | cons b l =>
      have hcons : (Re.any (a :: b :: l)).blind = (a.blind && (Re.any (b :: l)).blind) := rfl
      rw [hcons, ih, List.all_cons (a := a)]

omit [DecidableEq N] in
@[simp] theorem blind_opt {a : Re N} : a.opt.blind = a.blind := Bool.and_true _

omit [DecidableEq N] in
@[simp] theorem blind_lit {f : Char → Char → Bool} {s : String} : (Re.lit f s : Re N).blind = true := by
  unfold Re.lit
  rw [blind_cat, List.all_map]
  exact List.all_eq_true.2 fun _ _ => rfl

/-- What stands around a match does not matter. -/
theorem Re.Matches.around {r : Re N} : ∀ {g g' : Caps N} {pre w post : List Char}, r.blind = true →
    r.Matches g pre w post g' → ∀ pre' post', r.Matches g pre' w post' g' := by
  induction r with
  | eps => exact fun _ h _ _ => h
  | set p => exact fun _ h _ _ => h
  | rep p lo hi greedy => exact fun _ h _ _ => h
  | seq a b iha ihb =>
    rintro g g' pre w post hr ⟨u, v, g₁, hw, ha, hb⟩ pre' post'
    obtain ⟨hblind, hblind'⟩ := Bool.and_eq_true_iff.1 hr
    exact ⟨u, v, g₁, hw, iha hblind ha _ _, ihb hblind' hb _ _⟩
  | alt a b iha ihb =>
    rintro g g' pre w post hr (h | h) pre' post'
    · exact Or.inl (iha (Bool.and_eq_true_iff.1 hr).1 h _ _)
    · exact Or.inr (ihb (Bool.and_eq_true_iff.1 hr).2 h _ _)
  | group n a iha =>
    rintro g g' pre w post hr ⟨g₁, ha, hg⟩ pre' post'
    exact ⟨g₁, iha hr ha _ _, hg⟩
  | assert t => exact fun hr => absurd hr Bool.false_ne_true

/-- No groups and no assertions. -/
def Re.bare : Re N → Bool
  | .eps | .set _ | .rep _ _ _ _ => true
  | .seq a b | .alt a b => a.bare && b.bare
  | .group _ _ | .assert _ => false

/-- The text is one of those of a bare expression. -/
def Re.Has (r : Re N) (w : List Char) : Prop := r.Matches (fun _ => none) [] w [] fun _ => none

/-- **A bare expression** matches its texts wherever they stand, and captures nothing. -/
theorem plain_of_bare {r : Re N} (hr : r.bare = true) : r.Plain r.Has := by
  have hany : ∀ {r : Re N}, r.bare = true → ∀ {g g' : Caps N} {pre w post : List Char},
      r.Matches g pre w post g' → g' = g ∧ ∀ g₁ pre' post', r.Matches g₁ pre' w post' g₁ := by
    intro r
    induction r with
    | eps => exact fun _ {_ _ _ _ _} h => ⟨h.2, fun _ _ _ => ⟨h.1, rfl⟩⟩
    | set p =>
      rintro - g g' pre w post ⟨c, hc, hw, rfl⟩
      exact ⟨rfl, fun _ _ _ => ⟨c, hc, hw, rfl⟩⟩
    | rep p lo hi greedy =>
      rintro - g g' pre w post ⟨hw, rfl⟩
      exact ⟨rfl, fun _ _ _ => ⟨hw, rfl⟩⟩
    | seq a b iha ihb =>
      rintro hr g g' pre w post ⟨u, v, g₁, hw, ha, hb⟩
      obtain ⟨hbare, hbare'⟩ := Bool.and_eq_true_iff.1 hr
      obtain ⟨rfl, hu⟩ := iha hbare ha
      obtain ⟨rfl, hv⟩ := ihb hbare' hb
      exact ⟨rfl, fun g₁ _ _ => ⟨u, v, g₁, hw, hu _ _ _, hv _ _ _⟩⟩
    | alt a b iha ihb =>
      rintro hr g g' pre w post (h | h)
      · obtain ⟨hg, hw⟩ := iha (Bool.and_eq_true_iff.1 hr).1 h
        exact ⟨hg, fun _ _ _ => Or.inl (hw _ _ _)⟩
      · obtain ⟨hg, hw⟩ := ihb (Bool.and_eq_true_iff.1 hr).2 h
        exact ⟨hg, fun _ _ _ => Or.inr (hw _ _ _)⟩
    | group n a iha => exact fun hr => absurd hr Bool.false_ne_true
    | assert t => exact fun hr => absurd hr Bool.false_ne_true
  intro g pre w post g'
  constructor
  · intro h
    obtain ⟨hg, hw⟩ := hany hr h
    exact ⟨hw _ _ _, hg⟩
  · rintro ⟨h, rfl⟩
    exact (hany hr h).2 _ _ _

/-! ## Sequences in two parts -/

theorem Matches_append {l l' : List (Re N)} {g g' : Caps N} {pre w post : List Char} :
    (Re.cat (l ++ l')).Matches g pre w post g' ↔ ∃ u v g₁, w = u ++ v ∧
      (Re.cat l).Matches g pre u (v ++ post) g₁ ∧ (Re.cat l').Matches g₁ (u.reverse ++ pre) v post g' := by
  induction l generalizing g pre w with
  | nil =>
    constructor
    · exact fun h => ⟨[], w, g, rfl, ⟨rfl, rfl⟩, h⟩
    · rintro ⟨u, v, g₁, rfl, ⟨rfl, rfl⟩, h⟩
      exact h
  | cons a l ih =>
    rw [List.cons_append, Matches_cat_cons]
    constructor
    · rintro ⟨u, v, g₁, rfl, ha, h⟩
      obtain ⟨u', v', g₂, rfl, hl, hl'⟩ := ih.1 h
      refine ⟨u ++ u', v', g₂, (List.append_assoc ..).symm, Matches_cat_cons.2 ⟨u, u', g₁, rfl, ?_, hl⟩, ?_⟩
      · rwa [List.append_assoc] at ha
      · rwa [List.reverse_append, List.append_assoc]
    · rintro ⟨u, v, g₁, rfl, h, hl'⟩
      obtain ⟨u₁, u₂, g₂, rfl, ha, hl⟩ := Matches_cat_cons.1 h
      refine ⟨u₁, u₂ ++ v, g₂, List.append_assoc .., ?_, ih.2 ⟨u₂, v, g₁, rfl, hl, ?_⟩⟩
      · rwa [List.append_assoc]
      · rwa [List.reverse_append, List.append_assoc] at hl'

/-- A match from other groups. -/
theorem Re.Matches.regroup {r : Re N} {g g' : Caps N} {pre w post : List Char}
    (h : r.Matches g pre w post g') (g₁ : Caps N) : ∃ g₂, r.Matches g₁ pre w post g₂ := by
  obtain ⟨x, hx, -, rfl⟩ := ways_complete Place.part h g₁
  obtain ⟨w', hw, -, hm⟩ := ways_matches hx
  obtain rfl := List.append_cancel_right hw
  exact ⟨_, hm⟩

/-! ## The texts of bare expressions -/

theorem Has_append (l l' : List (Re N)) {w : List Char} (hl : (Re.cat l).bare = true)
    (hl' : (Re.cat l').bare = true) : (Re.cat (l ++ l')).Has w ↔
      ∃ u v, w = u ++ v ∧ (Re.cat l).Has u ∧ (Re.cat l').Has v := by
  unfold Re.Has
  rw [Matches_append]
  constructor
  · rintro ⟨u, v, g₁, rfl, hu, hv⟩
    obtain ⟨hhas, rfl⟩ := (plain_of_bare hl ..).1 hu
    exact ⟨u, v, rfl, hhas, ((plain_of_bare hl' ..).1 hv).1⟩
  · rintro ⟨u, v, rfl, hu, hv⟩
    exact ⟨u, v, _, rfl, (plain_of_bare hl ..).2 ⟨hu, rfl⟩, (plain_of_bare hl' ..).2 ⟨hv, rfl⟩⟩

theorem Matches_any {l : List (Re N)} {g g' : Caps N} {pre w post : List Char} :
    (Re.any l).Matches g pre w post g' ↔ ∃ a ∈ l, a.Matches g pre w post g' := by
  induction l with
  | nil =>
    constructor
    · rintro ⟨c, hc, -⟩
      cases hc
    · rintro ⟨a, ha, -⟩
      cases ha
  | cons a l ih =>
    cases l with
    | nil => simp [Re.any]
    | cons b l =>
      exact (or_congr_right ih).trans
        (List.exists_mem_cons_iff (fun x => x.Matches g pre w post g') a (b :: l)).symm

/-- A way through a bare expression takes one of its texts. -/
theorem has_of_way {r : Re N} (hr : r.bare = true) {g : Caps N} {pre post : List Char}
    {x : Way N (List Char)} (h : x ∈ r.ways Place.part g pre post) :
    ∃ w, post = w ++ x.post ∧ r.Has w ∧ x.groups = g := by
  obtain ⟨w, hpost, -, hm⟩ := ways_matches h
  obtain ⟨hw, hg⟩ := (plain_of_bare hr ..).1 hm
  exact ⟨w, hpost, hw, hg⟩

/-- A text of a bare expression is the way somewhere. -/
theorem way_of_has {r : Re N} (hr : r.bare = true) {w : List Char} (h : r.Has w) (g : Caps N)
    (pre post : List Char) : (⟨g, w.reverse ++ pre, post⟩ : Way N (List Char)) ∈
      r.ways Place.part g pre (w ++ post) :=
  mem_ways ((plain_of_bare hr ..).2 ⟨h, rfl⟩)

/-- A bare expression has a text if a way takes all of it. -/
theorem has_iff_way {r : Re N} (hr : r.bare = true) {w : List Char} :
    r.Has w ↔ ∃ x ∈ r.ways Place.part (fun _ => none) [] w, x.post = [] := by
  constructor
  · intro h
    exact ⟨_, (List.append_nil w) ▸ way_of_has hr h _ [] [], rfl⟩
  · rintro ⟨x, hx, hnil⟩
    obtain ⟨v, rfl, hv, -⟩ := has_of_way hr hx
    rwa [hnil, List.append_nil]

theorem first_ne_none {r : Re N} (hr : r.bare = true) {w : List Char} (h : r.Has w) (g : Caps N)
    (pre post : List Char) : r.first Place.part g pre (w ++ post) ≠ none := fun hnone =>
  absurd (way_of_has hr h g pre post) (by rw [List.head?_eq_none_iff.1 hnone]; exact List.not_mem_nil)

/-! ## The first way -/

section

variable {see : Place → γ} {g : N → Option γ} {pre post : List Char} {z : Way N γ} {l : List (Re N)}

/-- The first way through a choice is that of one of its expressions. -/
theorem first_any (h : (Re.any l).first see g pre post = some z) :
    ∃ a ∈ l, a.first see g pre post = some z := by
  induction l with
  | nil =>
    cases post with
    | nil => cases h
    | cons c cs => cases h
  | cons a l ih =>
    cases l with
    | nil => exact ⟨a, List.mem_singleton_self a, h⟩
    | cons b l =>
      unfold Re.first Re.any at h
      rw [Re.ways, List.head?_append, Option.or_eq_some_iff] at h
      rcases h with h | ⟨-, h⟩
      · exact ⟨a, List.mem_cons_self, h⟩
      · obtain ⟨c, hc, hz⟩ := ih h
        exact ⟨c, List.mem_cons_of_mem _ hc, hz⟩

/-- **A sequence that ends in a greedy repetition** takes all of a text of its class. -/
theorem first_to_end {p : Char → Bool} {lo : ℕ}
    (hin : ∀ y ∈ (Re.cat l).ways see g pre post, ∀ c ∈ y.post, p c = true)
    (h : (Re.cat (l ++ [.rep p lo none true])).first see g pre post = some z) : z.post = [] := by
  obtain ⟨y, hy, hz⟩ := first_append h
  obtain ⟨w, hpost, -, -, -, hend⟩ := first_greedy hz
  have hstop : ∀ c ∈ z.post.head?, p c = false := hend.resolve_left (Option.some_ne_none _).symm
  cases hz' : z.post with
  | nil => rfl
  | cons c cs =>
    rw [hz'] at hstop hpost
    have hc := hin y hy c (by rw [hpost]; simp)
    rw [hstop c rfl] at hc
    cases hc

end

/-! ## The last character -/

/-- A match that takes a text ends in a character that satisfies `q`. -/
def Re.Last (q : Char → Prop) : Re N → Prop
  | .eps | .assert _ => True
  | .set p | .rep p _ _ _ => ∀ c, p c = true → q c
  | .seq a b => b.Last q ∧ (a.Last q ∨ b.Needs fun _ => True)
  | .alt a b => a.Last q ∧ b.Last q
  | .group _ a => a.Last q

theorem Re.Last.concat {q : Char → Prop} {c : Char} {r : Re N} : ∀ {g g' : Caps N}
    {pre w post : List Char}, r.Last q → r.Matches g pre (w ++ [c]) post g' → q c := by
  induction r with
  | eps =>
    rintro g g' pre w post - ⟨hw, -⟩
    simp at hw
  | set p =>
    rintro g g' pre w post hq ⟨d, hd, hw, -⟩
    rw [← List.nil_append [d]] at hw
    obtain ⟨-, heq⟩ := List.append_inj' hw rfl
    obtain rfl := List.singleton_inj.1 heq
    exact hq _ hd
  | seq a b iha ihb =>
    rintro g g' pre w post ⟨hb', hseq⟩ ⟨u, v, g₁, hw, ha, hb⟩
    rcases List.eq_nil_or_concat v with rfl | ⟨v, d, rfl⟩
    · rcases hseq with ha' | hneeds
      · rw [List.append_nil] at hw
        subst hw
        exact iha ha' ha
      · obtain ⟨d, hd, -⟩ := hneeds.exists_mem hb
        cases hd
    · rw [List.concat_eq_append] at hw hb
      rw [← List.append_assoc] at hw
      obtain ⟨-, heq⟩ := List.append_inj' hw rfl
      obtain rfl := List.singleton_inj.1 heq
      exact ihb hb' hb
  | alt a b iha ihb =>
    rintro g g' pre w post hq (h | h)
    · exact iha hq.1 h
    · exact ihb hq.2 h
  | rep p lo hi greedy =>
    rintro g g' pre w post hq ⟨hw, -⟩
    exact hq c (hw.1 c (by simp))
  | group n a iha =>
    rintro g g' pre w post hq ⟨g₁, ha, -⟩
    exact iha hq ha
  | assert t =>
    rintro g g' pre w post - ⟨-, hw, -⟩
    simp at hw

section

omit [DecidableEq N]

variable {q : Char → Prop} {l : List (Re N)}

theorem Last_append {a : Re N} (ha : a.Last q) (hne : a.Needs fun _ => True) :
    (Re.cat (l ++ [a])).Last q := by
  induction l with
  | nil => exact ha
  | cons b l ih =>
    have hneeds : (Re.cat (l ++ [a])).Needs fun _ => True :=
      Needs_cat.2 ⟨a, List.mem_append_right _ (List.mem_singleton_self a), hne⟩
    cases l with
    | nil => exact ⟨ih, Or.inr hneeds⟩
    | cons c l => exact ⟨ih, Or.inr hneeds⟩

@[simp] theorem Last_any : (Re.any l).Last q ↔ ∀ r ∈ l, r.Last q := by
  induction l with
  | nil => simp [Re.any, Re.Last]
  | cons r l ih =>
    cases l with
    | nil => simp [Re.any]
    | cons r' l =>
      have hcons : (Re.any (r :: r' :: l)).Last q ↔ r.Last q ∧ (Re.any (r' :: l)).Last q := Iff.rfl
      rw [hcons, ih, List.forall_mem_cons (a := r)]

theorem Last_lit {f : Char → Char → Bool} {s : String} {w : List Char} {a : Char}
    (hs : s.toList = w ++ [a]) (ha : ∀ c, f a c = true → q c) : (Re.lit f s : Re N).Last q := by
  unfold Re.lit
  rw [hs, List.map_append]
  exact Last_append ha fun _ _ => trivial

end

/-! ## More text behind -/

/-- A way with more text behind. -/
def Way.ahead (y : List Char) (x : Way N γ) : Way N γ := ⟨x.groups, x.pre, x.post ++ y⟩

/-- The way ends before the last `n` characters of the text. -/
def Way.early (n : ℕ) (x : Way N γ) : Bool := n ≤ x.post.length

omit [DecidableEq N] in
theorem filter_flatMap_of {α β : Type} {l : List α} {f : α → List β} {P : β → Bool} {Q : α → Bool}
    (h : ∀ x ∈ l, Q x = false → ∀ z ∈ f x, P z = false) :
    (l.flatMap f).filter P = (l.filter Q).flatMap fun x => (f x).filter P := by
  induction l with
  | nil => rfl
  | cons a l ih =>
    rw [List.flatMap_cons, List.filter_append, ih fun x hx => h x (List.mem_cons_of_mem _ hx)]
    cases hQ : Q a with
    | true => rw [List.filter_cons_of_pos hQ, List.flatMap_cons]
    | false =>
      have hnone : (f a).filter P = [] :=
        List.filter_eq_nil_iff.2 fun z hz => by simp [h a List.mem_cons_self hQ z hz]
      rw [List.filter_cons_of_neg (by simp [hQ]), hnone, List.nil_append]

theorem greedyEnds_extend {p : Char → Bool} (y : List Char) : ∀ {post pre : List Char} {lo : ℕ}
    {hi : Option ℕ}, (greedyEnds p lo hi pre (post ++ y)).filter (fun e => y.length ≤ e.2.length) =
      (greedyEnds p lo hi pre post).map fun e => (e.1, e.2 ++ y) := by
  intro post
  induction post with
  | nil =>
    intro pre lo hi
    cases y with
    | nil =>
      simp only [List.append_nil, List.length_nil, Nat.zero_le, decide_true, List.filter_true,
        List.map_id']
    | cons c cs =>
      rw [List.nil_append, greedyEnds, greedyEnds, List.filter_append]
      have hlater : (if p c = true ∧ hi ≠ some 0 then
          greedyEnds p (lo - 1) (hi.map (· - 1)) (c :: pre) cs else []).filter
            (fun e => (c :: cs).length ≤ e.2.length) = [] := by
        refine List.filter_eq_nil_iff.2 fun e he => ?_
        split at he
        · obtain ⟨w, hw, -⟩ := greedyEnds_sound he
          have hlen := congrArg List.length hw
          rw [List.length_append] at hlen
          rw [decide_eq_true_iff, List.length_cons]
          omega
        · cases he
      rw [hlater, List.nil_append]
      split <;> simp
  | cons c post ih =>
    intro pre lo hi
    rw [List.cons_append, greedyEnds, greedyEnds, List.filter_append, List.map_append]
    congr 1
    · split
      · exact ih
      · rfl
    · split <;> simp [Nat.le_succ_of_le]

/-- A lazy repetition tries the ends of the greedy one the other way round. -/
theorem lazyEnds_eq_reverse {p : Char → Bool} : ∀ {post pre : List Char} {lo : ℕ} {hi : Option ℕ},
    lazyEnds p lo hi pre post = (greedyEnds p lo hi pre post).reverse := by
  intro post
  induction post with
  | nil =>
    intro pre lo hi
    rw [lazyEnds, greedyEnds]
    split <;> rfl
  | cons c post ih =>
    intro pre lo hi
    rw [lazyEnds, greedyEnds, List.reverse_append, ih]
    congr 1
    · split <;> rfl
    · split <;> rfl

theorem lazyEnds_extend {p : Char → Bool} (y : List Char) {post pre : List Char} {lo : ℕ}
    {hi : Option ℕ} : (lazyEnds p lo hi pre (post ++ y)).filter (fun e => y.length ≤ e.2.length) =
      (lazyEnds p lo hi pre post).map fun e => (e.1, e.2 ++ y) := by
  rw [lazyEnds_eq_reverse, lazyEnds_eq_reverse, List.filter_reverse, List.map_reverse,
    greedyEnds_extend]

/-- **The ways in a longer text** that end before what came behind are those in the text itself, in the
same order. -/
theorem ways_extend {r : Re N} (y : List Char) : ∀ {g : Caps N} {pre post : List Char},
    r.blind = true → (r.ways Place.part g pre (post ++ y)).filter (Way.early y.length) =
      (r.ways Place.part g pre post).map (Way.ahead y) := by
  induction r with
  | eps =>
    intro g pre post _
    simp [Re.ways, Way.early, Way.ahead]
  | set p =>
    intro g pre post _
    cases post with
    | nil =>
      rw [List.nil_append]
      refine List.filter_eq_nil_iff.2 fun x hx => ?_
      cases y with
      | nil => cases hx
      | cons c cs =>
        rw [Re.ways] at hx
        split at hx
        · obtain rfl := List.mem_singleton.1 hx
          simp [Way.early]
        · cases hx
    | cons c cs =>
      rw [List.cons_append, Re.ways, Re.ways]
      split <;> simp [Way.early, Way.ahead]
  | seq a b iha ihb =>
    intro g pre post hr
    obtain ⟨hblind, hblind'⟩ := Bool.and_eq_true_iff.1 hr
    rw [Re.ways, Re.ways, List.map_flatMap]
    rw [filter_flatMap_of (Q := Way.early y.length), iha hblind, List.flatMap_map]
    · exact congrArg (List.flatMap · _) (funext fun x => ihb hblind')
    · intro x _ hx z hz
      obtain ⟨w, hpost, -⟩ := ways_matches hz
      have hlen := congrArg List.length hpost
      rw [List.length_append] at hlen
      simp only [Way.early, decide_eq_false_iff_not] at hx ⊢
      omega
  | alt a b iha ihb =>
    intro g pre post hr
    obtain ⟨hblind, hblind'⟩ := Bool.and_eq_true_iff.1 hr
    rw [Re.ways, Re.ways, List.filter_append, List.map_append, iha hblind, ihb hblind']
  | rep p lo hi greedy =>
    intro g pre post _
    cases greedy
    · rw [Re.ways, Re.ways, List.filter_map, List.map_map]
      exact (congrArg (List.map _) (lazyEnds_extend y)).trans (List.map_map ..)
    · rw [Re.ways, Re.ways, List.filter_map, List.map_map]
      exact (congrArg (List.map _) (greedyEnds_extend y)).trans (List.map_map ..)
  | group n a iha =>
    intro g pre post hr
    rw [Re.ways, Re.ways, List.filter_map, List.map_map]
    refine (congrArg (List.map _) (iha hr)).trans ?_
    rw [List.map_map]
    refine List.map_congr_left fun x hx => ?_
    obtain ⟨w, hpost, hpre, -⟩ := ways_matches hx
    simp [Way.ahead, hpost, hpre]
  | assert t => exact fun hr => absurd hr Bool.false_ne_true

/-- Where a way stands in a longer text: the ways before it are the ones that were before it, or end in
what came behind. -/
theorem ways_split {r : Re N} (hr : r.blind = true) (y : List Char) {g : Caps N} {pre post : List Char}
    {A B : List (Way N (List Char))} {x : Way N (List Char)}
    (h : r.ways Place.part g pre post = A ++ x :: B) :
    ∃ A' B', r.ways Place.part g pre (post ++ y) = A' ++ x.ahead y :: B' ∧
      ∀ z ∈ A', (∃ z₀ ∈ A, z = z₀.ahead y) ∨ z.post.length < y.length := by
  have hext : (r.ways Place.part g pre (post ++ y)).filter (Way.early y.length) =
      (r.ways Place.part g pre post).map (Way.ahead y) := ways_extend y hr
  rw [h, List.map_append, List.map_cons] at hext
  obtain ⟨L₁, L₂, hL, hL₁, hL₂⟩ := List.filter_eq_append_iff.1 hext
  obtain ⟨M₁, M₂, rfl, hM₁, -, -⟩ := List.filter_eq_cons_iff.1 hL₂
  refine ⟨L₁ ++ M₁, M₂, by rw [hL, List.append_assoc], fun z hz => ?_⟩
  by_cases hearly : Way.early y.length z = true
  · rcases List.mem_append.1 hz with hz | hz
    · have hmem := List.mem_filter.2 ⟨hz, hearly⟩
      rw [hL₁] at hmem
      obtain ⟨z₀, hz₀, rfl⟩ := List.mem_map.1 hmem
      exact Or.inl ⟨z₀, hz₀, rfl⟩
    · exact absurd hearly (by simpa using hM₁ z hz)
  · rw [Way.early, decide_eq_true_iff, Nat.not_le] at hearly
    exact Or.inr hearly

/-! ## The order of repetitions -/

theorem greedyEnds_pairwise {p : Char → Bool} : ∀ {post pre : List Char} {lo : ℕ} {hi : Option ℕ},
    (greedyEnds p lo hi pre post).Pairwise fun e e' => e.2.length < e'.2.length := by
  intro post
  induction post with
  | nil =>
    intro pre lo hi
    rw [greedyEnds]
    split
    · exact List.pairwise_singleton _ _
    · exact List.Pairwise.nil
  | cons c cs ih =>
    intro pre lo hi
    rw [greedyEnds, List.pairwise_append]
    refine ⟨?_, ?_, fun e he e' he' => ?_⟩
    · split
      · exact ih
      · exact List.Pairwise.nil
    · split
      · exact List.pairwise_singleton _ _
      · exact List.Pairwise.nil
    · split at he
      · split at he'
        · obtain rfl := List.mem_singleton.1 he'
          obtain ⟨w, hw, -⟩ := greedyEnds_sound he
          have hlen := congrArg List.length hw
          rw [List.length_append] at hlen
          rw [List.length_cons]
          omega
        · cases he'
      · cases he

theorem lazyEnds_pairwise {p : Char → Bool} {post pre : List Char} {lo : ℕ} {hi : Option ℕ} :
    (lazyEnds p lo hi pre post).Pairwise fun e e' => e'.2.length < e.2.length := by
  rw [lazyEnds_eq_reverse, List.pairwise_reverse]
  exact greedyEnds_pairwise

/-- What a group has captured on a way. -/
def Way.text (n : N) (x : Way N (List Char)) : List Char := (x.groups n).getD []

section

variable {n : N} {p q : Char → Bool} {lo lo' : ℕ} {hi hi' : Option ℕ} {g : Caps N}
  {pre post : List Char} {l : List (Re N)}

/-- The ways of a group over a lazy repetition, the shortest one first. -/
theorem ways_lazy_group_pairwise :
    ((Re.group n (.rep p lo hi false)).ways Place.part g pre post).Pairwise fun x z =>
      (x.text n).length < (z.text n).length ∧ x.text n ++ x.post = post ∧ z.text n ++ z.post = post := by
  have htext : ∀ x ∈ (Re.group n (.rep p lo hi false)).ways Place.part g pre post,
      x.text n ++ x.post = post := by
    intro x hx
    obtain ⟨w, hpost, -, _, -, hg⟩ := ways_matches hx
    rw [Way.text, hg, Function.update_self, Option.getD_some, hpost]
  have hposts : ((Re.group n (.rep p lo hi false)).ways Place.part g pre post).Pairwise fun x z =>
      z.post.length < x.post.length := by
    rw [Re.ways, Re.ways, List.map_map, List.pairwise_map]
    exact lazyEnds_pairwise
  refine hposts.imp_of_mem fun {x z} hx hz hlt => ?_
  have hlen := congrArg List.length ((htext x hx).trans (htext z hz).symm)
  rw [List.length_append, List.length_append] at hlen
  exact ⟨by omega, htext x hx, htext z hz⟩

/-- A sequence that begins with a lazy group: what the group captures never gets shorter. -/
theorem ways_cat_lazy_pairwise (hfree : (Re.cat l).avoids n = true) :
    ((Re.cat (.group n (.rep p lo hi false) :: l)).ways Place.part g pre post).Pairwise fun x z =>
      (x.text n).length ≤ (z.text n).length := by
  have hkept : ∀ {y x : Way N (List Char)}, x ∈ (Re.cat l).ways Place.part y.groups y.pre y.post →
      x.text n = y.text n := by
    intro y x hx
    rw [Way.text, Way.text, ways_groups_of_avoids hfree hx]
  rw [ways_cat_cons, List.pairwise_flatMap]
  constructor
  · intro y _
    refine List.pairwise_of_forall_mem_list fun x hx z hz => ?_
    rw [hkept hx, hkept hz]
  · refine ways_lazy_group_pairwise.imp fun {y y'} h x hx z hz => ?_
    rw [hkept hx, hkept hz]
    exact Nat.le_of_lt h.1

/-- A greedy repetition and a lazy group: the group begins as far behind as it can, and ends as early as
it can. -/
theorem ways_rep_lazy_pairwise :
    ((Re.cat [.rep q lo' hi' true, .group n (.rep p lo hi false)]).ways Place.part g pre post).Pairwise
      fun x z => (x.text n ++ x.post).length < (z.text n ++ z.post).length ∨
        (x.text n ++ x.post = z.text n ++ z.post ∧ (x.text n).length < (z.text n).length) := by
  rw [ways_cat_cons, List.pairwise_flatMap]
  constructor
  · intro y _
    exact ways_lazy_group_pairwise.imp fun h => Or.inr ⟨h.2.1.trans h.2.2.symm, h.1⟩
  · rw [Re.ways, List.pairwise_map]
    refine greedyEnds_pairwise.imp fun {e e'} hlt x hx z hz => Or.inl ?_
    have htext : ∀ {y x : Way N (List Char)},
        x ∈ (Re.cat [.group n (.rep p lo hi false)]).ways Place.part y.groups y.pre y.post →
          x.text n ++ x.post = y.post := by
      intro y x hx
      obtain ⟨w, hpost, -, _, -, hg⟩ := ways_matches hx
      rw [Way.text, hg, Function.update_self, Option.getD_some, hpost]
    rw [htext hx, htext hz]
    exact hlt

end

/-! ## The leftmost match of an expression that ends the text -/

/-- A match at which no earlier one begins is what the search finds. -/
theorem search_of_leftmost {r : Re N} {u v : List Char} {m : Match N}
    (h : r.matchAt u.reverse v = some m)
    (hleft : ∀ u' v', u ++ v = u' ++ v' → u'.length < u.length → r.matchAt u'.reverse v' = none) :
    r.search (u ++ v) = some m := by
  obtain ⟨m', hm'⟩ : ∃ m', r.search (u ++ v) = some m' := by
    refine Option.ne_none_iff_exists'.1 fun hno => ?_
    rw [search_eq_none.1 hno u v rfl] at h
    cases h
  obtain ⟨u', v', heq, hfound, hleft'⟩ := search_eq_some hm'
  rcases Nat.lt_trichotomy u'.length u.length with hlt | hlen | hlt
  · rw [hleft u' v' heq hlt] at hfound
    cases hfound
  · obtain ⟨rfl, rfl⟩ := List.append_inj heq hlen.symm
    rw [hm', ← hfound, h]
  · rw [hleft' u v rfl hlt] at h
    cases h

/-- An expression that ends the text, and never matches the empty text, matches once at most. -/
theorem finditer_of_ends {r : Re N} (hends : r.Ends) (hne : r.Needs fun _ => True) (s : List Char) :
    r.finditer s = (r.search s).toList := by
  have hempty : ∀ pre, r.matchAt pre [] = none := fun pre =>
    matchAt_eq_none hne fun c hc => absurd hc List.not_mem_nil
  have hskip : ∀ (post pre : List Char), r.scanFrom post.length pre post = [] := by
    intro post
    induction post with
    | nil =>
      intro pre
      rw [List.length_nil, Re.scanFrom, hempty]
      rfl
    | cons c cs ih => exact fun pre => ih (c :: pre)
  have hscan : ∀ (post pre : List Char), r.scanFrom 0 pre post = (r.searchFrom pre post).toList := by
    intro post
    induction post with
    | nil => exact fun pre => rfl
    | cons c cs ih =>
      intro pre
      rw [Re.scanFrom, Re.searchFrom]
      cases hm : r.matchAt pre (c :: cs) with
      | none => exact ih (c :: pre)
      | some m =>
        obtain ⟨w, post', g', hw, hmatch, rfl⟩ := matchAt_sound hm
        obtain rfl := hends.post_eq_nil hmatch
        rw [List.append_nil] at hw
        subst hw
        dsimp only
        rw [Nat.add_sub_cancel_left, List.length_cons, Nat.add_sub_cancel, hskip]
        rfl
  exact hscan s []

end CivicProof.Regex
