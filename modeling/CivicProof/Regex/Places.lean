import CivicProof.Regex.Runs
import CivicProof.Regex.Ways

/-!
# Where the groups of a match stand

`Re.placesAt` gives the places of the groups of the match that begins at some position of a text.

* `finditer_places`: the texts of these places are the groups of the matches found, and each place is a
  place of the text.
* `mem_ways_append`, `first_append`: a sequence in two parts.
* `Re.Tail`: what is left of a sequence behind expressions without a group.
* `ways_ne_nil`, `first_seq_total`: in front of something that can always go on, the first way is taken.
* `fenced_ahead`, `fenced_ahead_of_needs`: no character of a class ahead of what takes none.
-/

namespace CivicProof.Regex

variable {N : Type} [DecidableEq N] {γ : Type}

/-- The text around a place and in it. -/
def Place.text (pl : Place) : List Char := pl.before.reverse ++ (pl.part ++ pl.after)

/-- The places of the groups of the match of `r` that begins at `i`. -/
def Re.placesAt (r : Re N) (text : List Char) (i : ℕ) (n : N) : Option Place :=
  (r.first id (fun _ => none) (text.take i).reverse (text.drop i)).bind fun x => x.groups n

/-- A group that took part has a place in the text. -/
theorem ways_place {n : N} {pl : Place} {r : Re N} : ∀ {g : N → Option Place} {pre post : List Char}
    {x : Way N Place}, x ∈ r.ways id g pre post → x.groups n = some pl →
      g n = some pl ∨ pl.text = pre.reverse ++ post := by
  induction r with
  | eps =>
    intro g pre post x h hpl
    rw [List.mem_singleton.1 h] at hpl
    exact Or.inl hpl
  | set p =>
    intro g pre post x h hpl
    cases post with
    | nil => cases h
    | cons c cs =>
      rw [Re.ways] at h
      split at h
      · rw [List.mem_singleton.1 h] at hpl
        exact Or.inl hpl
      · cases h
  | seq a b iha ihb =>
    intro g pre post x h hpl
    obtain ⟨y, hy, hx⟩ := List.mem_flatMap.1 h
    rcases ihb hx hpl with hg | htext
    · exact iha hy hg
    · obtain ⟨u, -, rfl, hpre, -⟩ := ways_sound hy fun _ => none
      refine Or.inr (htext.trans ?_)
      rw [hpre, List.reverse_append, List.reverse_reverse, List.append_assoc]
  | alt a b iha ihb =>
    intro g pre post x h hpl
    rcases List.mem_append.1 h with h | h
    · exact iha h hpl
    · exact ihb h hpl
  | rep p lo hi greedy =>
    intro g pre post x h hpl
    cases greedy
    · obtain ⟨y, -, rfl⟩ := List.mem_map.1 h
      exact Or.inl hpl
    · obtain ⟨y, -, rfl⟩ := List.mem_map.1 h
      exact Or.inl hpl
  | group m a iha =>
    intro g pre post x h hpl
    obtain ⟨y, hy, rfl⟩ := List.mem_map.1 h
    by_cases hnm : n = m
    · subst hnm
      obtain ⟨u, -, rfl, hpre, -⟩ := ways_sound hy fun _ => none
      dsimp only at hpl
      rw [Function.update_self] at hpl
      obtain rfl := Option.some.inj hpl
      refine Or.inr ?_
      simp [Place.text, hpre]
    · dsimp only at hpl
      rw [Function.update_of_ne hnm] at hpl
      exact iha hy hpl
  | assert t =>
    intro g pre post x h hpl
    rw [Re.ways] at h
    split at h
    · rw [List.mem_singleton.1 h] at hpl
      exact Or.inl hpl
    · cases h

theorem placesAt_text {r : Re N} {text : List Char} {i : ℕ} {n : N} {pl : Place}
    (h : r.placesAt text i n = some pl) : pl.text = text := by
  obtain ⟨x, hx, hpl⟩ := Option.bind_eq_some_iff.1 h
  have htext := (ways_place (List.mem_of_head? hx) hpl).resolve_left (Option.some_ne_none pl).symm
  rw [htext, List.reverse_reverse, List.take_append_drop]

/-- A match that is found is the first way from where it begins. -/
theorem finditer_first {r : Re N} {text : List Char} {m : Match N} (h : m ∈ r.finditer text) :
    ∃ x, r.first id (fun _ => none) (text.take m.start).reverse (text.drop m.start) = some x ∧
      m.groups = fun n => (x.groups n).map Place.part := by
  obtain ⟨u, v, rfl, hm⟩ := scanFrom_sound h
  rw [List.append_nil, matchAt_eq_first, Option.map_eq_some_iff] at hm
  obtain ⟨y, hy, rfl⟩ := hm
  have hsame : r.ways Place.part (fun _ => none) u.reverse v =
      (r.ways id (fun _ => none) u.reverse v).map fun x =>
        ⟨fun n => (x.groups n).map Place.part, x.pre, x.post⟩ :=
    @ways_map N _ Place (List Char) id Place.part r (fun _ => none) u.reverse v
  unfold Re.first at hy
  rw [hsame, List.head?_map, Option.map_eq_some_iff] at hy
  obtain ⟨x, hx, rfl⟩ := hy
  refine ⟨x, ?_, rfl⟩
  dsimp only
  rw [List.length_reverse, List.take_left, List.drop_left]
  exact hx

/-- **The places of the groups that were captured.** -/
theorem finditer_places {r : Re N} {text : List Char} {m : Match N} (h : m ∈ r.finditer text) (n : N) :
    m.groups n = (r.placesAt text m.start n).map Place.part := by
  obtain ⟨x, hx, hgroups⟩ := finditer_first h
  rw [hgroups, Re.placesAt, hx]
  rfl

/-! ## Expressions without a group -/

section

variable {n : N} {a : Re N} {l : List (Re N)}

@[simp] theorem avoids_cat : (Re.cat l).avoids n = l.all (Re.avoids n) := by
  induction l with
  | nil => rfl
  | cons a l ih =>
    cases l with
    | nil => simp [Re.cat]
    | cons b l =>
      have hcons : (Re.cat (a :: b :: l)).avoids n = (a.avoids n && (Re.cat (b :: l)).avoids n) := rfl
      rw [hcons, ih, List.all_cons (a := a)]

@[simp] theorem avoids_any : (Re.any l).avoids n = l.all (Re.avoids n) := by
  induction l with
  | nil => rfl
  | cons a l ih =>
    cases l with
    | nil => simp [Re.any]
    | cons b l =>
      have hcons : (Re.any (a :: b :: l)).avoids n = (a.avoids n && (Re.any (b :: l)).avoids n) := rfl
      rw [hcons, ih, List.all_cons (a := a)]

@[simp] theorem avoids_opt : a.opt.avoids n = a.avoids n := Bool.and_true _

@[simp] theorem avoids_lit {f : Char → Char → Bool} {s : String} : (Re.lit f s : Re N).avoids n = true := by
  unfold Re.lit
  rw [avoids_cat, List.all_map]
  exact List.all_eq_true.2 fun _ _ => rfl

end

/-! ## Sequences in two parts -/

section

variable {see : Place → γ} {a b : Re N} {g : N → Option γ} {pre post : List Char} {x z : Way N γ}
  {l l' : List (Re N)} {n : N}

theorem ways_cat_cons : (Re.cat (a :: l)).ways see g pre post =
    (a.ways see g pre post).flatMap fun y => (Re.cat l).ways see y.groups y.pre y.post := by
  cases l with
  | nil => exact (List.flatMap_singleton' _).symm
  | cons b l => rfl

theorem ways_append : (Re.cat (l ++ l')).ways see g pre post =
    ((Re.cat l).ways see g pre post).flatMap fun y =>
      (Re.cat l').ways see y.groups y.pre y.post := by
  induction l generalizing g pre post with
  | nil => exact (List.flatMap_singleton _ _).symm
  | cons a l ih =>
    rw [List.cons_append, ways_cat_cons, ways_cat_cons, List.flatMap_assoc]
    exact congrArg (List.flatMap · _) (funext fun y => ih)

theorem mem_ways_append (h : x ∈ (Re.cat (l ++ l')).ways see g pre post) :
    ∃ y ∈ (Re.cat l).ways see g pre post, x ∈ (Re.cat l').ways see y.groups y.pre y.post := by
  rw [ways_append] at h
  exact List.mem_flatMap.1 h

theorem first_append (h : (Re.cat (l ++ l')).first see g pre post = some z) :
    ∃ y ∈ (Re.cat l).ways see g pre post,
      (Re.cat l').first see y.groups y.pre y.post = some z := by
  unfold Re.first at h ⊢
  rw [ways_append, List.head?_flatMap] at h
  exact List.exists_of_findSome?_eq_some h

theorem mem_ways_group (h : x ∈ (Re.group n a).ways see g pre post) :
    ∃ w, post = w ++ x.post ∧ x.pre = w.reverse ++ pre ∧ x.groups n = some (see ⟨pre, w, x.post⟩) := by
  obtain ⟨w, -, hpost, hpre, -⟩ := ways_sound h fun _ => none
  obtain ⟨y, hy, rfl⟩ := List.mem_map.1 h
  refine ⟨w, hpost, hpre, ?_⟩
  dsimp only at hpost hpre ⊢
  rw [Function.update_self, hpost, hpre]
  simp

/-- The first way through a group, with the text that it takes. -/
theorem first_group_place (h : (Re.group n a).first see g pre post = some z) :
    ∃ x w, a.first see g pre post = some x ∧ post = w ++ x.post ∧ x.pre = w.reverse ++ pre ∧
      z = ⟨Function.update x.groups n (some (see ⟨pre, w, x.post⟩)), x.pre, x.post⟩ := by
  obtain ⟨x, hx, rfl⟩ := first_group h
  obtain ⟨w, -, hpost, hpre, -⟩ := ways_sound (first_mem hx) fun _ => none
  refine ⟨x, w, hx, hpost, hpre, ?_⟩
  have htake : post.take (x.pre.length - pre.length) = w := by
    rw [hpost, hpre]
    simp
  rw [htake]

/-- `tail` is what is left of a sequence behind expressions without the group `n`. -/
inductive Re.Tail (n : N) (tail : Re N) : Re N → Prop
  | here : Re.Tail n tail tail
  | there {a b : Re N} : a.avoids n = true → Re.Tail n tail b → Re.Tail n tail (.seq a b)

/-- The rest of a list of expressions, the first of which do not have the group. -/
theorem Re.Tail.of_append {b : Re N} (hfree : l.all (Re.avoids n) = true) :
    Re.Tail n (Re.cat (b :: l')) (Re.cat (l ++ (b :: l'))) := by
  induction l with
  | nil => exact .here
  | cons a l ih =>
    rw [List.all_cons, Bool.and_eq_true] at hfree
    have hrest := ih hfree.2
    cases l with
    | nil => exact .there hfree.1 hrest
    | cons c l => exact .there hfree.1 hrest

theorem Re.Tail.ways {tail r : Re N} (ht : Re.Tail n tail r) :
    ∀ {g : N → Option γ} {pre post : List Char}, x ∈ r.ways see g pre post →
      ∃ y : Way N γ, y.groups n = g n ∧ x ∈ tail.ways see y.groups y.pre y.post := by
  induction ht with
  | here => exact fun h => ⟨⟨_, _, _⟩, rfl, h⟩
  | there hfree _ ih =>
    intro g pre post h
    obtain ⟨y, hy, hx⟩ := List.mem_flatMap.1 h
    obtain ⟨y', hsame, hx⟩ := ih hx
    exact ⟨y', hsame.trans (ways_groups_of_avoids hfree hy), hx⟩

/-- **In front of something that can always go on**, the first way is taken. -/
theorem first_seq_total (htotal : ∀ g pre post, b.ways see g pre post ≠ [])
    (h : (Re.seq a b).first see g pre post = some z) :
    ∃ x, a.first see g pre post = some x ∧ b.first see x.groups x.pre x.post = some z := by
  unfold Re.first at h ⊢
  rw [Re.ways, List.head?_flatMap] at h
  cases hl : a.ways see g pre post with
  | nil =>
    rw [hl] at h
    cases h
  | cons x l =>
    rw [hl, List.findSome?_cons] at h
    refine ⟨x, rfl, ?_⟩
    split at h
    · rename_i y hy
      rw [hy, ← h]
    · rename_i hnone
      exact absurd (List.head?_eq_none_iff.1 hnone) (htotal _ _ _)

/-- An expression that matches the empty text everywhere always has a way. -/
theorem ways_ne_nil (hnil : ∀ g pre post, a.Matches g pre [] post g) (g : N → Option γ)
    (pre post : List Char) : a.ways see g pre post ≠ [] := by
  obtain ⟨y, hy, -⟩ := ways_complete see (hnil (fun _ => none) pre post) g
  exact List.ne_nil_of_mem hy

/-- The first way through an optional expression, where it has one. -/
theorem first_opt : a.opt.first see g pre post =
    some ((a.first see g pre post).getD ⟨g, pre, post⟩) := by
  unfold Re.first Re.opt
  rw [Re.ways, List.head?_append]
  cases (a.ways see g pre post).head? <;> rfl

end

/-! ## Fences ahead -/

section

variable {p : Char → Bool} {see : Place → γ} {a : Re N} {g : N → Option γ} {pre post : List Char}
  {x : Way N γ}

/-- Ahead of characters outside the class there is a fence. -/
theorem fenced_ahead (hout : a.Within fun c => p c = false) (h : x ∈ a.ways see g pre post)
    (hpost : Fenced p x.post) : Fenced p post := by
  obtain ⟨w, g', hw, -, hm⟩ := ways_sound h fun _ => none
  rw [hw]
  cases w with
  | nil => exact hpost
  | cons c w =>
    intro d hd
    obtain rfl := Option.some.inj hd
    exact hout.forall_mem hm c List.mem_cons_self

theorem fenced_ahead_of_needs (hout : a.Within fun c => p c = false) (hne : a.Needs fun _ => True)
    (h : x ∈ a.ways see g pre post) : Fenced p post := by
  obtain ⟨w, g', hw, -, hm⟩ := ways_sound h fun _ => none
  obtain ⟨c, hc, -⟩ := hne.exists_mem hm
  obtain ⟨d, w, rfl⟩ := List.exists_cons_of_ne_nil (List.ne_nil_of_mem hc)
  rw [hw]
  intro e he
  obtain rfl := Option.some.inj he
  exact hout.forall_mem hm d List.mem_cons_self

/-- Ahead of an expression that ends the text. -/
theorem fenced_ahead_of_ends (hout : a.Within fun c => p c = false) (hends : a.Ends)
    (h : x ∈ a.ways see g pre post) : Fenced p post := by
  refine fenced_ahead hout h ?_
  obtain ⟨w, g', -, -, hm⟩ := ways_sound h fun _ => none
  rw [hends.post_eq_nil hm]
  exact Fenced.nil

omit [DecidableEq N] in
/-- Characters of a class up to a fence. -/
theorem span_of_fenced {u v u' v' : List Char} (hu : ∀ c ∈ u, p c = true) (hv : Fenced p v)
    (hu' : ∀ c ∈ u', p c = true) (hv' : Fenced p v') (heq : u ++ v = u' ++ v') : u = u' ∧ v = v' := by
  have htake := congrArg (List.takeWhile p) heq
  rw [List.takeWhile_append_of_pos hu, List.takeWhile_append_of_pos hu', takeWhile_of_fenced hv,
    takeWhile_of_fenced hv', List.append_nil, List.append_nil] at htake
  subst htake
  exact ⟨rfl, List.append_cancel_left heq⟩

end

end CivicProof.Regex
