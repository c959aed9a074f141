import CivicProof.Regex.Language
import Mathlib.Data.List.DropRight

/-!
# The order of the search

`Re.ways` lists every way through an expression, in the order in which the matcher tries them, and
records of each group what is wanted of the place where it stood: its text, or all of the place.

* `run_eq_findSome?`: the matcher answers with the first way from which the rest goes on.
* `ways_sound`, `ways_complete`: the ways stand for the matches.
* `ways_map`: what is recorded does not change the ways.
* `first_seq`, `first_greedy`: the first way through a sequence and a greedy repetition.
* `maxRun_extend`, `fenced_way`: the run of a class around a part of a text.
* `search_eq_some`: a search answers at the first place where the expression matches.
-/

namespace CivicProof.Regex

variable {N : Type} [DecidableEq N] {β γ δ : Type}

/-- A part of a text, with what stands before it (last character first) and after it. -/
structure Place where
  before : List Char
  part : List Char
  after : List Char
  deriving DecidableEq

/-- The end of a way through an expression: what was recorded of the groups, and the text before
(last character first) and after the end. -/
structure Way (N γ : Type) where
  groups : N → Option γ
  pre : List Char
  post : List Char

/-- The ends of a greedy repetition, the longest one first. -/
def greedyEnds (p : Char → Bool) : ℕ → Option ℕ → List Char → List Char →
    List (List Char × List Char)
  | lo, _, pre, [] => if lo = 0 then [(pre, [])] else []
  | lo, hi, pre, c :: cs =>
    (if p c ∧ hi ≠ some 0 then greedyEnds p (lo - 1) (hi.map (· - 1)) (c :: pre) cs else []) ++
      (if lo = 0 then [(pre, c :: cs)] else [])

/-- The ends of a lazy repetition, the shortest one first. -/
def lazyEnds (p : Char → Bool) : ℕ → Option ℕ → List Char → List Char →
    List (List Char × List Char)
  | lo, _, pre, [] => if lo = 0 then [(pre, [])] else []
  | lo, hi, pre, c :: cs =>
    (if lo = 0 then [(pre, c :: cs)] else []) ++
      (if p c ∧ hi ≠ some 0 then lazyEnds p (lo - 1) (hi.map (· - 1)) (c :: pre) cs else [])

/-- **All ways through an expression**, in the order of the search. `see` is what is recorded of
the place of a group. -/
def Re.ways (see : Place → γ) : Re N → (N → Option γ) → List Char → List Char → List (Way N γ)
  | .eps, g, pre, post => [⟨g, pre, post⟩]
  | .set p, g, pre, post =>
    match post with
    | [] => []
    | c :: cs => if p c then [⟨g, c :: pre, cs⟩] else []
  | .seq a b, g, pre, post =>
    (a.ways see g pre post).flatMap fun x => b.ways see x.groups x.pre x.post
  | .alt a b, g, pre, post => a.ways see g pre post ++ b.ways see g pre post
  | .rep p lo hi true, g, pre, post => (greedyEnds p lo hi pre post).map fun x => ⟨g, x.1, x.2⟩
  | .rep p lo hi false, g, pre, post => (lazyEnds p lo hi pre post).map fun x => ⟨g, x.1, x.2⟩
  | .group n a, g, pre, post => (a.ways see g pre post).map fun x =>
      ⟨Function.update x.groups n
        (some (see ⟨pre, post.take (x.pre.length - pre.length), x.post⟩)), x.pre, x.post⟩
  | .assert t, g, pre, post => if t pre post then [⟨g, pre, post⟩] else []

/-- The first way through an expression. -/
def Re.first (see : Place → γ) (r : Re N) (g : N → Option γ) (pre post : List Char) :
    Option (Way N γ) := (r.ways see g pre post).head?

/-! ## The matcher -/

theorem runGreedy_eq {p : Char → Bool} {k : List Char → List Char → Option β} :
    ∀ {post : List Char} {lo : ℕ} {hi : Option ℕ} {pre : List Char},
      runGreedy p k lo hi pre post = (greedyEnds p lo hi pre post).findSome? fun x => k x.1 x.2 := by
  intro post
  induction post with
  | nil =>
    intro lo hi pre
    rw [runGreedy, greedyEnds]
    split <;> simp
  | cons c cs ih =>
    intro lo hi pre
    rw [runGreedy, greedyEnds, List.findSome?_append, ih]
    split <;> split <;> simp

theorem runLazy_eq {p : Char → Bool} {k : List Char → List Char → Option β} :
    ∀ {post : List Char} {lo : ℕ} {hi : Option ℕ} {pre : List Char},
      runLazy p k lo hi pre post = (lazyEnds p lo hi pre post).findSome? fun x => k x.1 x.2 := by
  intro post
  induction post with
  | nil =>
    intro lo hi pre
    rw [runLazy, lazyEnds]
    split <;> simp
  | cons c cs ih =>
    intro lo hi pre
    rw [runLazy, lazyEnds, List.findSome?_append, ih]
    split <;> split <;> simp

omit [DecidableEq N] in
theorem findSome?_flatMap {α α' : Type} (l : List α) (f : α → List α') (k : α' → Option β) :
    (l.flatMap f).findSome? k = l.findSome? fun x => (f x).findSome? k := by
  induction l with
  | nil => rfl
  | cons a l ih =>
    rw [List.flatMap_cons, List.findSome?_append, ih, List.findSome?_cons]
    cases (f a).findSome? k <;> rfl

/-- **The matcher answers with the first way** from which the rest of the search goes on. -/
theorem run_eq_findSome? {r : Re N} : ∀ {k : Caps N → List Char → List Char → Option β}
    {g : Caps N} {pre post : List Char}, r.run k g pre post =
      (r.ways Place.part g pre post).findSome? fun x => k x.groups x.pre x.post := by
  induction r with
  | eps =>
    intro k g pre post
    simp [Re.run, Re.ways]
  | set p =>
    intro k g pre post
    cases post with
    | nil => rfl
    | cons c cs =>
      rw [Re.run, Re.ways]
      split <;> simp
  | seq a b iha ihb =>
    intro k g pre post
    rw [Re.run, Re.ways, iha, findSome?_flatMap]
    exact congrArg (List.findSome? · _) (funext fun x => ihb)
  | alt a b iha ihb =>
    intro k g pre post
    rw [Re.run, Re.ways, List.findSome?_append, iha, ihb]
  | rep p lo hi greedy =>
    intro k g pre post
    cases greedy
    · rw [Re.run, Re.ways, List.findSome?_map, runLazy_eq]
      rfl
    · rw [Re.run, Re.ways, List.findSome?_map, runGreedy_eq]
      rfl
  | group n a iha =>
    intro k g pre post
    rw [Re.run, Re.ways, List.findSome?_map, iha]
    rfl
  | assert t =>
    intro k g pre post
    rw [Re.run, Re.ways]
    split <;> simp

/-- An anchored match is the first way. -/
theorem matchAt_eq_first (r : Re N) (pre post : List Char) : r.matchAt pre post =
    (r.first Place.part (fun _ => none) pre post).map fun x =>
      ⟨x.groups, pre.length, x.pre.length⟩ := by
  unfold Re.matchAt Re.first
  rw [run_eq_findSome?]
  cases r.ways Place.part (fun _ => none) pre post with
  | nil => rfl
  | cons x l => rfl

/-! ## What the ways stand for -/

theorem greedyEnds_sound {p : Char → Bool} {y : List Char × List Char} :
    ∀ {post : List Char} {lo : ℕ} {hi : Option ℕ} {pre : List Char},
      y ∈ greedyEnds p lo hi pre post →
        ∃ w, post = w ++ y.2 ∧ y.1 = w.reverse ++ pre ∧ Run p lo hi w := by
  intro post
  induction post with
  | nil =>
    intro lo hi pre h
    rw [greedyEnds] at h
    split at h
    · rename_i hlo
      rw [List.mem_singleton.1 h, hlo]
      exact ⟨[], rfl, rfl, Run.nil⟩
    · cases h
  | cons c cs ih =>
    intro lo hi pre h
    rw [greedyEnds, List.mem_append] at h
    rcases h with h | h
    · split at h
      · rename_i hc
        obtain ⟨w, hw, hpre, hrun⟩ := ih h
        exact ⟨c :: w, by rw [hw, List.cons_append], by simp [hpre], Run.cons_iff.2 ⟨hc.1, hc.2, hrun⟩⟩
      · cases h
    · split at h
      · rename_i hlo
        rw [List.mem_singleton.1 h, hlo]
        exact ⟨[], rfl, rfl, Run.nil⟩
      · cases h

theorem mem_lazyEnds {p : Char → Bool} {y : List Char × List Char} :
    ∀ {post : List Char} {lo : ℕ} {hi : Option ℕ} {pre : List Char},
      y ∈ lazyEnds p lo hi pre post ↔ y ∈ greedyEnds p lo hi pre post := by
  intro post
  induction post with
  | nil =>
    intro lo hi pre
    rw [lazyEnds, greedyEnds]
  | cons c cs ih =>
    intro lo hi pre
    rw [lazyEnds, greedyEnds, List.mem_append, List.mem_append, or_comm]
    refine or_congr_left ?_
    split
    · exact ih
    · exact Iff.rfl

/-- **A way stands for a match**, whatever the groups had before. -/
theorem ways_sound {see : Place → γ} {r : Re N} : ∀ {g : N → Option γ} {pre post : List Char}
    {x : Way N γ}, x ∈ r.ways see g pre post → ∀ g₀ : Caps N,
      ∃ w g', post = w ++ x.post ∧ x.pre = w.reverse ++ pre ∧ r.Matches g₀ pre w x.post g' := by
  induction r with
  | eps =>
    intro g pre post x h g₀
    rw [List.mem_singleton.1 h]
    exact ⟨[], g₀, rfl, rfl, rfl, rfl⟩
  | set p =>
    intro g pre post x h g₀
    cases post with
    | nil => cases h
    | cons c cs =>
      rw [Re.ways] at h
      split at h
      · rw [List.mem_singleton.1 h]
        exact ⟨[c], g₀, rfl, rfl, c, ‹_›, rfl, rfl⟩
      · cases h
  | seq a b iha ihb =>
    intro g pre post x h g₀
    obtain ⟨y, hy, hx⟩ := List.mem_flatMap.1 h
    obtain ⟨u, g₁, rfl, hpre, ha⟩ := iha hy g₀
    obtain ⟨v, g₂, hpost, hpre', hb⟩ := ihb hx g₁
    refine ⟨u ++ v, g₂, ?_, ?_, u, v, g₁, rfl, hpost ▸ ha, hpre ▸ hb⟩
    · rw [hpost, List.append_assoc]
    · rw [hpre', hpre, List.reverse_append, List.append_assoc]
  | alt a b iha ihb =>
    intro g pre post x h g₀
    rcases List.mem_append.1 h with h | h
    · obtain ⟨w, g', hpost, hpre, hm⟩ := iha h g₀
      exact ⟨w, g', hpost, hpre, Or.inl hm⟩
    · obtain ⟨w, g', hpost, hpre, hm⟩ := ihb h g₀
      exact ⟨w, g', hpost, hpre, Or.inr hm⟩
  | rep p lo hi greedy =>
    intro g pre post x h g₀
    have hends : ∃ y ∈ greedyEnds p lo hi pre post, (⟨g, y.1, y.2⟩ : Way N γ) = x := by
      cases greedy
      · obtain ⟨y, hy, hx⟩ := List.mem_map.1 h
        exact ⟨y, mem_lazyEnds.1 hy, hx⟩
      · exact List.mem_map.1 h
    obtain ⟨y, hy, rfl⟩ := hends
    obtain ⟨w, hpost, hpre, hw⟩ := greedyEnds_sound hy
    exact ⟨w, g₀, hpost, hpre, hw, rfl⟩
  | group n a iha =>
    intro g pre post x h g₀
    obtain ⟨y, hy, rfl⟩ := List.mem_map.1 h
    obtain ⟨w, g₁, hpost, hpre, ha⟩ := iha hy g₀
    exact ⟨w, _, hpost, hpre, g₁, ha, rfl⟩
  | assert t =>
    intro g pre post x h g₀
    rw [Re.ways] at h
    split at h
    · rw [List.mem_singleton.1 h]
      exact ⟨[], g₀, rfl, rfl, ‹_›, rfl, rfl⟩
    · cases h

theorem greedyEnds_complete {p : Char → Bool} {post : List Char} :
    ∀ {w : List Char} {lo : ℕ} {hi : Option ℕ} {pre : List Char}, Run p lo hi w →
      (w.reverse ++ pre, post) ∈ greedyEnds p lo hi pre (w ++ post) := by
  intro w
  induction w with
  | nil =>
    intro lo hi pre hw
    have hlo : lo = 0 := Nat.le_zero.1 hw.2.1
    cases post <;> simp [greedyEnds, hlo]
  | cons c w ih =>
    intro lo hi pre hw
    obtain ⟨hc, hhi, hw⟩ := Run.cons_iff.1 hw
    have hrest : (w.reverse ++ (c :: pre), post) ∈
        greedyEnds p (lo - 1) (hi.map (· - 1)) (c :: pre) (w ++ post) := ih hw
    rw [List.cons_append, greedyEnds, if_pos ⟨hc, hhi⟩, List.reverse_cons, List.append_assoc]
    exact List.mem_append_left _ hrest

/-- **Every match is one of the ways**, whatever the groups had before. -/
theorem ways_complete (see : Place → γ) {r : Re N} : ∀ {g₀ g' : Caps N} {pre w post : List Char},
    r.Matches g₀ pre w post g' → ∀ g : N → Option γ,
      ∃ x ∈ r.ways see g pre (w ++ post), x.pre = w.reverse ++ pre ∧ x.post = post := by
  induction r with
  | eps =>
    rintro g₀ g' pre w post ⟨rfl, -⟩ g
    exact ⟨_, List.mem_singleton_self _, rfl, rfl⟩
  | set p =>
    rintro g₀ g' pre w post ⟨c, hc, rfl, -⟩ g
    rw [List.cons_append, Re.ways]
    exact ⟨⟨g, c :: pre, post⟩, by simp [hc], rfl, rfl⟩
  | seq a b iha ihb =>
    rintro g₀ g' pre w post ⟨u, v, g₁, rfl, ha, hb⟩ g
    obtain ⟨y, hy, hpre, hpost⟩ := iha ha g
    obtain ⟨x, hx, hxpre, hxpost⟩ := ihb hb y.groups
    rw [← hpre, ← hpost] at hx
    rw [List.append_assoc]
    refine ⟨x, List.mem_flatMap.2 ⟨y, hy, hx⟩, ?_, hxpost⟩
    rw [hxpre, List.reverse_append, List.append_assoc]
  | alt a b iha ihb =>
    rintro g₀ g' pre w post (h | h) g
    · obtain ⟨x, hx, hends⟩ := iha h g
      exact ⟨x, List.mem_append_left _ hx, hends⟩
    · obtain ⟨x, hx, hends⟩ := ihb h g
      exact ⟨x, List.mem_append_right _ hx, hends⟩
  | rep p lo hi greedy =>
    rintro g₀ g' pre w post ⟨hw, -⟩ g
    have hend : (w.reverse ++ pre, post) ∈ greedyEnds p lo hi pre (w ++ post) :=
      greedyEnds_complete hw
    cases greedy
    · exact ⟨_, List.mem_map.2 ⟨_, mem_lazyEnds.2 hend, rfl⟩, rfl, rfl⟩
    · exact ⟨_, List.mem_map.2 ⟨_, hend, rfl⟩, rfl, rfl⟩
  | group n a iha =>
    rintro g₀ g' pre w post ⟨g₁, ha, -⟩ g
    obtain ⟨y, hy, hends⟩ := iha ha g
    exact ⟨_, List.mem_map.2 ⟨y, hy, rfl⟩, hends⟩
  | assert t =>
    rintro g₀ g' pre w post ⟨ht, rfl, -⟩ g
    rw [List.nil_append, Re.ways, if_pos ht]
    exact ⟨_, List.mem_singleton_self _, rfl, rfl⟩

/-- What is recorded of the groups does not change the ways. -/
theorem ways_map {see : Place → γ} (f : γ → δ) {r : Re N} :
    ∀ {g : N → Option γ} {pre post : List Char},
      r.ways (fun pl => f (see pl)) (fun n => (g n).map f) pre post =
        (r.ways see g pre post).map fun x => ⟨fun n => (x.groups n).map f, x.pre, x.post⟩ := by
  induction r with
  | eps =>
    intro g pre post
    rfl
  | set p =>
    intro g pre post
    cases post with
    | nil => rfl
    | cons c cs =>
      rw [Re.ways, Re.ways]
      split <;> rfl
  | seq a b iha ihb =>
    intro g pre post
    rw [Re.ways, Re.ways, iha, List.flatMap_map, List.map_flatMap]
    exact congrArg (List.flatMap · _) (funext fun x => ihb)
  | alt a b iha ihb =>
    intro g pre post
    rw [Re.ways, Re.ways, List.map_append, iha, ihb]
  | rep p lo hi greedy =>
    intro g pre post
    cases greedy
    · rw [Re.ways, Re.ways, List.map_map]
      rfl
    · rw [Re.ways, Re.ways, List.map_map]
      rfl
  | group n a iha =>
    intro g pre post
    rw [Re.ways, Re.ways, iha, List.map_map, List.map_map]
    refine List.map_congr_left fun x _ => ?_
    have hgroups : Function.update (fun m => (x.groups m).map f) n
          (some (f (see ⟨pre, post.take (x.pre.length - pre.length), x.post⟩))) =
        fun m => (Function.update x.groups n
          (some (see ⟨pre, post.take (x.pre.length - pre.length), x.post⟩)) m).map f := by
      funext m
      by_cases hm : m = n
      · subst hm
        rw [Function.update_self, Function.update_self]
        rfl
      · rw [Function.update_of_ne hm, Function.update_of_ne hm]
    exact congrArg (fun gs => (⟨gs, x.pre, x.post⟩ : Way N δ)) hgroups
  | assert t =>
    intro g pre post
    rw [Re.ways, Re.ways]
    split <;> rfl

/-- A group that the expression does not have keeps what it had. -/
theorem ways_groups_of_avoids {see : Place → γ} {n : N} {r : Re N} :
    ∀ {g : N → Option γ} {pre post : List Char} {x : Way N γ}, r.avoids n = true →
      x ∈ r.ways see g pre post → x.groups n = g n := by
  induction r with
  | eps =>
    intro g pre post x _ h
    rw [List.mem_singleton.1 h]
  | set p =>
    intro g pre post x _ h
    cases post with
    | nil => cases h
    | cons c cs =>
      rw [Re.ways] at h
      split at h
      · rw [List.mem_singleton.1 h]
      · cases h
  | seq a b iha ihb =>
    intro g pre post x hfree h
    rw [Re.avoids, Bool.and_eq_true] at hfree
    obtain ⟨y, hy, hx⟩ := List.mem_flatMap.1 h
    rw [ihb hfree.2 hx, iha hfree.1 hy]
  | alt a b iha ihb =>
    intro g pre post x hfree h
    rw [Re.avoids, Bool.and_eq_true] at hfree
    rcases List.mem_append.1 h with h | h
    · exact iha hfree.1 h
    · exact ihb hfree.2 h
  | rep p lo hi greedy =>
    intro g pre post x _ h
    cases greedy
    · obtain ⟨y, -, rfl⟩ := List.mem_map.1 h
      rfl
    · obtain ⟨y, -, rfl⟩ := List.mem_map.1 h
      rfl
  | group m a iha =>
    intro g pre post x hfree h
    rw [Re.avoids, Bool.and_eq_true, decide_eq_true_iff] at hfree
    obtain ⟨y, hy, rfl⟩ := List.mem_map.1 h
    dsimp only
    rw [Function.update_of_ne (Ne.symm hfree.1), iha hfree.2 hy]
  | assert t =>
    intro g pre post x _ h
    rw [Re.ways] at h
    split at h
    · rw [List.mem_singleton.1 h]
    · cases h

/-! ## The first way -/

section First

variable {see : Place → γ} {a b : Re N} {g : N → Option γ} {pre post : List Char} {z : Way N γ}

/-- **The first way through a sequence**: some way through the front, then the first one from there. -/
theorem first_seq (h : (Re.seq a b).first see g pre post = some z) :
    ∃ x ∈ a.ways see g pre post, b.first see x.groups x.pre x.post = some z := by
  unfold Re.first at h ⊢
  rw [Re.ways, List.head?_flatMap] at h
  exact List.exists_of_findSome?_eq_some h

theorem first_cat_cons {l : List (Re N)} (h : (Re.cat (a :: l)).first see g pre post = some z) :
    ∃ x ∈ a.ways see g pre post, (Re.cat l).first see x.groups x.pre x.post = some z := by
  cases l with
  | nil => exact ⟨z, List.mem_of_head? h, rfl⟩
  | cons b l => exact first_seq h

theorem first_mem (h : a.first see g pre post = some z) : z ∈ a.ways see g pre post :=
  List.mem_of_head? h

/-- The first way through a group is the first way through what it holds. -/
theorem first_group {n : N} (h : (Re.group n a).first see g pre post = some z) :
    ∃ x, a.first see g pre post = some x ∧ z = ⟨Function.update x.groups n
      (some (see ⟨pre, post.take (x.pre.length - pre.length), x.post⟩)), x.pre, x.post⟩ := by
  unfold Re.first at h ⊢
  rw [Re.ways, List.head?_map, Option.map_eq_some_iff] at h
  obtain ⟨x, hx, rfl⟩ := h
  exact ⟨x, hx, rfl⟩

theorem greedyEnds_head {p : Char → Bool} {y : List Char × List Char} :
    ∀ {post : List Char} {lo : ℕ} {hi : Option ℕ} {pre : List Char},
      (greedyEnds p lo hi pre post).head? = some y → ∃ w, post = w ++ y.2 ∧
        y.1 = w.reverse ++ pre ∧ Run p lo hi w ∧
        (hi = some w.length ∨ ∀ c ∈ y.2.head?, p c = false) := by
  intro post
  induction post with
  | nil =>
    intro lo hi pre h
    obtain ⟨w, hw, hpre, hrun⟩ := greedyEnds_sound (List.mem_of_head? h)
    refine ⟨w, hw, hpre, hrun, Or.inr fun c hc => ?_⟩
    rw [(List.append_eq_nil_iff.1 hw.symm).2] at hc
    cases hc
  | cons c cs ih =>
    intro lo hi pre h
    rw [greedyEnds, List.head?_append, Option.or_eq_some_iff] at h
    rcases h with h | ⟨hstuck, h⟩
    · split at h
      · rename_i hc
        obtain ⟨w, hw, hpre, hrun, hend⟩ := ih h
        refine ⟨c :: w, by rw [hw, List.cons_append], by simp [hpre],
          Run.cons_iff.2 ⟨hc.1, hc.2, hrun⟩, hend.imp_left fun hhi => ?_⟩
        obtain ⟨n, rfl, hn⟩ := Option.map_eq_some_iff.1 hhi
        have hpos : n ≠ 0 := fun h0 => hc.2 (h0 ▸ rfl)
        rw [List.length_cons, ← hn]
        congr 1
        omega
      · cases h
    · split at h
      · rename_i hlo
        subst hlo
        rw [List.head?_cons] at h
        obtain rfl := Option.some.inj h
        refine ⟨[], rfl, rfl, Run.nil, ?_⟩
        by_cases hhi : hi = some 0
        · exact Or.inl hhi
        · refine Or.inr fun d hd => ?_
          obtain rfl := Option.some.inj hd
          by_contra hp
          rw [if_pos ⟨by simpa using hp, hhi⟩] at hstuck
          -- the shortest end is always there
          have hlast : (greedyEnds p 0 (hi.map (· - 1)) (c :: pre) cs) ≠ [] := by
            cases cs <;> simp [greedyEnds]
          exact hlast (List.head?_eq_none_iff.1 hstuck)
      · cases h

/-- **The first way through a greedy repetition** stops at the bound or before a character outside the
class. -/
theorem first_greedy {p : Char → Bool} {lo : ℕ} {hi : Option ℕ}
    (h : (Re.rep p lo hi true : Re N).first see g pre post = some z) : ∃ w, post = w ++ z.post ∧
      z.pre = w.reverse ++ pre ∧ z.groups = g ∧ Run p lo hi w ∧
      (hi = some w.length ∨ ∀ c ∈ z.post.head?, p c = false) := by
  unfold Re.first at h
  rw [Re.ways, List.head?_map, Option.map_eq_some_iff] at h
  obtain ⟨y, hy, rfl⟩ := h
  obtain ⟨w, hpost, hpre, hrun, hend⟩ := greedyEnds_head hy
  exact ⟨w, hpost, hpre, rfl, hrun, hend⟩

end First

/-! ## Fences -/

section Fences

variable {p : Char → Bool}

/-- A text that does not begin with a character of the class. -/
def Fenced (p : Char → Bool) (l : List Char) : Prop := ∀ c ∈ l.head?, p c = false

/-- A part of a text that consists of characters of the class, and with none of them around it. -/
def MaxRun (p : Char → Bool) (text w : List Char) : Prop :=
  ∃ u v, text = u ++ (w ++ v) ∧ w ≠ [] ∧ (∀ c ∈ w, p c = true) ∧ Fenced p u.reverse ∧ Fenced p v

theorem Fenced.nil : Fenced p [] := fun c hc => absurd hc (Option.not_mem_none c)

theorem fenced_dropWhile (l : List Char) : Fenced p (l.dropWhile p) := by
  intro c hc
  have hnot := List.head?_dropWhile_not p l
  rw [Option.mem_def.1 hc] at hnot
  simpa using hnot

theorem rdropWhile_append_rtakeWhile (l : List Char) : l.rdropWhile p ++ l.rtakeWhile p = l := by
  unfold List.rdropWhile List.rtakeWhile
  rw [← List.reverse_append, List.takeWhile_append_dropWhile, List.reverse_reverse]

/-- Characters of the class belong to one run, which goes on as far as the class does. -/
theorem maxRun_extend {u w v : List Char} (hne : w ≠ []) (hw : ∀ c ∈ w, p c = true) :
    MaxRun p (u ++ (w ++ v)) (u.rtakeWhile p ++ (w ++ v.takeWhile p)) := by
  refine ⟨u.rdropWhile p, v.dropWhile p, ?_, ?_, ?_, ?_, fenced_dropWhile v⟩
  · have hu : u = u.rdropWhile p ++ u.rtakeWhile p := (rdropWhile_append_rtakeWhile u).symm
    have hv : v = v.takeWhile p ++ v.dropWhile p := List.takeWhile_append_dropWhile.symm
    conv_lhs => rw [hu, hv]
    simp only [List.append_assoc]
  · intro h
    exact hne (List.append_eq_nil_iff.1 (List.append_eq_nil_iff.1 h).2).1
  · intro c hc
    rcases List.mem_append.1 hc with hc | hc
    · exact List.mem_rtakeWhile_imp hc
    · rcases List.mem_append.1 hc with hc | hc
      · exact hw c hc
      · exact List.mem_takeWhile_imp hc
  · unfold List.rdropWhile
    rw [List.reverse_reverse]
    exact fenced_dropWhile _

theorem takeWhile_of_fenced {l : List Char} (h : Fenced p l) : l.takeWhile p = [] := by
  cases l with
  | nil => rfl
  | cons c l => exact List.takeWhile_cons_of_neg (by rw [h c rfl]; exact Bool.false_ne_true)

/-- **One block of the class in a text**: characters of the class with a fence behind them end where the
block ends. -/
theorem block_end {a w b u w' v : List Char} (ha : ∀ c ∈ a, p c = false) (hw : ∀ c ∈ w, p c = true)
    (hb : ∀ c ∈ b, p c = false) (hne : w' ≠ []) (hw' : ∀ c ∈ w', p c = true) (hv : Fenced p v)
    (heq : a ++ (w ++ b) = u ++ (w' ++ v)) : v = b ∧ ∃ x, u = a ++ x ∧ w = x ++ w' := by
  have hclash : ∀ {c : Char}, p c = true → p c = false → False := by
    intro c h h'
    rw [h] at h'
    cases h'
  have hend : a ++ w = u ++ w' ∧ v = b := by
    rw [← List.append_assoc, ← List.append_assoc] at heq
    rcases List.append_eq_append_iff.1 heq with ⟨x, hu, rfl⟩ | ⟨x, ha', rfl⟩
    · -- the characters do not reach behind the block
      rcases List.eq_nil_or_concat x with rfl | ⟨x, c, rfl⟩
      · rw [List.append_nil] at hu
        exact ⟨hu.symm, rfl⟩
      · exfalso
        obtain ⟨w', d, rfl⟩ := (List.eq_nil_or_concat w').resolve_left hne
        rw [List.concat_eq_append, List.concat_eq_append, ← List.append_assoc, ← List.append_assoc]
          at hu
        have hdc : d = c := by simpa using (List.append_inj' hu rfl).2
        exact hclash (hw' d (by simp)) (hb d (by simp [hdc]))
    · -- nor do they end before it ends
      cases x with
      | nil =>
        rw [List.append_nil] at ha'
        exact ⟨ha', rfl⟩
      | cons c x =>
        exfalso
        have hc : p c = false := hv c rfl
        rcases List.append_eq_append_iff.1 ha' with ⟨y, hu, hy⟩ | ⟨y, hau, hy⟩
        · exact hclash (hw c (hy ▸ List.mem_append_right y List.mem_cons_self)) hc
        · obtain ⟨d, w', rfl⟩ := List.exists_cons_of_ne_nil hne
          refine hclash (hw' d List.mem_cons_self) (ha d ?_)
          rw [hau]
          simp
  refine ⟨hend.2, ?_⟩
  rcases List.append_eq_append_iff.1 hend.1 with ⟨x, hu, hw''⟩ | ⟨x, hau, hw''⟩
  · exact ⟨x, hu, hw''⟩
  · cases x with
    | nil => exact ⟨[], by rw [hau]; simp, by rw [hw'']; simp⟩
    | cons c x =>
      rw [hw''] at hw'
      exact (hclash (hw' c List.mem_cons_self) (ha c (by rw [hau]; simp))).elim

/-- Characters of the class with a fence before them begin where the block begins. -/
theorem block_start {a w u w' v : List Char} (ha : ∀ c ∈ a, p c = false) (hw : ∀ c ∈ w, p c = true)
    (hne : w' ≠ []) (hw' : ∀ c ∈ w', p c = true) (hu : Fenced p u.reverse)
    (heq : a ++ w = u ++ (w' ++ v)) : u = a ∧ w = w' ++ v := by
  have hrev : [] ++ (w.reverse ++ a.reverse) = v.reverse ++ (w'.reverse ++ u.reverse) := by
    rw [List.nil_append, ← List.reverse_append, heq]
    simp
  obtain ⟨hua, x, hv, hwx⟩ := block_end (fun c hc => absurd hc List.not_mem_nil)
    (fun c hc => hw c (List.mem_reverse.1 hc)) (fun c hc => ha c (List.mem_reverse.1 hc))
    (fun h => hne (List.reverse_eq_nil_iff.1 h)) (fun c hc => hw' c (List.mem_reverse.1 hc)) hu hrev
  refine ⟨List.reverse_injective hua, ?_⟩
  rw [List.nil_append] at hv
  rw [← hv, ← List.reverse_append] at hwx
  exact List.reverse_injective hwx

variable {see : Place → γ} {a : Re N} {g : N → Option γ} {pre post : List Char} {x : Way N γ}

/-- Behind characters outside the class there is a fence. -/
theorem fenced_way (hout : a.Within fun c => p c = false) (h : x ∈ a.ways see g pre post)
    (hpre : Fenced p pre) : Fenced p x.pre := by
  obtain ⟨w, g', -, hx, hm⟩ := ways_sound h fun _ => none
  rw [hx]
  rcases List.eq_nil_or_concat w with rfl | ⟨w, c, rfl⟩
  · exact hpre
  · intro d hd
    rw [List.concat_eq_append, List.reverse_append] at hd
    obtain rfl := Option.some.inj hd
    exact hout.forall_mem hm c (by simp)

/-- Behind an expression that takes some characters, all outside the class, there is a fence. -/
theorem fenced_way_of_needs (hout : a.Within fun c => p c = false) (hne : a.Needs fun _ => True)
    (h : x ∈ a.ways see g pre post) : Fenced p x.pre := by
  obtain ⟨w, g', -, hx, hm⟩ := ways_sound h fun _ => none
  obtain ⟨c, hc, -⟩ := hne.exists_mem hm
  rw [hx]
  rcases List.eq_nil_or_concat w with rfl | ⟨w, d, rfl⟩
  · cases hc
  · intro e he
    rw [List.concat_eq_append, List.reverse_append] at he
    obtain rfl := Option.some.inj he
    exact hout.forall_mem hm d (by simp)

end Fences

/-! ## The leftmost match -/

/-- **A search answers at the first place** where the expression matches. -/
theorem search_eq_some {r : Re N} {s : List Char} {m : Match N} (h : r.search s = some m) :
    ∃ u v, s = u ++ v ∧ r.matchAt u.reverse v = some m ∧
      ∀ u' v', s = u' ++ v' → u'.length < u.length → r.matchAt u'.reverse v' = none := by
  have hfrom : ∀ (post pre : List Char), r.searchFrom pre post = some m →
      ∃ u v, post = u ++ v ∧ r.matchAt (u.reverse ++ pre) v = some m ∧
        ∀ u' v', post = u' ++ v' → u'.length < u.length → r.matchAt (u'.reverse ++ pre) v' = none := by
    intro post
    induction post with
    | nil => exact fun pre h => ⟨[], [], rfl, h, fun _ _ _ hlt => absurd hlt (Nat.not_lt_zero _)⟩
    | cons c cs ih =>
      intro pre h
      rw [Re.searchFrom, Option.or_eq_some_iff] at h
      rcases h with h | ⟨hnone, h⟩
      · exact ⟨[], c :: cs, rfl, h, fun _ _ _ hlt => absurd hlt (Nat.not_lt_zero _)⟩
      · obtain ⟨u, v, rfl, hm, hleft⟩ := ih (c :: pre) h
        refine ⟨c :: u, v, rfl, by simpa using hm, fun u' v' heq hlt => ?_⟩
        cases u' with
        | nil =>
          rw [List.nil_append] at heq
          rw [← heq]
          exact hnone
        | cons d u' =>
          obtain ⟨rfl, htail⟩ := List.cons_eq_cons.1 heq
          have hearlier := hleft u' v' htail (Nat.lt_of_succ_lt_succ hlt)
          simpa using hearlier
  obtain ⟨u, v, hs, hm, hleft⟩ := hfrom s [] h
  rw [List.append_nil] at hm
  refine ⟨u, v, hs, hm, fun u' v' heq hlt => ?_⟩
  have hearlier := hleft u' v' heq hlt
  rwa [List.append_nil] at hearlier

/-- A search that finds nothing: the expression matches nowhere. -/
theorem search_eq_none {r : Re N} {s : List Char} :
    r.search s = none ↔ ∀ u v, s = u ++ v → r.matchAt u.reverse v = none := by
  have hfrom : ∀ (post pre : List Char), r.searchFrom pre post = none ↔
      ∀ u v, post = u ++ v → r.matchAt (u.reverse ++ pre) v = none := by
    intro post
    induction post with
    | nil =>
      intro pre
      refine ⟨fun h u v heq => ?_, fun h => h [] [] rfl⟩
      obtain ⟨rfl, rfl⟩ := List.append_eq_nil_iff.1 heq.symm
      exact h
    | cons c cs ih =>
      intro pre
      rw [Re.searchFrom, Option.or_eq_none_iff, ih]
      constructor
      · rintro ⟨hhere, hlater⟩ u v heq
        cases u with
        | nil =>
          rw [List.nil_append] at heq
          rw [← heq]
          exact hhere
        | cons d u =>
          obtain ⟨rfl, htail⟩ := List.cons_eq_cons.1 heq
          have hm := hlater u v htail
          simpa using hm
      · intro h
        refine ⟨h [] (c :: cs) rfl, fun u v heq => ?_⟩
        have hm := h (c :: u) v (by rw [heq, List.cons_append])
        simpa using hm
  have hs := hfrom s []
  simp only [List.append_nil] at hs
  exact hs

/-- A search finds something where the expression matches somewhere. -/
theorem exists_search {r : Re N} {s u w v : List Char} {g' : Caps N} (hs : s = u ++ (w ++ v))
    (h : r.Matches (fun _ => none) u.reverse w v g') : ∃ m, r.search s = some m := by
  refine Option.ne_none_iff_exists'.1 fun hno => ?_
  have hsome := matchAt_complete h
  rw [search_eq_none.1 hno u (w ++ v) hs] at hsome
  cases hsome

/-- A text without the characters that an expression needs has no match of it. -/
theorem matchAt_eq_none {q : Char → Prop} {r : Re N} (hr : r.Needs q) {pre post : List Char}
    (h : ∀ c ∈ post, ¬q c) : r.matchAt pre post = none := by
  by_contra hne
  obtain ⟨m, hm⟩ := Option.ne_none_iff_exists'.1 hne
  obtain ⟨w, post', g', rfl, hw, -⟩ := matchAt_sound hm
  obtain ⟨c, hc, hq⟩ := hr.exists_mem hw
  exact h c (List.mem_append_left _ hc) hq

theorem search_eq_none_of_needs {q : Char → Prop} {r : Re N} (hr : r.Needs q) {s : List Char}
    (h : ∀ c ∈ s, ¬q c) : r.search s = none :=
  search_eq_none.2 fun _ _ hs => matchAt_eq_none hr fun c hc => h c (hs ▸ List.mem_append_right _ hc)

end CivicProof.Regex
