import CivicProof.Regex.Match
import Mathlib.Data.List.Forall2

/-!
# What an expression matches

`Re.Matches` says which text an expression matches between what stands before and after it, and
what it captures, without a search order.

* `run_sound`: the matcher answers only on a match of the expression.
* `run_complete`: where the expression matches and the rest can go on, the matcher answers.
* `Re.Plain`: expressions with a language of their own, and sequences of them piece by piece.
* `finditer_sound`: every match found in a text is a match of the expression.
* `Matches_groups`: a group captures a part of the match; `Re.avoids`, `Re.Captures`: which groups.
* `Re.Within`, `Re.Needs`: the characters that a match can have, and some that it must have.
-/

namespace CivicProof.Regex

variable {N : Type} [DecidableEq N] {β : Type}

/-- `lo` to `hi` characters of the class `p`. -/
def Run (p : Char → Bool) (lo : ℕ) (hi : Option ℕ) (w : List Char) : Prop :=
  (∀ c ∈ w, p c = true) ∧ lo ≤ w.length ∧ ∀ n ∈ hi, w.length ≤ n

instance {p : Char → Bool} {lo : ℕ} {hi : Option ℕ} {w : List Char} : Decidable (Run p lo hi w) :=
  decidable_of_iff (w.all p = true ∧ lo ≤ w.length ∧ hi.all (w.length ≤ ·) = true)
    (and_congr List.all_eq_true (and_congr_right fun _ => by cases hi <;> simp))

/-- Expression `r` matches `w` after `pre` (last character first) and before `post`, and turns
the groups `g` into `g'`. -/
def Re.Matches : Re N → Caps N → List Char → List Char → List Char → Caps N → Prop
  | .eps, g, _, w, _, g' => w = [] ∧ g' = g
  | .set p, g, _, w, _, g' => ∃ c, p c = true ∧ w = [c] ∧ g' = g
  | .seq a b, g, pre, w, post, g' =>
    ∃ u v g₁, w = u ++ v ∧ a.Matches g pre u (v ++ post) g₁ ∧
      b.Matches g₁ (u.reverse ++ pre) v post g'
  | .alt a b, g, pre, w, post, g' => a.Matches g pre w post g' ∨ b.Matches g pre w post g'
  | .rep p lo hi _, g, _, w, _, g' => Run p lo hi w ∧ g' = g
  | .group n a, g, pre, w, post, g' =>
    ∃ g₁, a.Matches g pre w post g₁ ∧ g' = Function.update g₁ n (some w)
  | .assert t, g, pre, w, post, g' => t pre post = true ∧ w = [] ∧ g' = g

/-! ## Repetitions -/

/-- A character outside the class is not in a run. -/
theorem Run.notMem {p : Char → Bool} {lo : ℕ} {hi : Option ℕ} {w : List Char} {x : Char}
    (h : Run p lo hi w) (hx : p x = false) : x ∉ w := fun hmem => by
  rw [h.1 x hmem] at hx
  cases hx

theorem Run.nil {p : Char → Bool} {hi : Option ℕ} : Run p 0 hi [] :=
  ⟨by simp, Nat.le_refl _, by simp⟩

/-- One more character in front of a run. -/
theorem Run.cons_iff {p : Char → Bool} {lo : ℕ} {hi : Option ℕ} {c : Char} {w : List Char} :
    Run p lo hi (c :: w) ↔ p c = true ∧ hi ≠ some 0 ∧ Run p (lo - 1) (hi.map (· - 1)) w := by
  unfold Run
  cases hi with
  | none => simp only [List.mem_cons, forall_eq_or_imp, List.length_cons]; grind
  | some n =>
    simp only [List.mem_cons, forall_eq_or_imp, List.length_cons, Option.mem_def, Option.map_some,
      Option.some.injEq, forall_eq']
    grind

theorem runGreedy_sound {p : Char → Bool} {k : List Char → List Char → Option β} {x : β} :
    ∀ {post : List Char} {lo : ℕ} {hi : Option ℕ} {pre : List Char},
      runGreedy p k lo hi pre post = some x →
        ∃ w post', post = w ++ post' ∧ Run p lo hi w ∧ k (w.reverse ++ pre) post' = some x := by
  intro post
  induction post with
  | nil =>
    intro lo hi pre h
    rw [runGreedy] at h
    split at h
    · rename_i hlo
      subst hlo
      exact ⟨[], [], rfl, Run.nil, h⟩
    · cases h
  | cons c cs ih =>
    intro lo hi pre h
    rw [runGreedy, Option.or_eq_some_iff] at h
    rcases h with h | ⟨-, h⟩
    · split at h
      · rename_i hc
        obtain ⟨w, post', rfl, hw, hk⟩ := ih h
        exact ⟨c :: w, post', rfl, Run.cons_iff.2 ⟨hc.1, hc.2, hw⟩, by simpa using hk⟩
      · cases h
    · split at h
      · rename_i hlo
        subst hlo
        exact ⟨[], c :: cs, rfl, Run.nil, h⟩
      · cases h

theorem runGreedy_complete {p : Char → Bool} {k : List Char → List Char → Option β}
    {post : List Char} : ∀ {w : List Char} {lo : ℕ} {hi : Option ℕ} {pre : List Char},
      Run p lo hi w → (k (w.reverse ++ pre) post).isSome →
        (runGreedy p k lo hi pre (w ++ post)).isSome := by
  intro w
  induction w with
  | nil =>
    intro lo hi pre hw hk
    have hlo : lo = 0 := by have := hw.2.1; simpa using this
    cases post with
    | nil => simpa [runGreedy, hlo] using hk
    | cons c cs =>
      simp only [List.nil_append, runGreedy, hlo, Option.isSome_or]
      simpa using Or.inr hk
  | cons c w ih =>
    intro lo hi pre hw hk
    obtain ⟨hc, hhi, hw⟩ := Run.cons_iff.1 hw
    have hrest := @ih (lo - 1) (hi.map (· - 1)) (c :: pre) hw (by simpa using hk)
    simp only [List.cons_append, runGreedy, Option.isSome_or]
    rw [if_pos ⟨hc, hhi⟩, hrest, Bool.true_or]

theorem runLazy_sound {p : Char → Bool} {k : List Char → List Char → Option β} {x : β} :
    ∀ {post : List Char} {lo : ℕ} {hi : Option ℕ} {pre : List Char},
      runLazy p k lo hi pre post = some x →
        ∃ w post', post = w ++ post' ∧ Run p lo hi w ∧ k (w.reverse ++ pre) post' = some x := by
  intro post
  induction post with
  | nil =>
    intro lo hi pre h
    rw [runLazy] at h
    split at h
    · rename_i hlo
      subst hlo
      exact ⟨[], [], rfl, Run.nil, h⟩
    · cases h
  | cons c cs ih =>
    intro lo hi pre h
    rw [runLazy, Option.or_eq_some_iff] at h
    rcases h with h | ⟨-, h⟩
    · split at h
      · rename_i hlo
        subst hlo
        exact ⟨[], c :: cs, rfl, Run.nil, h⟩
      · cases h
    · split at h
      · rename_i hc
        obtain ⟨w, post', rfl, hw, hk⟩ := ih h
        exact ⟨c :: w, post', rfl, Run.cons_iff.2 ⟨hc.1, hc.2, hw⟩, by simpa using hk⟩
      · cases h

theorem runLazy_complete {p : Char → Bool} {k : List Char → List Char → Option β}
    {post : List Char} : ∀ {w : List Char} {lo : ℕ} {hi : Option ℕ} {pre : List Char},
      Run p lo hi w → (k (w.reverse ++ pre) post).isSome →
        (runLazy p k lo hi pre (w ++ post)).isSome := by
  intro w
  induction w with
  | nil =>
    intro lo hi pre hw hk
    have hlo : lo = 0 := by have := hw.2.1; simpa using this
    cases post with
    | nil => simpa [runLazy, hlo] using hk
    | cons c cs =>
      simp only [List.nil_append, runLazy, hlo, Option.isSome_or]
      simpa using Or.inl hk
  | cons c w ih =>
    intro lo hi pre hw hk
    obtain ⟨hc, hhi, hw⟩ := Run.cons_iff.1 hw
    have hrest := @ih (lo - 1) (hi.map (· - 1)) (c :: pre) hw (by simpa using hk)
    have hc : p c = true ∧ hi ≠ some 0 := ⟨hc, hhi⟩
    simp only [List.cons_append, runLazy, Option.isSome_or, if_pos hc, hrest, Bool.or_true]

/-! ## The matcher -/

/-- **An answer of the matcher stands for a match** of the expression, at which the rest of the
search has answered. -/
theorem run_sound {r : Re N} {x : β} : ∀ {k : Caps N → List Char → List Char → Option β}
    {g : Caps N} {pre post : List Char}, r.run k g pre post = some x →
      ∃ w post' g', post = w ++ post' ∧ r.Matches g pre w post' g' ∧
        k g' (w.reverse ++ pre) post' = some x := by
  induction r with
  | eps => exact fun h => ⟨[], _, _, rfl, ⟨rfl, rfl⟩, h⟩
  | set p =>
    intro k g pre post h
    cases post with
    | nil => cases h
    | cons c cs =>
      rw [Re.run] at h
      split at h
      · exact ⟨[c], cs, g, rfl, ⟨c, ‹_›, rfl, rfl⟩, h⟩
      · cases h
  | seq a b iha ihb =>
    intro k g pre post h
    obtain ⟨u, post₁, g₁, rfl, ha, h⟩ := iha h
    obtain ⟨v, post₂, g₂, rfl, hb, h⟩ := ihb h
    refine ⟨u ++ v, post₂, g₂, (List.append_assoc ..).symm, ⟨u, v, g₁, rfl, ha, hb⟩, ?_⟩
    rwa [List.reverse_append, List.append_assoc]
  | alt a b iha ihb =>
    intro k g pre post h
    rw [Re.run, Option.or_eq_some_iff] at h
    rcases h with h | ⟨-, h⟩
    · obtain ⟨w, post', g', hpost, hm, hk⟩ := iha h
      exact ⟨w, post', g', hpost, Or.inl hm, hk⟩
    · obtain ⟨w, post', g', hpost, hm, hk⟩ := ihb h
      exact ⟨w, post', g', hpost, Or.inr hm, hk⟩
  | rep p lo hi greedy =>
    intro k g pre post h
    have hrun : ∃ w post', post = w ++ post' ∧ Run p lo hi w ∧
        k g (w.reverse ++ pre) post' = some x := by
      cases greedy
      · exact runLazy_sound h
      · exact runGreedy_sound h
    obtain ⟨w, post', hpost, hw, hk⟩ := hrun
    exact ⟨w, post', g, hpost, ⟨hw, rfl⟩, hk⟩
  | group n a iha =>
    intro k g pre post h
    obtain ⟨w, post', g₁, rfl, ha, hk⟩ := iha h
    refine ⟨w, post', _, rfl, ⟨g₁, ha, rfl⟩, ?_⟩
    -- what is captured is the length of the match, taken off the text ahead
    simpa using hk
  | assert t =>
    intro k g pre post h
    rw [Re.run] at h
    split at h
    · exact ⟨[], post, g, rfl, ⟨‹_›, rfl, rfl⟩, h⟩
    · cases h

/-- **The matcher finds a match** if there is one from which the rest of the search answers. -/
theorem run_complete {r : Re N} : ∀ {k : Caps N → List Char → List Char → Option β}
    {g g' : Caps N} {pre w post : List Char}, r.Matches g pre w post g' →
      (k g' (w.reverse ++ pre) post).isSome → (r.run k g pre (w ++ post)).isSome := by
  induction r with
  | eps =>
    rintro k g g' pre w post ⟨rfl, rfl⟩ hk
    exact hk
  | set p =>
    rintro k g g' pre w post ⟨c, hc, rfl, rfl⟩ hk
    simpa [Re.run, hc] using hk
  | seq a b iha ihb =>
    rintro k g g' pre w post ⟨u, v, g₁, rfl, ha, hb⟩ hk
    rw [List.append_assoc]
    exact iha ha (ihb hb (by simpa using hk))
  | alt a b iha ihb =>
    rintro k g g' pre w post (h | h) hk
    · simp only [Re.run, Option.isSome_or, iha h hk, Bool.true_or]
    · simp only [Re.run, Option.isSome_or, ihb h hk, Bool.or_true]
  | rep p lo hi greedy =>
    rintro k g g' pre w post ⟨hw, rfl⟩ hk
    cases greedy
    · exact runLazy_complete hw hk
    · exact runGreedy_complete hw hk
  | group n a iha =>
    rintro k g g' pre w post ⟨g₁, ha, rfl⟩ hk
    exact iha ha (by simpa using hk)
  | assert t =>
    rintro k g g' pre w post ⟨ht, rfl, rfl⟩ hk
    simpa [Re.run, ht] using hk

/-- An anchored match is a match of the expression, with its groups and its span. -/
theorem matchAt_sound {r : Re N} {pre post : List Char} {m : Match N}
    (h : r.matchAt pre post = some m) :
    ∃ w post' g', post = w ++ post' ∧ r.Matches (fun _ => none) pre w post' g' ∧
      m = ⟨g', pre.length, pre.length + w.length⟩ := by
  obtain ⟨w, post', g', hpost, hm, hk⟩ := run_sound h
  refine ⟨w, post', g', hpost, hm, ?_⟩
  rw [← Option.some.inj hk, List.length_append, List.length_reverse, Nat.add_comm]

theorem matchAt_complete {r : Re N} {pre w post : List Char} {g' : Caps N}
    (h : r.Matches (fun _ => none) pre w post g') : (r.matchAt pre (w ++ post)).isSome :=
  run_complete h rfl

/-! ## Sequences and literals -/

theorem Matches_cat_cons {a : Re N} {l : List (Re N)} {g g' : Caps N} {pre w post : List Char} :
    (Re.cat (a :: l)).Matches g pre w post g' ↔ ∃ u v g₁, w = u ++ v ∧
      a.Matches g pre u (v ++ post) g₁ ∧ (Re.cat l).Matches g₁ (u.reverse ++ pre) v post g' := by
  cases l with
  | nil =>
    constructor
    · exact fun h => ⟨w, [], g', (List.append_nil w).symm, h, rfl, rfl⟩
    · rintro ⟨u, v, g₁, rfl, ha, rfl, rfl⟩
      rwa [List.append_nil]
  | cons b l => exact Iff.rfl

/-- An expression that captures nothing and looks at no text but its own, of the form `C`. -/
def Re.Plain (a : Re N) (C : List Char → Prop) : Prop :=
  ∀ g pre w post g', a.Matches g pre w post g' ↔ C w ∧ g' = g

theorem Plain_rep {p : Char → Bool} {lo : ℕ} {hi : Option ℕ} {greedy : Bool} :
    (.rep p lo hi greedy : Re N).Plain (Run p lo hi) := fun _ _ _ _ _ => Iff.rfl

theorem Plain_set {p : Char → Bool} : (.set p : Re N).Plain fun w => ∃ c, p c = true ∧ w = [c] := by
  intro g pre w post g'
  constructor
  · rintro ⟨c, hc, hw, hg⟩
    exact ⟨⟨c, hc, hw⟩, hg⟩
  · rintro ⟨⟨c, hc, hw⟩, hg⟩
    exact ⟨c, hc, hw, hg⟩

/-- A literal matches its own text. -/
theorem Plain_lit {f : Char → Char → Bool} (hf : ∀ a c, f a c = true ↔ c = a) (s : String) :
    (Re.lit f s : Re N).Plain (· = s.toList) := by
  unfold Re.lit
  induction s.toList with
  | nil => exact fun _ _ _ _ _ => Iff.rfl
  | cons a l ih =>
    intro g pre w post g'
    rw [List.map_cons, Matches_cat_cons]
    constructor
    · rintro ⟨u, v, g₁, rfl, ⟨c, hc, rfl, rfl⟩, hl⟩
      obtain ⟨rfl, rfl⟩ := (ih ..).1 hl
      rw [(hf a c).1 hc]
      exact ⟨rfl, rfl⟩
    · rintro ⟨rfl, rfl⟩
      exact ⟨[a], l, g', rfl, ⟨a, (hf a a).2 rfl, rfl, rfl⟩, (ih ..).2 ⟨rfl, rfl⟩⟩

/-- A literal matches texts of its length, character by character. -/
theorem Plain_lit_each (f : Char → Char → Bool) (s : String) :
    (Re.lit f s : Re N).Plain (List.Forall₂ (fun a c => f a c = true) s.toList) := by
  unfold Re.lit
  induction s.toList with
  | nil => exact fun _ _ _ _ _ => and_congr_left' (List.forall₂_nil_left_iff).symm
  | cons a l ih =>
    intro g pre w post g'
    rw [List.map_cons, Matches_cat_cons]
    constructor
    · rintro ⟨u, v, g₁, rfl, ⟨c, hc, rfl, rfl⟩, hl⟩
      obtain ⟨hv, rfl⟩ := (ih ..).1 hl
      exact ⟨List.Forall₂.cons hc hv, rfl⟩
    · rintro ⟨h, rfl⟩
      cases h with
      | @cons _ c _ v hc hv => exact ⟨[c], v, g', rfl, ⟨c, hc, rfl, rfl⟩, (ih ..).2 ⟨hv, rfl⟩⟩

variable {a : Re N} {C : List Char → Prop} {l : List (Re N)} {g g' : Caps N}
  {pre w post : List Char}

/-- A plain expression at the front of a sequence. -/
theorem Re.Plain.cat_iff (ha : a.Plain C) : (Re.cat (a :: l)).Matches g pre w post g' ↔
    ∃ u v, w = u ++ v ∧ C u ∧ (Re.cat l).Matches g (u.reverse ++ pre) v post g' := by
  rw [Matches_cat_cons]
  constructor
  · rintro ⟨u, v, g₁, rfl, hu, hv⟩
    obtain ⟨hC, rfl⟩ := (ha ..).1 hu
    exact ⟨u, v, rfl, hC, hv⟩
  · rintro ⟨u, v, rfl, hu, hv⟩
    exact ⟨u, v, g, rfl, (ha ..).2 ⟨hu, rfl⟩, hv⟩

/-- A group over a plain expression at the front of a sequence. -/
theorem Re.Plain.group_iff (ha : a.Plain C) {n : N} :
    (Re.cat (.group n a :: l)).Matches g pre w post g' ↔ ∃ u v, w = u ++ v ∧ C u ∧
      (Re.cat l).Matches (Function.update g n (some u)) (u.reverse ++ pre) v post g' := by
  rw [Matches_cat_cons]
  constructor
  · rintro ⟨u, v, g₁, rfl, ⟨g₂, hu, rfl⟩, hv⟩
    obtain ⟨hC, rfl⟩ := (ha ..).1 hu
    exact ⟨u, v, rfl, hC, hv⟩
  · rintro ⟨u, v, rfl, hu, hv⟩
    exact ⟨u, v, _, rfl, ⟨g, (ha ..).2 ⟨hu, rfl⟩, rfl⟩, hv⟩

/-- One character of a class, then `lo` to `hi` characters of another. -/
theorem Plain_set_rep {p q : Char → Bool} {lo : ℕ} {hi : Option ℕ} {greedy : Bool} :
    (Re.cat [.set p, .rep q lo hi greedy] : Re N).Plain
      fun w => ∃ c u, w = c :: u ∧ p c = true ∧ Run q lo hi u := by
  intro g pre w post g'
  constructor
  · rintro ⟨u, v, g₁, rfl, ⟨c, hc, rfl, rfl⟩, hv, rfl⟩
    exact ⟨⟨c, v, rfl, hc, hv⟩, rfl⟩
  · rintro ⟨⟨c, u, rfl, hc, hu⟩, rfl⟩
    exact ⟨[c], u, g', rfl, ⟨c, hc, rfl, rfl⟩, hu, rfl⟩

/-- Plain expressions one after the other. -/
theorem Re.Plain.seq {b : Re N} {D : List Char → Prop} (ha : a.Plain C) (hb : b.Plain D) :
    (Re.seq a b).Plain fun w => ∃ u v, w = u ++ v ∧ C u ∧ D v := by
  intro g pre w post g'
  constructor
  · rintro ⟨u, v, g₁, rfl, hu, hv⟩
    obtain ⟨hC, rfl⟩ := (ha ..).1 hu
    obtain ⟨hD, rfl⟩ := (hb ..).1 hv
    exact ⟨⟨u, v, rfl, hC, hD⟩, rfl⟩
  · rintro ⟨⟨u, v, rfl, hC, hD⟩, rfl⟩
    exact ⟨u, v, g', rfl, (ha ..).2 ⟨hC, rfl⟩, (hb ..).2 ⟨hD, rfl⟩⟩

/-- A choice between plain expressions. -/
theorem Re.Plain.alt {b : Re N} {D : List Char → Prop} (ha : a.Plain C) (hb : b.Plain D) :
    (Re.alt a b).Plain fun w => C w ∨ D w := by
  intro g pre w post g'
  constructor
  · rintro (h | h)
    · exact ((ha ..).1 h).imp_left Or.inl
    · exact ((hb ..).1 h).imp_left Or.inr
  · rintro ⟨h | h, hg⟩
    · exact Or.inl ((ha ..).2 ⟨h, hg⟩)
    · exact Or.inr ((hb ..).2 ⟨h, hg⟩)

theorem Re.Plain.opt (ha : a.Plain C) : a.opt.Plain fun w => C w ∨ w = [] :=
  ha.alt fun _ _ _ _ _ => Iff.rfl

/-- One of a list of plain expressions. -/
theorem Plain_any {α : Type} {e : α → Re N} {D : α → List Char → Prop} (h : ∀ s, (e s).Plain (D s)) :
    ∀ {l : List α}, (Re.any (l.map e)).Plain fun w => ∃ s ∈ l, D s w
  | [] => by
    intro g pre w post g'
    constructor
    · rintro ⟨c, hc, -, -⟩
      cases hc
    · rintro ⟨⟨s, hs, -⟩, -⟩
      cases hs
  | [s] => by
    intro g pre w post g'
    refine (h s g pre w post g').trans (and_congr_left' ?_)
    exact ⟨fun h => ⟨s, List.mem_singleton_self s, h⟩, fun ⟨x, hx, h⟩ => List.mem_singleton.1 hx ▸ h⟩
  | s :: s' :: l => by
    intro g pre w post g'
    refine ((h s).alt (Plain_any h (l := s' :: l)) g pre w post g').trans (and_congr_left' ?_)
    exact (List.exists_mem_cons_iff (fun x => D x w) s (s' :: l)).symm

/-! ## All matches of a text -/

theorem scanFrom_sound {r : Re N} {m : Match N} : ∀ {post pre : List Char} {skip : ℕ},
    m ∈ r.scanFrom skip pre post → ∃ u v, post = u ++ v ∧ r.matchAt (u.reverse ++ pre) v = some m := by
  intro post
  induction post with
  | nil =>
    intro pre skip h
    cases skip with
    | zero => exact ⟨[], [], rfl, Option.mem_toList.1 h⟩
    | succ skip => cases h
  | cons c cs ih =>
    intro pre skip h
    -- a later match begins behind `c`
    have later : ∀ {skip : ℕ}, m ∈ r.scanFrom skip (c :: pre) cs →
        ∃ u v, c :: cs = u ++ v ∧ r.matchAt (u.reverse ++ pre) v = some m := by
      intro skip h
      obtain ⟨u, v, rfl, hm⟩ := ih h
      exact ⟨c :: u, v, rfl, by simpa using hm⟩
    cases skip with
    | zero =>
      rw [Re.scanFrom] at h
      split at h
      · rename_i m' hm'
        rcases List.mem_cons.1 h with rfl | h
        · exact ⟨[], c :: cs, rfl, hm'⟩
        · exact later h
      · exact later h
    | succ skip => exact later h

/-- **Every match found in a text** is a match of the expression at its span. -/
theorem finditer_sound {r : Re N} {s : List Char} {m : Match N} (h : m ∈ r.finditer s) :
    ∃ u w v g, s = u ++ (w ++ v) ∧ r.Matches (fun _ => none) u.reverse w v g ∧
      m = ⟨g, u.length, u.length + w.length⟩ := by
  obtain ⟨u, v, rfl, hm⟩ := scanFrom_sound h
  obtain ⟨w, v', g, rfl, hw, rfl⟩ := matchAt_sound hm
  rw [List.append_nil] at hw
  exact ⟨u, w, v', g, rfl, hw, by rw [List.length_append, List.length_reverse]; rfl⟩

/-- **A group captures a part of the match**, or keeps what it had. -/
theorem Matches_groups {r : Re N} : ∀ {g g' : Caps N} {pre w post : List Char},
    r.Matches g pre w post g' → ∀ n v, g' n = some v → g n = some v ∨ v <:+: w := by
  induction r with
  | eps =>
    rintro g g' pre w post ⟨-, rfl⟩ n v h
    exact Or.inl h
  | set p =>
    rintro g g' pre w post ⟨c, -, -, rfl⟩ n v h
    exact Or.inl h
  | seq a b iha ihb =>
    rintro g g' pre w post ⟨u, v', g₁, rfl, ha, hb⟩ n v h
    rcases ihb hb n v h with h | h
    · rcases iha ha n v h with h | h
      · exact Or.inl h
      · exact Or.inr (h.trans (List.prefix_append u v').isInfix)
    · exact Or.inr (h.trans (List.suffix_append u v').isInfix)
  | alt a b iha ihb =>
    rintro g g' pre w post (h | h)
    · exact iha h
    · exact ihb h
  | rep p lo hi greedy =>
    rintro g g' pre w post ⟨-, rfl⟩ n v h
    exact Or.inl h
  | group m a iha =>
    rintro g g' pre w post ⟨g₁, ha, rfl⟩ n v h
    by_cases hn : n = m
    · rw [hn, Function.update_self] at h
      exact Or.inr (Option.some.inj h ▸ List.infix_rfl)
    · rw [Function.update_of_ne hn] at h
      exact iha ha n v h
  | assert t =>
    rintro g g' pre w post ⟨-, -, rfl⟩ n v h
    exact Or.inl h

/-! ## Which groups a match captures -/

/-- The expression has no group `n`. -/
def Re.avoids (n : N) : Re N → Bool
  | .eps | .set _ | .rep _ _ _ _ | .assert _ => true
  | .seq a b | .alt a b => a.avoids n && b.avoids n
  | .group m a => decide (m ≠ n) && a.avoids n

/-- A group that the expression does not have keeps what it had. -/
theorem groups_of_avoids {n : N} {r : Re N} : ∀ {g g' : Caps N} {pre w post : List Char},
    r.avoids n = true → r.Matches g pre w post g' → g' n = g n := by
  induction r with
  | eps =>
    rintro g g' pre w post - ⟨-, rfl⟩
    rfl
  | set p =>
    rintro g g' pre w post - ⟨c, -, -, rfl⟩
    rfl
  | seq a b iha ihb =>
    rintro g g' pre w post h ⟨u, v, g₁, -, ha, hb⟩
    rw [Re.avoids, Bool.and_eq_true] at h
    rw [ihb h.2 hb, iha h.1 ha]
  | alt a b iha ihb =>
    rintro g g' pre w post h (hm | hm)
    · rw [Re.avoids, Bool.and_eq_true] at h
      exact iha h.1 hm
    · rw [Re.avoids, Bool.and_eq_true] at h
      exact ihb h.2 hm
  | rep p lo hi greedy =>
    rintro g g' pre w post - ⟨-, rfl⟩
    rfl
  | group m a iha =>
    rintro g g' pre w post h ⟨g₁, ha, rfl⟩
    rw [Re.avoids, Bool.and_eq_true, decide_eq_true_iff] at h
    rw [Function.update_of_ne (Ne.symm h.1), iha h.2 ha]
  | assert t =>
    rintro g g' pre w post - ⟨-, -, rfl⟩
    rfl

/-- The expressions under the groups `n`. -/
def Re.bodies (n : N) : Re N → List (Re N)
  | .eps | .set _ | .rep _ _ _ _ | .assert _ => []
  | .seq a b | .alt a b => a.bodies n ++ b.bodies n
  | .group m a => (if m = n then [a] else []) ++ a.bodies n

/-- Every match captures a text of the form `P` as the group `n`. -/
def Re.Captures (n : N) (P : List Char → Prop) : Re N → Prop
  | .eps | .set _ | .rep _ _ _ _ | .assert _ => False
  | .seq a b => (a.Captures n P ∧ b.avoids n = true) ∨ b.Captures n P
  | .alt a b => a.Captures n P ∧ b.Captures n P
  | .group m a => m = n ∧ ∀ g pre w post g', a.Matches g pre w post g' → P w

theorem Re.Captures.exists_group {n : N} {P : List Char → Prop} {r : Re N} :
    ∀ {g g' : Caps N} {pre w post : List Char}, r.Captures n P → r.Matches g pre w post g' →
      ∃ v, g' n = some v ∧ P v := by
  induction r with
  | eps => exact fun h => h.elim
  | set p => exact fun h => h.elim
  | rep p lo hi greedy => exact fun h => h.elim
  | assert t => exact fun h => h.elim
  | seq a b iha ihb =>
    rintro g g' pre w post h ⟨u, v, g₁, -, ha, hb⟩
    rcases h with ⟨h, hfree⟩ | h
    · rw [groups_of_avoids hfree hb]
      exact iha h ha
    · exact ihb h hb
  | alt a b iha ihb =>
    rintro g g' pre w post h (hm | hm)
    · exact iha h.1 hm
    · exact ihb h.2 hm
  | group m a iha =>
    rintro g g' pre w post ⟨rfl, hP⟩ ⟨g₁, ha, rfl⟩
    exact ⟨w, Function.update_self .., hP _ _ _ _ _ ha⟩

/-! ## Which characters a match has -/

/-- Every character that the expression takes satisfies `q`. -/
def Re.Within (q : Char → Prop) : Re N → Prop
  | .eps | .assert _ => True
  | .set p | .rep p _ _ _ => ∀ c, p c = true → q c
  | .seq a b | .alt a b => a.Within q ∧ b.Within q
  | .group _ a => a.Within q

/-- Every match of the expression has a character that satisfies `q`. -/
def Re.Needs (q : Char → Prop) : Re N → Prop
  | .eps | .assert _ => False
  | .set p => ∀ c, p c = true → q c
  | .rep p lo _ _ => 0 < lo ∧ ∀ c, p c = true → q c
  | .seq a b => a.Needs q ∨ b.Needs q
  | .alt a b => a.Needs q ∧ b.Needs q
  | .group _ a => a.Needs q

theorem Re.Within.forall_mem {q : Char → Prop} {r : Re N} : ∀ {g g' : Caps N}
    {pre w post : List Char}, r.Within q → r.Matches g pre w post g' → ∀ c ∈ w, q c := by
  induction r with
  | eps =>
    rintro g g' pre w post - ⟨rfl, -⟩ c hc
    cases hc
  | set p =>
    rintro g g' pre w post hq ⟨c, hc, rfl, -⟩ x hx
    rw [List.mem_singleton.1 hx]
    exact hq c hc
  | seq a b iha ihb =>
    rintro g g' pre w post hq ⟨u, v, g₁, rfl, ha, hb⟩ c hc
    rcases List.mem_append.1 hc with hc | hc
    · exact iha hq.1 ha c hc
    · exact ihb hq.2 hb c hc
  | alt a b iha ihb =>
    rintro g g' pre w post hq (h | h)
    · exact iha hq.1 h
    · exact ihb hq.2 h
  | rep p lo hi greedy =>
    rintro g g' pre w post hq ⟨hw, -⟩ c hc
    exact hq c (hw.1 c hc)
  | group n a iha =>
    rintro g g' pre w post hq ⟨g₁, ha, -⟩
    exact iha hq ha
  | assert t =>
    rintro g g' pre w post - ⟨-, rfl, -⟩ c hc
    cases hc

theorem Re.Needs.exists_mem {q : Char → Prop} {r : Re N} : ∀ {g g' : Caps N}
    {pre w post : List Char}, r.Needs q → r.Matches g pre w post g' → ∃ c ∈ w, q c := by
  induction r with
  | eps => exact fun h => h.elim
  | set p =>
    rintro g g' pre w post hq ⟨c, hc, rfl, -⟩
    exact ⟨c, List.mem_singleton_self c, hq c hc⟩
  | seq a b iha ihb =>
    rintro g g' pre w post hq ⟨u, v, g₁, rfl, ha, hb⟩
    rcases hq with hq | hq
    · obtain ⟨c, hc, h⟩ := iha hq ha
      exact ⟨c, List.mem_append_left _ hc, h⟩
    · obtain ⟨c, hc, h⟩ := ihb hq hb
      exact ⟨c, List.mem_append_right _ hc, h⟩
  | alt a b iha ihb =>
    rintro g g' pre w post hq (h | h)
    · exact iha hq.1 h
    · exact ihb hq.2 h
  | rep p lo hi greedy =>
    rintro g g' pre w post ⟨hlo, hq⟩ ⟨hw, -⟩
    obtain ⟨c, w, rfl⟩ := List.exists_cons_of_length_pos (Nat.lt_of_lt_of_le hlo hw.2.1)
    exact ⟨c, List.mem_cons_self, hq c (hw.1 c List.mem_cons_self)⟩
  | group n a iha =>
    rintro g g' pre w post hq ⟨g₁, ha, -⟩
    exact iha hq ha
  | assert t => exact fun h => h.elim

section

omit [DecidableEq N]

variable {q : Char → Prop} {r : Re N} {l : List (Re N)}

@[simp] theorem Within_cat : (Re.cat l).Within q ↔ ∀ r ∈ l, r.Within q := by
  induction l with
  | nil => exact ⟨fun _ _ h => absurd h List.not_mem_nil, fun _ => trivial⟩
  | cons r l ih =>
    cases l with
    | nil => simp [Re.cat]
    | cons r' l =>
      have hcons : (Re.cat (r :: r' :: l)).Within q ↔ r.Within q ∧ (Re.cat (r' :: l)).Within q :=
        Iff.rfl
      rw [hcons, ih, List.forall_mem_cons (a := r)]

@[simp] theorem Within_any : (Re.any l).Within q ↔ ∀ r ∈ l, r.Within q := by
  induction l with
  | nil => simp [Re.any, Re.Within]
  | cons r l ih =>
    cases l with
    | nil => simp [Re.any]
    | cons r' l =>
      have hcons : (Re.any (r :: r' :: l)).Within q ↔ r.Within q ∧ (Re.any (r' :: l)).Within q :=
        Iff.rfl
      rw [hcons, ih, List.forall_mem_cons (a := r)]

@[simp] theorem Within_opt : r.opt.Within q ↔ r.Within q := by simp [Re.opt, Re.Within]

@[simp] theorem Within_group {n : N} : (Re.group n r).Within q ↔ r.Within q := Iff.rfl

@[simp] theorem Within_eos : (Re.eos : Re N).Within q := trivial

theorem Within_lit {f : Char → Char → Bool} {s : String} :
    (Re.lit f s : Re N).Within q ↔ ∀ a ∈ s.toList, ∀ c, f a c = true → q c := by
  simp [Re.lit, Re.Within]

@[simp] theorem Needs_cat : (Re.cat l).Needs q ↔ ∃ r ∈ l, r.Needs q := by
  induction l with
  | nil => simp [Re.cat, Re.Needs]
  | cons r l ih =>
    cases l with
    | nil => simp [Re.cat]
    | cons r' l =>
      have hcons : (Re.cat (r :: r' :: l)).Needs q ↔ r.Needs q ∨ (Re.cat (r' :: l)).Needs q :=
        Iff.rfl
      rw [hcons, ih]
      simp only [List.mem_cons (b := r), exists_eq_or_imp]

@[simp] theorem Needs_any : (Re.any l).Needs q ↔ ∀ r ∈ l, r.Needs q := by
  induction l with
  | nil => simp [Re.any, Re.Needs]
  | cons r l ih =>
    cases l with
    | nil => simp [Re.any]
    | cons r' l =>
      have hcons : (Re.any (r :: r' :: l)).Needs q ↔ r.Needs q ∧ (Re.any (r' :: l)).Needs q :=
        Iff.rfl
      rw [hcons, ih, List.forall_mem_cons (a := r)]

@[simp] theorem Needs_group {n : N} : (Re.group n r).Needs q ↔ r.Needs q := Iff.rfl

theorem Needs_lit {f : Char → Char → Bool} {s : String} :
    (Re.lit f s : Re N).Needs q ↔ ∃ a ∈ s.toList, ∀ c, f a c = true → q c := by
  simp [Re.lit, Re.Needs]

end

end CivicProof.Regex
