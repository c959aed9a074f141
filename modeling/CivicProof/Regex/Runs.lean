import CivicProof.Regex.Language
import Mathlib.Data.List.Infix
import Mathlib.Order.Basic

/-!
# Where matches stand

* `finditer_pairwise`: the matches found in a text stand one after the other.
* `Re.Ends`: expressions whose matches end with the text.
* `Re.Runs`: rules for the runs of a class of characters (the letters of a script) that begin
  inside a match. `disjoint_of_runs`: two expressions whose runs differ never match overlapping
  parts of a text.
-/

namespace CivicProof.Regex

variable {N : Type} [DecidableEq N]

/-! ## One after the other -/

theorem matchAt_start {r : Re N} {pre post : List Char} {m : Match N}
    (h : r.matchAt pre post = some m) : m.start = pre.length := by
  obtain ⟨w, post', g', -, -, rfl⟩ := matchAt_sound h
  rfl

theorem scanFrom_start {r : Re N} {m : Match N} : ∀ {post pre : List Char} {skip : ℕ},
    m ∈ r.scanFrom skip pre post → pre.length + skip ≤ m.start := by
  intro post
  induction post with
  | nil =>
    intro pre skip h
    cases skip with
    | zero => exact Nat.le_of_eq (matchAt_start (Option.mem_toList.1 h)).symm
    | succ skip => cases h
  | cons c cs ih =>
    intro pre skip h
    cases skip with
    | zero =>
      rw [Re.scanFrom] at h
      split at h
      · rename_i m' hm'
        rcases List.mem_cons.1 h with rfl | h
        · exact Nat.le_of_eq (matchAt_start hm').symm
        · have hlater := ih h
          rw [List.length_cons] at hlater
          omega
      · have hlater := ih h
        rw [List.length_cons] at hlater
        omega
    | succ skip =>
      have hlater := ih h
      rw [List.length_cons] at hlater
      omega

/-- **The matches found in a text** stand one after the other. -/
theorem finditer_pairwise (r : Re N) (s : List Char) :
    (r.finditer s).Pairwise fun m m' => m.stop ≤ m'.start := by
  have hscan : ∀ (post pre : List Char) (skip : ℕ),
      (r.scanFrom skip pre post).Pairwise fun m m' => m.stop ≤ m'.start := by
    intro post
    induction post with
    | nil =>
      intro pre skip
      cases skip with
      | zero =>
        rw [Re.scanFrom]
        cases r.matchAt pre [] with
        | none => exact List.Pairwise.nil
        | some m => exact List.pairwise_singleton _ m
      | succ skip => exact List.Pairwise.nil
    | cons c cs ih =>
      intro pre skip
      cases skip with
      | zero =>
        rw [Re.scanFrom]
        split
        · rename_i m hm
          refine List.pairwise_cons.2 ⟨fun m' hm' => ?_, ih _ _⟩
          have hstart := matchAt_start hm
          have hlater := scanFrom_start hm'
          rw [List.length_cons] at hlater
          omega
        · exact ih _ _
      | succ skip => exact ih _ _
  exact hscan s [] 0

/-! ## The end of the text -/

/-- Every match of the expression ends with the text. -/
def Re.Ends : Re N → Prop
  | .eps | .set _ | .rep _ _ _ _ => False
  | .seq _ b => b.Ends
  | .alt a b => a.Ends ∧ b.Ends
  | .group _ a => a.Ends
  | .assert t => ∀ pre post, t pre post = true → post = []

theorem Re.Ends.post_eq_nil {r : Re N} : ∀ {g g' : Caps N} {pre w post : List Char}, r.Ends →
    r.Matches g pre w post g' → post = [] := by
  induction r with
  | eps => exact fun h => h.elim
  | set p => exact fun h => h.elim
  | rep p lo hi greedy => exact fun h => h.elim
  | seq a b _ ihb =>
    rintro g g' pre w post hb ⟨u, v, g₁, -, -, hv⟩
    exact ihb hb hv
  | alt a b iha ihb =>
    rintro g g' pre w post ⟨ha, hb⟩ (h | h)
    · exact iha ha h
    · exact ihb hb h
  | group n a iha =>
    rintro g g' pre w post ha ⟨g₁, h, -⟩
    exact iha ha h
  | assert t =>
    rintro g g' pre w post ht ⟨h, -, -⟩
    exact ht pre post h

/-! ## Runs of a class -/

section Runs

variable (p : Char → Bool)

/-- The run of the class at the front of a text. -/
def runAt (l : List Char) : List Char := l.takeWhile p

/-- The runs that begin inside `w`, before `post`. -/
def RunsIn (S : List Char → Prop) (w post : List Char) : Prop :=
  ∀ y, y <:+ w → y ≠ [] → S (runAt p (y ++ post))

/-- Before a text with a run in `A`, every match of the expression makes a text with a run in `B`,
and the runs that begin inside the match are in `S`. -/
def Re.Runs (A B S : List Char → Prop) (r : Re N) : Prop :=
  ∀ g pre w post g', r.Matches g pre w post g' → A (runAt p post) →
    B (runAt p (w ++ post)) ∧ RunsIn p S w post

variable {p} {A B C S : List Char → Prop}

theorem runAt_cons_of_neg {c : Char} (h : p c = false) (l : List Char) : runAt p (c :: l) = [] :=
  List.takeWhile_cons_of_neg (by rw [h]; exact Bool.false_ne_true)

theorem RunsIn.append {u v post : List Char} (hu : RunsIn p S u (v ++ post))
    (hv : RunsIn p S v post) : RunsIn p S (u ++ v) post := by
  rintro y ⟨t, hty⟩ hne
  rcases List.append_eq_append_iff.1 hty with ⟨x, rfl, rfl⟩ | ⟨x, rfl, rfl⟩
  · by_cases hxe : x = []
    · subst hxe
      exact hv v (List.suffix_refl v) hne
    · rw [List.append_assoc]
      exact hu x (List.suffix_append t x) hxe
  · exact hv y (List.suffix_append x y) hne

/-- No run begins at characters outside the class. -/
theorem RunsIn.outside {w post : List Char} (hw : ∀ c ∈ w, p c = false) (hS : S []) :
    RunsIn p S w post := by
  intro y hy hne
  obtain ⟨c, y, rfl⟩ := List.exists_cons_of_ne_nil hne
  rw [List.cons_append, runAt_cons_of_neg (hw c (hy.subset List.mem_cons_self))]
  exact hS

theorem Runs_seq {a b : Re N} (ha : a.Runs p C B S) (hb : b.Runs p A C S) :
    (Re.seq a b).Runs p A B S := by
  rintro g pre w post g' ⟨u, v, g₁, rfl, hu, hv⟩ hpost
  obtain ⟨hC, hinv⟩ := hb _ _ _ _ _ hv hpost
  obtain ⟨hB, hinu⟩ := ha _ _ _ _ _ hu hC
  rw [List.append_assoc]
  exact ⟨hB, hinu.append hinv⟩

theorem Runs_alt {a b : Re N} (ha : a.Runs p A B S) (hb : b.Runs p A B S) :
    (Re.alt a b).Runs p A B S := by
  rintro g pre w post g' (h | h) hpost
  · exact ha _ _ _ _ _ h hpost
  · exact hb _ _ _ _ _ h hpost

theorem Runs_group {a : Re N} {n : N} (ha : a.Runs p A B S) : (Re.group n a).Runs p A B S := by
  rintro g pre w post g' ⟨g₁, h, -⟩ hpost
  exact ha _ _ _ _ _ h hpost

theorem Runs_eps (h : ∀ l, A l → B l) : (Re.eps : Re N).Runs p A B S := by
  rintro g pre w post g' ⟨rfl, -⟩ hpost
  exact ⟨h _ hpost, fun y hy hne => absurd (List.suffix_nil.1 hy) hne⟩

theorem Runs_opt {a : Re N} (ha : a.Runs p A B S) (h : ∀ l, A l → B l) : a.opt.Runs p A B S :=
  Runs_alt ha (Runs_eps h)

/-- Characters outside the class, at least one of them. -/
theorem Runs_outside {r : Re N} (hr : r.Within fun c => p c = false) (hne : r.Needs fun _ => True)
    (hB : B []) (hS : S []) : r.Runs p A B S := by
  intro g pre w post g' hm _
  have hout := hr.forall_mem hm
  refine ⟨?_, RunsIn.outside hout hS⟩
  obtain ⟨c, hc, -⟩ := hne.exists_mem hm
  obtain ⟨d, w, rfl⟩ := List.exists_cons_of_ne_nil (List.ne_nil_of_mem hc)
  rw [List.cons_append, runAt_cons_of_neg (hout d List.mem_cons_self)]
  exact hB

/-- Characters outside the class, or none. -/
theorem Runs_outside_opt {r : Re N} (hr : r.Within fun c => p c = false) (h : ∀ l, A l → B l)
    (hB : B []) (hS : S []) : r.Runs p A B S := by
  intro g pre w post g' hm hpost
  have hout := hr.forall_mem hm
  refine ⟨?_, RunsIn.outside hout hS⟩
  cases w with
  | nil => exact h _ hpost
  | cons c w =>
    rw [List.cons_append, runAt_cons_of_neg (hout c List.mem_cons_self)]
    exact hB

/-- A word of the class goes before the run that follows it. -/
theorem Runs_word {f : Char → Char → Bool} (hf : ∀ a c, f a c = true ↔ c = a) {s : String}
    (hs : s.toList.all p = true) (hB : ∀ l, A l → B (s.toList ++ l))
    (hS : ∀ l, A l → ∀ y ∈ s.toList.tails, y ≠ [] → S (y ++ l)) :
    (Re.lit f s : Re N).Runs p A B S := by
  intro g pre w post g' hm hpost
  obtain ⟨rfl, -⟩ := (Plain_lit hf s _ _ _ _ _).1 hm
  have hrun : ∀ y, y <:+ s.toList → runAt p (y ++ post) = y ++ runAt p post := by
    intro y hy
    exact List.takeWhile_append_of_pos fun c hc => List.all_eq_true.1 hs c (hy.subset hc)
  refine ⟨?_, fun y hy hne => ?_⟩
  · rw [hrun _ (List.suffix_refl _)]
    exact hB _ hpost
  · rw [hrun y hy]
    exact hS _ hpost y ((List.mem_tails _ _).2 hy) hne

omit [DecidableEq N] in
/-- A text that begins inside a part of another one. -/
theorem begins_inside {u u' w v l : List Char} (heq : u ++ (w ++ v) = u' ++ l)
    (hle : u.length ≤ u'.length) (hlt : u'.length < u.length + w.length) :
    ∃ y, y <:+ w ∧ y ≠ [] ∧ l = y ++ v := by
  have hdrop : l = (w ++ v).drop (u'.length - u.length) := by
    have hcut := congrArg (List.drop u'.length) heq
    rw [List.drop_left, List.drop_append] at hcut
    rw [← hcut, List.drop_of_length_le hle, List.nil_append]
  have hin : u'.length - u.length < w.length := by omega
  refine ⟨w.drop (u'.length - u.length), List.drop_suffix _ _, ?_, ?_⟩
  · intro hnil
    have hlen := congrArg List.length hnil
    rw [List.length_drop, List.length_nil] at hlen
    omega
  · rw [hdrop, List.drop_append_of_le_length (Nat.le_of_lt hin)]

/-- **Expressions whose runs differ** never match overlapping parts of a text: the run with which
a match of one begins does not begin inside a match of the other. -/
theorem disjoint_of_runs {a b : Re N} {A' S' : List Char → Prop}
    (ha : a.Runs p (fun _ => True) A S) (hb : b.Runs p (fun _ => True) A' S')
    (hS : ∀ l, A' l → ¬S l) (hS' : ∀ l, A l → ¬S' l) {u u' w w' v v' : List Char}
    {g g₁ g' g₁' : Caps N} {pre pre' : List Char} (hm : a.Matches g pre w v g₁)
    (hm' : b.Matches g' pre' w' v' g₁') (heq : u ++ (w ++ v) = u' ++ (w' ++ v')) :
    u.length + w.length ≤ u'.length ∨ u'.length + w'.length ≤ u.length := by
  obtain ⟨hA, hin⟩ := ha _ _ _ _ _ hm trivial
  obtain ⟨hA', hin'⟩ := hb _ _ _ _ _ hm' trivial
  by_contra hover
  rcases Nat.le_total u.length u'.length with hle | hle
  · obtain ⟨y, hy, hne, hbegin⟩ := begins_inside heq hle (by omega)
    rw [hbegin] at hA'
    exact hS _ hA' (hin y hy hne)
  · obtain ⟨y, hy, hne, hbegin⟩ := begins_inside heq.symm hle (by omega)
    rw [hbegin] at hA
    exact hS' _ hA (hin' y hy hne)

end Runs

end CivicProof.Regex
