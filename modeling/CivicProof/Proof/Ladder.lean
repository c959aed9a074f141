import CivicProof.Proof.Resolver
import Mathlib.Data.Finset.Card

/-!
# What the ladder returns

The six steps in order, the exits that settle the candidates, and the rows that an ambiguous
result leaves behind.

* `climb_ok`: the candidates are those of the first step that found any.
* `settleCandidates_cases`: the exits, one by one.
* `ladder_sound`: status, id, candidates and rows of a result, whatever the stores and the
  tiebreaker answer.
-/

namespace CivicProof

variable {σ : Type}

/-! ## The steps -/

/-- The steps of the ladder, with their numbers. A step that does not apply finds nothing. -/
def ladderSteps (U : Unicode) (fuzz : Option RapidFuzz) (kind : EntityKind) (label : String)
    (args : ResolveArgs σ) : List (ℕ × Eff σ (List Candidate)) :=
  let he := orNone args.hebrewName
  let en := orNone args.englishName
  let single (step : ℕ) (reason : String) (score : ℚ) (hit : Option Uuid) : List Candidate :=
    hit.toList.map fun id => ⟨id, step, reason, score⟩
  [(1, match args.session with
      | some session => do
        if args.externalIds = [] then pure [] else
        return single 1 "external_id" 100 (← lookupExternalIds session label args.externalIds)
      | none => pure []),
    (2, match args.session, he with
      | some session, some name => do
        return single 2 "hebrew_exact" 95
          (← lookupHebrewExact session label (normalizeHebrew U name))
      | _, _ => pure []),
    (3, match args.pgConn, he with
      | some pg, some name => do
        return aliasCandidates 3 "alias_he" 0 (← pg.aliases kind (normalizeHebrew U name) "he")
      | _, _ => pure []),
    (3, match args.pgConn, en with
      | some pg, some name => do
        return aliasCandidates 3 "alias_en" 0 (← pg.aliases kind (U.lower (strip name)) "en")
      | _, _ => pure []),
    (4, match args.pgConn, he with
      | some pg, some name => do
        let translit := transliterateHebrew U name
        if translit = "" then pure [] else
        return aliasCandidates 4 "transliteration" 10 (← pg.aliases kind translit "en")
      | _, _ => pure []),
    (5, match args.session with
      | some session =>
        if he = none ∧ en = none then pure [] else
        lookupFuzzy U fuzz session label args.hebrewName args.englishName
      | none => pure [])]

/-- The steps one after the other, each only while there are no candidates. -/
def climb : List Candidate → List (ℕ × Eff σ (List Candidate)) → Eff σ (List Candidate)
  | candidates, [] => pure candidates
  | candidates, step :: rest => ladderStep candidates step.2 >>= fun found => climb found rest

/-- Steps that were taken one after the other and found nothing. -/
def NoneFound : List (ℕ × Eff σ (List Candidate)) → σ → σ → Prop
  | [], s, s' => s' = s
  | step :: rest, s, s' => ∃ t, step.2 s = (.ok [], t) ∧ NoneFound rest t s'

theorem ladderCandidates_eq (U : Unicode) (fuzz : Option RapidFuzz) (kind : EntityKind)
    (label : String) (args : ResolveArgs σ) :
    ladderCandidates U fuzz kind label args = climb [] (ladderSteps U fuzz kind label args) := by
  have hlast : ∀ x : Eff σ (List Candidate), (x >>= fun found => pure found) = x := by
    intro x
    funext s
    rw [Eff.bind_apply]
    rcases x s with ⟨_ | a, s'⟩ <;> rfl
  unfold ladderSteps
  simp only [climb, hlast]
  rfl

/-- What was found before stays. -/
theorem climb_of_ne_nil {steps : List (ℕ × Eff σ (List Candidate))} {candidates : List Candidate}
    (h : candidates ≠ []) (s : σ) : climb candidates steps s = (.ok candidates, s) := by
  induction steps with
  | nil => rfl
  | cons step rest ih =>
    have hstep : ladderStep candidates step.2 s = (.ok candidates, s) := by
      cases candidates with
      | nil => exact absurd rfl h
      | cons c cs => rfl
    rw [climb, Eff.bind_of_ok hstep, ih]

/-- **The first step that finds candidates decides**: every step before it found none. -/
theorem climb_ok {steps : List (ℕ × Eff σ (List Candidate))} {candidates : List Candidate}
    {s s' : σ} (h : climb [] steps s = (.ok candidates, s')) :
    (candidates = [] ∧ NoneFound steps s s') ∨
      candidates ≠ [] ∧ ∃ before step after t, steps = before ++ step :: after ∧
        NoneFound before s t ∧ step.2 t = (.ok candidates, s') := by
  induction steps generalizing s with
  | nil =>
    cases h
    exact Or.inl ⟨rfl, rfl⟩
  | cons step rest ih =>
    rw [climb, Eff.bind_ok] at h
    obtain ⟨found, t, hstep, hrest⟩ := h
    change step.2 s = (.ok found, t) at hstep
    by_cases hfound : found = []
    · subst hfound
      rcases ih hrest with ⟨hnil, hnone⟩ | ⟨hne, before, last, after, t', rfl, hnone, hlast⟩
      · exact Or.inl ⟨hnil, t, hstep, hnone⟩
      · exact Or.inr ⟨hne, step :: before, last, after, t', rfl, ⟨t, hstep, hnone⟩, hlast⟩
    · rw [climb_of_ne_nil hfound] at hrest
      cases hrest
      exact Or.inr ⟨hfound, [], step, rest, s, rfl, rfl, hstep⟩

/-- What a fuzzy lookup returns carries the step number 5. -/
theorem lookupFuzzy_step {U : Unicode} {fuzz : Option RapidFuzz} {session : Session σ}
    {label : String} {he en : Option String} {s s' : σ} {cs : List Candidate}
    (h : lookupFuzzy U fuzz session label he en s = (.ok cs, s')) : ∀ c ∈ cs, c.matchStep = 5 := by
  unfold lookupFuzzy at h
  cases fuzz with
  | none =>
    cases h
    exact fun c hc => absurd hc List.not_mem_nil
  | some fuzz =>
    dsimp only at h
    rw [Eff.bind_ok] at h
    obtain ⟨rows, t, -, h⟩ := h
    rw [Eff.bind_ok] at h
    obtain ⟨scored, t', hloop, h⟩ := h
    cases h
    have hscored : ∀ c ∈ scored, c.matchStep = 5 := by
      refine Eff.forList_inv (fun _ acc => ∀ c ∈ acc, c.matchStep = 5) ?_
        (fun c hc => absurd hc List.not_mem_nil) hloop
      intro done row acc acc' t t' hacc _ hround
      cases hscore : fuzzyScore U fuzz (normalizeHebrew U (he.getD ""))
          (U.lower (strip (en.getD ""))) row with
      | none =>
        rw [hscore] at hround
        cases hround
        exact hacc
      | some best =>
        rw [hscore] at hround
        dsimp only at hround
        rw [Eff.bind_ok] at hround
        obtain ⟨id, t₁, -, hround⟩ := hround
        cases hround
        intro c hc
        rcases List.mem_append.1 hc with hc | hc
        · exact hacc c hc
        · rw [List.mem_singleton.1 hc]
    exact fun c hc => hscored c ((List.mem_insertionSort _).1 (List.mem_of_mem_take hc))

/-- The candidates that a call returns carry the step number `n`. -/
def Numbered (n : ℕ) (x : Eff σ (List Candidate)) : Prop :=
  ∀ s cs s', x s = (.ok cs, s') → ∀ c ∈ cs, c.matchStep = n

theorem Numbered.nil (n : ℕ) : Numbered n (pure [] : Eff σ (List Candidate)) := by
  intro s cs s' h c hc
  cases h
  exact absurd hc List.not_mem_nil

theorem Numbered.hit {n : ℕ} {why : String} {score : ℚ} (x : Eff σ (Option Uuid)) :
    Numbered n (do return (← x).toList.map fun id => ⟨id, n, why, score⟩) := by
  intro s cs s' h c hc
  rw [Eff.bind_ok] at h
  obtain ⟨hit, t, -, h⟩ := h
  cases h
  obtain ⟨id, -, rfl⟩ := List.mem_map.1 hc
  rfl

theorem Numbered.aliases {n : ℕ} {why : String} {penalty : ℤ} (x : Eff σ (List (Uuid × ℤ))) :
    Numbered n (do return aliasCandidates n why penalty (← x)) := by
  intro s cs s' h c hc
  rw [Eff.bind_ok] at h
  obtain ⟨hits, t, -, h⟩ := h
  cases h
  obtain ⟨hit, -, rfl⟩ := List.mem_map.1 hc
  rfl

/-- **The candidates of a step carry its number.** -/
theorem ladderSteps_numbered {U : Unicode} {fuzz : Option RapidFuzz} {kind : EntityKind}
    {label : String} {args : ResolveArgs σ} :
    ∀ step ∈ ladderSteps U fuzz kind label args, Numbered step.1 step.2 := by
  unfold ladderSteps
  simp only [List.forall_mem_cons]
  refine ⟨?_, ?_, ?_, ?_, ?_, ?_, fun step hstep => absurd hstep List.not_mem_nil⟩
  · split
    · split
      · exact Numbered.nil 1
      · exact Numbered.hit _
    · exact Numbered.nil 1
  · split
    · exact Numbered.hit _
    · exact Numbered.nil 2
  · split
    · exact Numbered.aliases _
    · exact Numbered.nil 3
  · split
    · exact Numbered.aliases _
    · exact Numbered.nil 3
  · split
    · split
      · exact Numbered.nil 4
      · exact Numbered.aliases _
    · exact Numbered.nil 4
  · split
    · split
      · exact Numbered.nil 5
      · exact fun s cs s' h => lookupFuzzy_step h
    · exact Numbered.nil 5

/-! ## What the calls of a resolver are made of -/

section

variable {P : (α : Type) → Eff σ α → Prop} (hP : Eff.Closed P)

include hP

theorem uuidOrRaise_closed (text : String) : P Uuid (uuidOrRaise text) := by
  unfold uuidOrRaise
  split
  · exact hP.pure _
  · exact hP.raise _

theorem lookupExternalIds_closed {run : Session σ} (hrun : ∀ q, P _ (run q)) (label : String)
    (ids : List (String × String)) : P _ (lookupExternalIds run label ids) := by
  induction ids with
  | nil => exact hP.pure none
  | cons entry rest ih =>
    refine hP.bind (hrun _) fun rows => ?_
    cases rows with
    | nil => exact ih
    | cons row rows => exact hP.bind (uuidOrRaise_closed hP row.id) fun id => hP.pure _

theorem lookupHebrewExact_closed {run : Session σ} (hrun : ∀ q, P _ (run q)) (label name : String) :
    P _ (lookupHebrewExact run label name) := by
  refine hP.bind (hrun _) fun rows => ?_
  split
  · exact hP.bind (uuidOrRaise_closed hP _) fun id => hP.pure _
  · exact hP.pure none

theorem lookupFuzzy_closed {run : Session σ} (hrun : ∀ q, P _ (run q)) (U : Unicode)
    (fuzz : Option RapidFuzz) (label : String) (he en : Option String) :
    P _ (lookupFuzzy U fuzz run label he en) := by
  unfold lookupFuzzy
  split
  · exact hP.pure []
  · refine hP.bind (hrun _) fun rows => hP.bind (hP.forList ?_ _ _) fun _ => hP.pure _
    intro acc row
    split
    · exact hP.pure acc
    · exact hP.bind (uuidOrRaise_closed hP _) fun id => hP.pure _

variable {args : ResolveArgs σ} (hsession : ∀ run, args.session = some run → ∀ q, P _ (run q))
  (haliases : ∀ pg, args.pgConn = some pg → ∀ kind text locale, P _ (pg.aliases kind text locale))

include hsession haliases

/-- The steps are made of calls to the stores. -/
theorem ladderSteps_closed (U : Unicode) (fuzz : Option RapidFuzz) (kind : EntityKind)
    (label : String) : ∀ step ∈ ladderSteps U fuzz kind label args, P _ step.2 := by
  unfold ladderSteps
  simp only [List.forall_mem_cons]
  refine ⟨?_, ?_, ?_, ?_, ?_, ?_, fun step hstep => absurd hstep List.not_mem_nil⟩
  · split
    · rename_i run hrun
      split
      · exact hP.pure []
      · exact hP.bind (lookupExternalIds_closed hP (hsession run hrun) label _) fun hit => hP.pure _
    · exact hP.pure []
  · split
    · rename_i run name hrun _
      exact hP.bind (lookupHebrewExact_closed hP (hsession run hrun) label _) fun hit => hP.pure _
    · exact hP.pure []
  · split
    · rename_i pg name hpg _
      exact hP.bind (haliases pg hpg _ _ _) fun hits => hP.pure _
    · exact hP.pure []
  · split
    · rename_i pg name hpg _
      exact hP.bind (haliases pg hpg _ _ _) fun hits => hP.pure _
    · exact hP.pure []
  · split
    · rename_i pg name hpg _
      split
      · exact hP.pure []
      · exact hP.bind (haliases pg hpg _ _ _) fun hits => hP.pure _
    · exact hP.pure []
  · split
    · rename_i run hrun
      split
      · exact hP.pure []
      · exact lookupFuzzy_closed hP (hsession run hrun) U fuzz label _ _
    · exact hP.pure []

/-- So is the climb. -/
theorem climb_closed (U : Unicode) (fuzz : Option RapidFuzz) (kind : EntityKind) (label : String) :
    P _ (climb [] (ladderSteps U fuzz kind label args)) := by
  have hsteps := ladderSteps_closed hP hsession haliases U fuzz kind label
  generalize ladderSteps U fuzz kind label args = steps at hsteps
  generalize ([] : List Candidate) = candidates
  induction steps generalizing candidates with
  | nil => exact hP.pure candidates
  | cons step rest ih =>
    rw [List.forall_mem_cons] at hsteps
    refine hP.bind ?_ fun found => ih hsteps.2 found
    cases candidates with
    | nil => exact hsteps.1
    | cons c cs => exact hP.pure _

end

/-! ## The exits -/

/-- Candidates that name more than one entity. -/
def Divided (candidates : List Candidate) : Prop :=
  ∃ c ∈ candidates, ∃ c' ∈ candidates, c.entityId ≠ c'.entityId

theorem dedup_length_ne_one {candidates : List Candidate} (hne : candidates ≠ []) :
    (candidates.map (·.entityId)).dedup.length ≠ 1 ↔ Divided candidates := by
  rw [← List.card_toFinset, ne_eq, Finset.card_eq_one]
  constructor
  · intro h
    by_contra hall
    obtain ⟨c, cs, rfl⟩ := List.exists_cons_of_ne_nil hne
    refine h ⟨c.entityId, Finset.eq_singleton_iff_unique_mem.2 ⟨?_, ?_⟩⟩
    · exact List.mem_toFinset.2 (List.mem_map_of_mem List.mem_cons_self)
    · intro id hid
      obtain ⟨c', hc', rfl⟩ := List.mem_map.1 (List.mem_toFinset.1 hid)
      by_contra hdiff
      exact hall ⟨c', hc', c, List.mem_cons_self, hdiff⟩
  · rintro ⟨c, hc, c', hc', hdiff⟩ ⟨id, hid⟩
    have hall : ∀ x ∈ candidates, x.entityId = id := by
      intro x hx
      have hmem : x.entityId ∈ (candidates.map (·.entityId)).toFinset :=
        List.mem_toFinset.2 (List.mem_map_of_mem hx)
      rw [hid] at hmem
      exact Finset.mem_singleton.1 hmem
    exact hdiff ((hall c hc).trans (hall c' hc').symm)

theorem bestCandidate_mem {candidates : List Candidate} {best : Candidate}
    (h : bestCandidate candidates = some best) : best ∈ candidates := by
  have hfold : ∀ (cs : List Candidate) (c : Candidate),
      cs.foldl (fun w c => if w.score < c.score then c else w) c ∈ c :: cs := by
    intro cs
    induction cs with
    | nil => exact fun c => List.mem_cons_self
    | cons c' cs ih =>
      intro c
      rw [List.foldl_cons]
      have hrest := ih (if c.score < c'.score then c' else c)
      rcases List.mem_cons.1 hrest with heq | hmem
      · rw [heq]
        split
        · exact List.mem_cons_of_mem _ List.mem_cons_self
        · exact List.mem_cons_self
      · exact List.mem_cons_of_mem _ (List.mem_cons_of_mem _ hmem)
  cases candidates with
  | nil => cases h
  | cons c cs =>
    cases h
    exact hfold cs c

theorem fuzzyWinner_mem {candidates : List Candidate} {top : Candidate}
    (h : fuzzyWinner candidates = some top) : top ∈ candidates := by
  unfold fuzzyWinner at h
  split at h
  · cases h
  · rename_i top' rest hsort
    split at h
    · cases h
      have hmem : top ∈ (candidates.filter (·.matchStep = 5)).insertionSort
          fun a b => b.score ≤ a.score := hsort ▸ List.mem_cons_self
      exact (List.mem_filter.1 ((List.mem_insertionSort _).1 hmem)).1
    · cases h

/-- The ways out of the ladder for the candidates found, from `s` to `s'`. -/
inductive Exit (kind : EntityKind) (args : ResolveArgs σ) (candidates : List Candidate) (s s' : σ) :
    ResolveResult → Prop
  | unresolved : candidates = [] → s' = s →
      Exit kind args candidates s s' ⟨.unresolved, none, candidates⟩
  /-- All candidates name one entity. -/
  | single (best : Candidate) : ¬ Divided candidates → bestCandidate candidates = some best →
      s' = s → Exit kind args candidates s s' ⟨.resolved, some best.entityId, candidates⟩
  /-- The threshold and margin rule. -/
  | clear (top : Candidate) : Divided candidates → fuzzyWinner candidates = some top →
      s' = s → Exit kind args candidates s s' ⟨.resolved, some top.entityId, candidates⟩
  | picked (id : Uuid) : Divided candidates → fuzzyWinner candidates = none →
      tiebreak kind args candidates s = (.ok (some id), s') →
      Exit kind args candidates s s' ⟨.resolved, some id, candidates⟩
  | ambiguous (t : σ) : Divided candidates → fuzzyWinner candidates = none →
      tiebreak kind args candidates s = (.ok none, t) →
      recordedAmbiguous kind args candidates t = (.ok (), s') →
      Exit kind args candidates s s' ⟨.ambiguous, none, candidates⟩

theorem settleCandidates_exit {kind : EntityKind} {args : ResolveArgs σ}
    {candidates : List Candidate} {s s' : σ} {r : ResolveResult}
    (h : settleCandidates kind args candidates s = (.ok r, s')) :
    Exit kind args candidates s s' r := by
  unfold settleCandidates at h
  by_cases hnil : candidates = []
  · rw [if_pos hnil] at h
    cases h
    subst hnil
    exact Exit.unresolved rfl rfl
  rw [if_neg hnil] at h
  by_cases hone : (candidates.map (·.entityId)).dedup.length = 1
  · rw [if_pos hone] at h
    cases h
    obtain ⟨best, hbest⟩ := Option.isSome_iff_exists.1 (bestCandidate_isSome hnil)
    rw [hbest]
    exact Exit.single best (fun hd => (dedup_length_ne_one hnil).2 hd hone) hbest rfl
  rw [if_neg hone] at h
  have hdiv := (dedup_length_ne_one hnil).1 hone
  cases hw : fuzzyWinner candidates with
  | some top =>
    rw [hw] at h
    cases h
    exact Exit.clear top hdiv hw rfl
  | none =>
    rw [hw] at h
    dsimp only at h
    rw [Eff.bind_ok] at h
    obtain ⟨pick, t, hpick, h⟩ := h
    cases pick with
    | some id =>
      cases h
      exact Exit.picked id hdiv hw hpick
    | none =>
      dsimp only at h
      rw [Eff.bind_ok] at h
      obtain ⟨_, t', hrec, h⟩ := h
      cases h
      exact Exit.ambiguous t hdiv hw hpick hrec

/-- The tiebreaker picks one of the ids found, or nothing. -/
theorem tiebreak_mem {kind : EntityKind} {args : ResolveArgs σ} {candidates : List Candidate}
    {s s' : σ} {id : Uuid} (h : tiebreak kind args candidates s = (.ok (some id), s')) :
    ∃ c ∈ candidates, c.entityId = id := by
  unfold tiebreak at h
  cases ht : args.llmTiebreaker with
  | none =>
    rw [ht] at h
    cases h
  | some pick =>
    rw [ht] at h
    dsimp only at h
    rw [Eff.bind_ok] at h
    obtain ⟨answer, t, -, h⟩ := h
    have hfilter : answer.filter (fun id => id ∈ candidates.map (·.entityId)) = some id :=
      Except.ok.inj (Prod.mk.inj h).1
    have hmem := (Option.filter_eq_some_iff.1 hfilter).2
    exact List.mem_map.1 (of_decide_eq_true hmem)

/-- A result of the ladder: the candidates of the steps, and the exit they took. -/
theorem resolve_ok {U : Unicode} {fuzz : Option RapidFuzz} {kind : EntityKind}
    {args : ResolveArgs σ} {s s' : σ} {r : ResolveResult}
    (h : resolve U fuzz kind args s = (.ok r, s')) :
    ∃ label idField candidates t, labelByKind kind = some (label, idField) ∧
      climb [] (ladderSteps U fuzz kind label args) s = (.ok candidates, t) ∧
      Exit kind args candidates t s' r := by
  unfold resolve at h
  cases hl : labelByKind kind with
  | none =>
    rw [hl] at h
    cases h
  | some p =>
    rw [hl] at h
    dsimp only at h
    rw [Eff.bind_ok, ladderCandidates_eq] at h
    obtain ⟨candidates, t, hclimb, hexit⟩ := h
    exact ⟨p.1, p.2, candidates, t, rfl, hclimb, settleCandidates_exit hexit⟩

theorem Exit.candidates {kind : EntityKind} {args : ResolveArgs σ} {candidates : List Candidate}
    {s s' : σ} {r : ResolveResult} (h : Exit kind args candidates s s' r) :
    r.candidates = candidates := by
  cases h <;> rfl

/-! ## The rows of an ambiguous result -/

/-- The text an ambiguous candidate is recorded under. -/
def ResolveArgs.mention (args : ResolveArgs σ) : String :=
  (orNone args.hebrewName).getD ((orNone args.englishName).getD "")

/-- The `entity_candidates` table as the calls of a resolver change it: the lookups and the
tiebreaker leave it alone, and an insert appends its row. -/
structure CandidateLedger (args : ResolveArgs σ) where
  rows : σ → List (EntityKind × String × Candidate)
  session : ∀ run, args.session = some run → ∀ q, Eff.Keeps rows (run q)
  aliases : ∀ pg, args.pgConn = some pg → ∀ kind text locale,
    Eff.Keeps rows (pg.aliases kind text locale)
  tiebreaker : ∀ pick, args.llmTiebreaker = some pick → ∀ kind he en cs,
    Eff.Keeps rows (pick kind he en cs)
  insert : ∀ pg, args.pgConn = some pg → ∀ kind mention c s s',
    pg.insertCandidate kind mention c s = (.ok (), s') → rows s' = rows s ++ [(kind, mention, c)]

namespace CandidateLedger

variable {args : ResolveArgs σ} (L : CandidateLedger args)

/-- Finding candidates writes none. -/
theorem climb_keeps (U : Unicode) (fuzz : Option RapidFuzz) (kind : EntityKind) (label : String) :
    Eff.Keeps L.rows (climb [] (ladderSteps U fuzz kind label args)) :=
  climb_closed (Eff.keeps_closed L.rows) L.session L.aliases U fuzz kind label

theorem tiebreak_keeps (kind : EntityKind) (candidates : List Candidate) :
    Eff.Keeps L.rows (tiebreak kind args candidates) := by
  have hclosed := Eff.keeps_closed L.rows
  unfold tiebreak
  split
  · rename_i pick hpick
    exact hclosed.bind (L.tiebreaker pick hpick _ _ _ _) fun answer => hclosed.pure _
  · exact hclosed.pure none

/-- The rows written for an ambiguous result: one for each candidate, in order. -/
theorem recordedAmbiguous_rows {kind : EntityKind} {candidates : List Candidate} {s s' : σ}
    (h : recordedAmbiguous kind args candidates s = (.ok (), s')) :
    L.rows s' = L.rows s ++
      if args.recordAmbiguous = true ∧ args.pgConn.isSome = true then
        candidates.map fun c => (kind, args.mention, c)
      else [] := by
  unfold recordedAmbiguous at h
  cases hpg : args.pgConn with
  | none =>
    rw [hpg] at h
    cases h
    rw [if_neg (fun hc => Bool.false_ne_true hc.2), List.append_nil]
  | some pg =>
    rw [hpg] at h
    dsimp only at h
    by_cases hrec : args.recordAmbiguous = true
    · rw [if_pos hrec] at h
      rw [if_pos ⟨hrec, rfl⟩]
      clear hrec
      unfold writeEntityCandidates at h
      induction candidates generalizing s with
      | nil =>
        cases h
        rw [List.map_nil, List.append_nil]
      | cons c cs ih =>
        rw [Eff.forList, Eff.bind_ok] at h
        obtain ⟨u, t, hins, hrest⟩ := h
        rw [ih hrest, L.insert pg hpg _ _ _ _ _ hins, List.map_cons, List.append_assoc]
        rfl
    · rw [if_neg hrec] at h
      cases h
      rw [if_neg (fun hc => hrec hc.1), List.append_nil]

end CandidateLedger

/-! ## Soundness -/

/-- A tiebreaker whose answers outside the candidates count as no answer. -/
def ResolveArgs.confined (args : ResolveArgs σ) : ResolveArgs σ :=
  { args with
    llmTiebreaker := args.llmTiebreaker.map fun pick kind he en candidates => do
      return (← pick kind he en candidates).filter fun id => id ∈ candidates.map (·.entityId) }

theorem tiebreak_confined (kind : EntityKind) (args : ResolveArgs σ) (candidates : List Candidate) :
    tiebreak kind args.confined candidates = tiebreak kind args candidates := by
  have htwice : ∀ x : Eff σ (Option Uuid), ∀ p : Uuid → Bool,
      ((do return (← x).filter p) >>= fun pick => pure (pick.filter p)) =
        (do return (← x).filter p : Eff σ (Option Uuid)) := by
    intro x p
    funext s
    rw [Eff.bind_apply, Eff.bind_apply]
    rcases x s with ⟨e | answer, t⟩
    · rfl
    · change (Except.ok ((answer.filter p).filter p), t) = (Except.ok (answer.filter p), t)
      cases answer with
      | none => rfl
      | some id => simp
  unfold tiebreak ResolveArgs.confined
  cases args.llmTiebreaker with
  | none => rfl
  | some pick => exact htwice _ _

/-- **An answer outside the candidates is no answer.** -/
theorem resolve_confined (U : Unicode) (fuzz : Option RapidFuzz) (kind : EntityKind)
    (args : ResolveArgs σ) : resolve U fuzz kind args.confined = resolve U fuzz kind args := by
  have hsettle : settleCandidates kind args.confined = settleCandidates kind args := by
    funext candidates
    unfold settleCandidates
    rw [tiebreak_confined]
    rfl
  unfold resolve
  rw [hsettle]
  rfl

/-- A sound result of the ladder, for the steps it took and the rows it may have written. -/
structure SoundResult (kind : EntityKind) (args : ResolveArgs σ)
    (steps : List (ℕ × Eff σ (List Candidate))) (rows : σ → List (EntityKind × String × Candidate))
    (s s' : σ) (r : ResolveResult) : Prop where
  resolved : r.status = .resolved → ∃ c ∈ r.candidates, r.entityId = some c.entityId
  ambiguous : r.status = .ambiguous → r.entityId = none ∧ Divided r.candidates
  unresolved : r.status = .unresolved ↔ r.candidates = []
  /-- Every step found nothing, or one did and every step before it found nothing. -/
  steps : (r.candidates = [] ∧ ∃ t, NoneFound steps s t) ∨
    ∃ before step after t t', steps = before ++ step :: after ∧ NoneFound before s t ∧
      step.2 t = (.ok r.candidates, t') ∧ ∀ c ∈ r.candidates, c.matchStep = step.1
  rows : rows s' = rows s ++
    if r.status = .ambiguous ∧ args.recordAmbiguous = true ∧ args.pgConn.isSome = true then
      r.candidates.map fun c => (kind, args.mention, c)
    else []

theorem Divided.ne_nil {candidates : List Candidate} (h : Divided candidates) :
    candidates ≠ [] := by
  rintro rfl
  obtain ⟨c, hc, -⟩ := h
  exact List.not_mem_nil hc

/-- **Every result of the ladder is sound**, whatever the stores and the tiebreaker answer. -/
theorem ladder_sound {U : Unicode} {fuzz : Option RapidFuzz} {kind : EntityKind}
    {args : ResolveArgs σ} (L : CandidateLedger args) {s s' : σ} {r : ResolveResult}
    (h : resolve U fuzz kind args s = (.ok r, s')) :
    (∃ label idField, labelByKind kind = some (label, idField) ∧
      SoundResult kind args (ladderSteps U fuzz kind label args) L.rows s s' r) ∧
      resolve U fuzz kind args.confined s = (.ok r, s') := by
  refine ⟨?_, (resolve_confined U fuzz kind args) ▸ h⟩
  obtain ⟨label, idField, candidates, t, hlabel, hclimb, hexit⟩ := resolve_ok h
  refine ⟨label, idField, hlabel, ?_⟩
  have hsteps := climb_ok hclimb
  have hkeep := L.climb_keeps U fuzz kind label s
  rw [hclimb] at hkeep
  dsimp only at hkeep
  have hfound : (candidates = [] ∧ ∃ t, NoneFound (ladderSteps U fuzz kind label args) s t) ∨
      ∃ before step after u u', ladderSteps U fuzz kind label args = before ++ step :: after ∧
        NoneFound before s u ∧ step.2 u = (.ok candidates, u') ∧
          ∀ c ∈ candidates, c.matchStep = step.1 := by
    rcases hsteps with ⟨hnil, hnone⟩ | ⟨-, before, step, after, u, heq, hnone, hlast⟩
    · exact Or.inl ⟨hnil, t, hnone⟩
    · have hmem : step ∈ ladderSteps U fuzz kind label args :=
        heq ▸ List.mem_append_right _ List.mem_cons_self
      exact Or.inr ⟨before, step, after, u, t, heq, hnone, hlast,
        ladderSteps_numbered step hmem u candidates t hlast⟩
  have hkept : ∀ {p : Prop} [Decidable p] {rows : List (EntityKind × String × Candidate)}
      {t' : σ}, ¬ p → L.rows t' = L.rows t → L.rows t' = L.rows s ++ if p then rows else [] := by
    intro p _ rows t' hp ht
    rw [if_neg hp, List.append_nil, ht, hkeep]
  cases hexit with
  | unresolved hnil hs =>
    refine ⟨fun hst => LadderStatus.noConfusion hst, fun hst => LadderStatus.noConfusion hst,
      ⟨fun _ => hnil, fun _ => rfl⟩, hfound, hkept (fun hp => LadderStatus.noConfusion hp.1) ?_⟩
    rw [hs]
  | single best hdiv hbest hs =>
    have hmem := bestCandidate_mem hbest
    refine ⟨fun _ => ⟨best, hmem, rfl⟩, fun hst => LadderStatus.noConfusion hst,
      ⟨fun hst => LadderStatus.noConfusion hst, fun hnil => ?_⟩, hfound,
      hkept (fun hp => LadderStatus.noConfusion hp.1) ?_⟩
    · exact absurd hmem ((show candidates = [] from hnil) ▸ List.not_mem_nil)
    · rw [hs]
  | clear top hdiv htop hs =>
    refine ⟨fun _ => ⟨top, fuzzyWinner_mem htop, rfl⟩, fun hst => LadderStatus.noConfusion hst,
      ⟨fun hst => LadderStatus.noConfusion hst, fun hnil => absurd hnil hdiv.ne_nil⟩, hfound,
      hkept (fun hp => LadderStatus.noConfusion hp.1) ?_⟩
    rw [hs]
  | picked id hdiv hno hpick =>
    obtain ⟨c, hc, hid⟩ := tiebreak_mem hpick
    have hrows := L.tiebreak_keeps kind candidates t
    rw [hpick] at hrows
    exact ⟨fun _ => ⟨c, hc, congrArg some hid.symm⟩, fun hst => LadderStatus.noConfusion hst,
      ⟨fun hst => LadderStatus.noConfusion hst, fun hnil => absurd hnil hdiv.ne_nil⟩, hfound,
      hkept (fun hp => LadderStatus.noConfusion hp.1) hrows⟩
  | ambiguous u hdiv hno hpick hrec =>
    have hrows := L.tiebreak_keeps kind candidates t
    rw [hpick] at hrows
    refine ⟨fun hst => LadderStatus.noConfusion hst, fun _ => ⟨rfl, hdiv⟩,
      ⟨fun hst => LadderStatus.noConfusion hst, fun hnil => absurd hnil hdiv.ne_nil⟩, hfound, ?_⟩
    rw [L.recordedAmbiguous_rows hrec, hrows, hkeep]
    by_cases hp : args.recordAmbiguous = true ∧ args.pgConn.isSome = true
    · rw [if_pos hp, if_pos ⟨rfl, hp⟩]
    · rw [if_neg hp, if_neg fun hc => hp hc.2]

/-- Text on which normalising changes nothing. -/
def composedText : Unicode := ⟨id, lower, fun _ => true⟩

/-- The id that consists of one digit. -/
def repeated (c : Char) (hc : isHexDigit c = true) : Uuid :=
  ⟨List.replicate 32 c, List.length_replicate, by
    rw [List.all_eq_true]
    intro x hx
    rwa [List.eq_of_mem_replicate hx]⟩

theorem isHexDigit_a : isHexDigit 'a' = true := rfl

theorem isHexDigit_b : isHexDigit 'b' = true := rfl

/-- A name that is an alias of two persons, and a tiebreaker that answers a third one. -/
def sharedAlias : ResolveArgs (List (EntityKind × String × Candidate)) :=
  { hebrewName := some "דן לוי"
    pgConn := some
      { aliases := fun _ _ _ => pure [(repeated 'a' rfl, 90), (repeated 'b' rfl, 90)]
        insertCandidate := fun kind mention c rows => (.ok (), rows ++ [(kind, mention, c)]) }
    recordAmbiguous := true
    llmTiebreaker := some fun _ _ _ _ => pure (some (repeated 'c' rfl)) }

/-- Its rows are the whole state. -/
def sharedAliasLedger : CandidateLedger sharedAlias where
  rows := id
  session := by
    intro run hrun
    cases hrun
  aliases := by
    intro pg hpg kind text locale
    cases hpg
    exact (Eff.keeps_closed id).pure _
  tiebreaker := by
    intro pick hpick kind he en cs
    cases hpick
    exact (Eff.keeps_closed id).pure _
  insert := by
    intro pg hpg kind mention c s s' h
    cases hpg
    cases h
    rfl

theorem ladder_sound_shared_alias : ∃ r s',
    resolve composedText none .person sharedAlias [] = (.ok r, s') ∧ r.status = .ambiguous ∧
      s'.length = 2 ∧ resolve composedText none .person sharedAlias.confined [] = (.ok r, s') :=
  ⟨_, _, rfl, rfl, rfl, (ladder_sound sharedAliasLedger rfl).2⟩

end CivicProof
