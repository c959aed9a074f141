import CivicProof.Spec.Resolve

/-!
# What the live resolver answers

A slot is resolved by the ladder or by the substring fallback, and then has an id; or it
is ambiguous or unresolved. When a call raises, the ids found so far are lost.

* `liveResolve_spec`: the status of every present entity slot when the resolver ends
  normally.
* `liveResolve_governmentDecision`: with a decision id among the slots it never does.
-/

namespace CivicProof

variable {σ : Type}

theorem bestCandidate_isSome {candidates : List Candidate} (h : candidates ≠ []) :
    (bestCandidate candidates).isSome := by
  cases candidates with
  | nil => exact absurd rfl h
  | cons c cs => rfl

theorem settleCandidates_resolved {kind : EntityKind} {args : ResolveArgs σ}
    {candidates : List Candidate} {s s' : σ} {r : ResolveResult}
    (h : settleCandidates kind args candidates s = (.ok r, s')) (hr : r.status = .resolved) :
    r.entityId.isSome := by
  unfold settleCandidates at h
  by_cases hnil : candidates = []
  · rw [if_pos hnil] at h
    cases h
    cases hr
  rw [if_neg hnil] at h
  by_cases hone : (candidates.map (·.entityId)).dedup.length = 1
  · rw [if_pos hone] at h
    cases h
    rw [Option.isSome_map]
    exact bestCandidate_isSome hnil
  rw [if_neg hone] at h
  cases hw : fuzzyWinner candidates with
  | some top =>
    rw [hw] at h
    cases h
    rfl
  | none =>
    rw [hw] at h
    dsimp only at h
    rw [Eff.bind_ok] at h
    obtain ⟨pick, s₁, -, h⟩ := h
    cases pick with
    | some id =>
      cases h
      rfl
    | none =>
      dsimp only at h
      rw [Eff.bind_ok] at h
      obtain ⟨_, s₂, -, h⟩ := h
      cases h
      cases hr

/-- **A resolved result of the ladder has an id.** -/
theorem resolve_resolved {U : Unicode} {fuzz : Option RapidFuzz} {kind : EntityKind}
    {args : ResolveArgs σ} {s s' : σ} {r : ResolveResult}
    (h : resolve U fuzz kind args s = (.ok r, s')) (hr : r.status = .resolved) :
    r.entityId.isSome := by
  unfold resolve at h
  cases hl : labelByKind kind with
  | none =>
    rw [hl] at h
    cases h
  | some p =>
    rw [hl] at h
    dsimp only at h
    rw [Eff.bind_ok] at h
    obtain ⟨candidates, s₁, -, h⟩ := h
    exact settleCandidates_resolved h hr

namespace LiveEntityResolver

variable (R : LiveEntityResolver σ) (slots : Slots)

/-- The outcome of the fallback after a ladder that did not resolve. -/
theorem fallback_status {status : LadderStatus} (hne : status ≠ .resolved)
    {kind : EntityKind} {value : String}
    {k : Option String → Eff σ (ResolverStatus × Option String)}
    (hsome : ∀ i, k (some i) = pure (.resolved, some i))
    (hnone : k none = pure (status.toSlotStatus, none)) {s s' : σ} {st : ResolverStatus}
    {id : Option String}
    (h : (fallbackResolve R.session kind value >>= k) s = (.ok (st, id), s')) :
    (st = .resolved ∧ id.isSome) ∨ ((st = .ambiguous ∨ st = .unresolved) ∧ id = none) := by
  rw [Eff.bind_ok] at h
  obtain ⟨found, s₁, -, h⟩ := h
  cases found with
  | some i =>
    rw [hsome] at h
    cases h
    exact Or.inl ⟨rfl, rfl⟩
  | none =>
    rw [hnone] at h
    cases h
    refine Or.inr ⟨?_, rfl⟩
    cases status with
    | resolved => exact absurd rfl hne
    | ambiguous => exact Or.inl rfl
    | unresolved => exact Or.inr rfl

/-- The outcome of a slot: resolved with an id, or neither. -/
theorem resolveSlot_status {kind : EntityKind} {value : String} {s s' : σ} {st : ResolverStatus}
    {id : Option String} (h : R.resolveSlot kind value s = (.ok (st, id), s')) :
    (st = .resolved ∧ id.isSome) ∨ ((st = .ambiguous ∨ st = .unresolved) ∧ id = none) := by
  unfold resolveSlot at h
  rw [Eff.bind_ok] at h
  obtain ⟨⟨status, entityId, candidates⟩, s₁, hr, h⟩ := h
  have hres := resolve_resolved hr
  cases status with
  | resolved =>
    cases entityId with
    | none => exact absurd (hres rfl) Bool.false_ne_true
    | some i =>
      cases h
      exact Or.inl ⟨rfl, rfl⟩
  | ambiguous => exact R.fallback_status LadderStatus.noConfusion (fun _ => rfl) rfl h
  | unresolved => exact R.fallback_status LadderStatus.noConfusion (fun _ => rfl) rfl h

/-- The ids the slot loop has found when it ends or raises. -/
def foundIds : List (Slot × EntityKind) → σ → List (Slot × String)
  | [], _ => []
  | (slot, kind) :: rest, s =>
    match slots slot with
    | none => foundIds rest s
    | some value =>
      match R.resolveSlot kind value s with
      | (.error _, _) => []
      | (.ok (_, id), s') => id.toList.map (slot, ·) ++ foundIds rest s'

/-- **A slot is resolved in the call** that starts in `s`: the ladder or the fallback found an id
for it, whatever became of the call afterwards. -/
def ResolvedInCall (s : σ) (slot : Slot) : Prop :=
  match R.openSession s with
  | (.error _, _) => False
  | (.ok (), s₁) => ∃ id, (slot, id) ∈ R.foundIds slots slotToKind s₁

variable {R slots}

/-- An id found comes from a round of the loop. -/
theorem mem_foundIds {l : List (Slot × EntityKind)} {slot : Slot} {id : String} {s : σ}
    (h : (slot, id) ∈ R.foundIds slots l s) :
    ∃ kind value t t', (slot, kind) ∈ l ∧
      R.resolveSlot kind value t = (.ok (.resolved, some id), t') := by
  induction l generalizing s with
  | nil => exact absurd h List.not_mem_nil
  | cons entry rest ih =>
    obtain ⟨slot₀, kind₀⟩ := entry
    rw [foundIds] at h
    cases hv : slots slot₀ with
    | none =>
      rw [hv] at h
      obtain ⟨kind, v, t, t', hmem, hr⟩ := ih h
      exact ⟨kind, v, t, t', List.mem_cons_of_mem _ hmem, hr⟩
    | some value =>
      rw [hv] at h
      dsimp only at h
      cases hr : R.resolveSlot kind₀ value s with
      | mk res s' =>
        rw [hr] at h
        cases res with
        | error e => exact absurd h List.not_mem_nil
        | ok outcome =>
          obtain ⟨st, found⟩ := outcome
          rcases List.mem_append.1 h with h | h
          · obtain ⟨i, hi, heq⟩ := List.mem_map.1 h
            cases heq
            rw [Option.mem_toList] at hi
            rw [hi] at hr
            rcases R.resolveSlot_status hr with ⟨rfl, -⟩ | ⟨-, hnone⟩
            · exact ⟨kind₀, value, s, s', List.mem_cons_self, hr⟩
            · cases hnone
          · obtain ⟨kind, v, t, t', hmem, hr⟩ := ih h
            exact ⟨kind, v, t, t', List.mem_cons_of_mem _ hmem, hr⟩

theorem slotRound_none {acc : ResolutionResult} {entry : Slot × EntityKind} {s : σ}
    (h : slots entry.1 = none) : R.slotRound slots acc entry s = (.ok acc, s) := by
  unfold slotRound
  rw [h]
  rfl

theorem slotRound_ok {acc acc' : ResolutionResult} {entry : Slot × EntityKind} {s s' : σ}
    {value : String} (hv : slots entry.1 = some value)
    (h : R.slotRound slots acc entry s = (.ok acc', s')) :
    ∃ st id, R.resolveSlot entry.2 value s = (.ok (st, id), s') ∧
      acc'.slotStatuses = Function.update acc.slotStatuses entry.1 (some st) := by
  unfold slotRound at h
  rw [hv] at h
  dsimp only at h
  rw [Eff.bind_ok] at h
  obtain ⟨⟨st, id⟩, s₁, hr, h⟩ := h
  cases h
  exact ⟨st, id, hr, rfl⟩

/-- A round leaves the statuses of the other slots alone. -/
theorem slotRound_other {acc acc' : ResolutionResult} {entry : Slot × EntityKind} {s s' : σ}
    {slot : Slot} (hne : slot ≠ entry.1) (h : R.slotRound slots acc entry s = (.ok acc', s')) :
    acc'.slotStatuses slot = acc.slotStatuses slot := by
  cases hv : slots entry.1 with
  | none =>
    rw [slotRound_none hv] at h
    cases h
    rfl
  | some value =>
    obtain ⟨st, id, -, hacc⟩ := slotRound_ok hv h
    rw [hacc, Function.update_of_ne hne]

theorem slotLoop_other {l : List (Slot × EntityKind)} {slot : Slot} (hnot : slot ∉ l.map Prod.fst) :
    ∀ {acc acc' : ResolutionResult} {s s' : σ},
      Eff.forList (R.slotRound slots) acc l s = (.ok acc', s') →
      acc'.slotStatuses slot = acc.slotStatuses slot := by
  induction l with
  | nil =>
    intro acc acc' s s' h
    cases h
    rfl
  | cons entry rest ih =>
    intro acc acc' s s' h
    rw [List.map_cons, List.mem_cons, not_or] at hnot
    rw [Eff.forList, Eff.bind_ok] at h
    obtain ⟨acc₁, s₁, h1, h2⟩ := h
    rw [ih hnot.2 h2, slotRound_other hnot.1 h1]

/-- A slot was resolved with an id found, or its status is ambiguous or unresolved. -/
def SlotOutcome (found : List (Slot × String)) (status : Option ResolverStatus) (slot : Slot) :
    Prop :=
  (status = some .resolved ∧ ∃ id, (slot, id) ∈ found) ∨ status = some .ambiguous ∨
    status = some .unresolved

/-- The outcome of every present slot when the loop ends normally: by induction on the table,
whose slots are distinct, so that a later round does not overwrite a status. -/
theorem slotLoop_spec {l : List (Slot × EntityKind)} (hnd : (l.map Prod.fst).Nodup) {slot : Slot}
    {value : String} (hv : slots slot = some value) (hmem : slot ∈ l.map Prod.fst) :
    ∀ {acc acc' : ResolutionResult} {s s' : σ},
      Eff.forList (R.slotRound slots) acc l s = (.ok acc', s') →
      SlotOutcome (R.foundIds slots l s) (acc'.slotStatuses slot) slot := by
  induction l with
  | nil => exact absurd hmem List.not_mem_nil
  | cons entry rest ih =>
    obtain ⟨slot₀, kind⟩ := entry
    intro acc acc' s s' h
    rw [List.map_cons, List.nodup_cons] at hnd
    rw [Eff.forList, Eff.bind_ok] at h
    obtain ⟨acc₁, s₁, h1, h2⟩ := h
    by_cases heq : slot = slot₀
    · -- the slot's own round: the rest of the table does not name it again
      subst heq
      obtain ⟨st, id, hr, hacc⟩ := slotRound_ok hv h1
      have hst : acc'.slotStatuses slot = some st := by
        rw [slotLoop_other hnd.1 h2, hacc, Function.update_self]
      rw [foundIds, hv]
      dsimp only
      rw [hr]
      rcases R.resolveSlot_status hr with ⟨rfl, hid⟩ | ⟨hst', -⟩
      · obtain ⟨i, rfl⟩ := Option.isSome_iff_exists.1 hid
        exact Or.inl ⟨hst, i, List.mem_append_left _ (List.mem_singleton.2 rfl)⟩
      · rcases hst' with rfl | rfl
        · exact Or.inr (Or.inl hst)
        · exact Or.inr (Or.inr hst)
    · rw [List.map_cons, List.mem_cons] at hmem
      have hrest := ih hnd.2 (hmem.resolve_left heq) h2
      cases hv₀ : slots slot₀ with
      | none =>
        rw [slotRound_none hv₀] at h1
        cases h1
        rw [foundIds, hv₀]
        exact hrest
      | some value₀ =>
        obtain ⟨st, id, hr, -⟩ := slotRound_ok hv₀ h1
        rw [foundIds, hv₀]
        dsimp only
        rw [hr]
        rcases hrest with ⟨hst, i, hi⟩ | hst
        · exact Or.inl ⟨hst, i, List.mem_append_right _ hi⟩
        · exact Or.inr hst

theorem slotToKind_nodup : (slotToKind.map Prod.fst).Nodup := by decide

/-- **When the resolver ends normally**, every present entity slot was resolved in the call or has
a status that says it was not. -/
theorem liveResolve_spec {s s' : σ} {r : ResolutionResult} (h : R.resolve slots s = (.ok r, s'))
    {slot : Slot} {value : String} (hv : slots slot = some value)
    (hmem : slot ∈ slotToKind.map Prod.fst) :
    (r.slotStatuses slot = some .resolved ∧ R.ResolvedInCall slots s slot) ∨
      r.slotStatuses slot = some .ambiguous ∨ r.slotStatuses slot = some .unresolved := by
  obtain ⟨s₁, s₂, hopen, hloop⟩ := Eff.within_ok h
  rcases slotLoop_spec slotToKind_nodup hv hmem hloop with ⟨hst, hid⟩ | hst
  · refine Or.inl ⟨hst, ?_⟩
    unfold ResolvedInCall
    rw [hopen]
    exact hid
  · exact Or.inr hst

/-- The ladder raises for a government decision, before it reads anything. -/
theorem resolveSlot_governmentDecision (R : LiveEntityResolver σ) (value : String) (s : σ) :
    R.resolveSlot .governmentDecision value s = (.error .valueError, s) := rfl

/-- **The resolver raises on every claim with a decision id**: its slot table lists government
decisions, which the ladder does not know. -/
theorem liveResolve_governmentDecision {value : String}
    (hv : slots .governmentDecisionId = some value) (s : σ) :
    ∃ e s', R.resolve slots s = (.error e, s') := by
  cases h : R.resolve slots s with
  | mk res s' =>
    cases res with
    | error e => exact ⟨e, s', rfl⟩
    | ok r =>
      obtain ⟨s₁, s₂, -, hloop⟩ := Eff.within_ok h
      have hmem : (Slot.governmentDecisionId, EntityKind.governmentDecision) ∈ slotToKind := by decide
      obtain ⟨acc, acc', t, t', hround⟩ := Eff.forList_mem hloop hmem
      obtain ⟨st, id, hr, -⟩ := slotRound_ok hv hround
      rw [resolveSlot_governmentDecision] at hr
      cases hr

end LiveEntityResolver

end CivicProof
