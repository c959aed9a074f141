import CivicProof.Proof.TimeReadings
import CivicProof.TimeSpan.Relay

/-!
# The last term

Consecutive Knesset terms share a day: the one ends on it and the other starts on it. The scan for the
term in force takes the first term that contains the reference date, so on the first day of a term it
takes the outgoing one, and "last term" is read one term too early.

* `knessetTerms_relay`: the table of terms.
* `lastTermScope_latest`, `lastTermScope_startDay`: the scan on other days, and on first days.
* `last_term_iff`: when "last term" is the predecessor of the term in force.
-/

namespace CivicProof

open Regex TimeSpan

variable {U : Unicode} {ref : CivilDate} {phrase : String}

/-! ## The table -/

/-- **Each term ends on the day the next one starts**; the last one is open. -/
theorem knessetTerms_relay : Relay KnessetTerm.start KnessetTerm.stop knessetTerms := by
  unfold Relay
  simp only [CivilDate.lt_def]
  decide

/-- The term in force: the latest whose start is not after the reference date. -/
abbrev InForce (ref : CivilDate) (t : KnessetTerm) : Prop :=
  Latest KnessetTerm.start knessetTerms ref t

theorem knessetTerms_succ : ∀ t ∈ knessetTerms, ∀ t' ∈ knessetTerms, t.stop = some t'.start →
    t'.number = t.number + 1 := by decide

theorem knessetTerms_start_inj : ∀ t ∈ knessetTerms, ∀ t' ∈ knessetTerms, t.start = t'.start →
    t = t' := by decide

/-- Only the first term has no predecessor. -/
theorem termScope_pred : ∀ t ∈ knessetTerms, 1 < t.number → (termScope (t.number - 1)).isSome := by
  decide +kernel

theorem InForce.unique {t t' : KnessetTerm} (h : InForce ref t) (h' : InForce ref t') : t = t' :=
  knessetTerms_start_inj t h.mem t' h'.mem
    (le_antisymm (h'.latest t h.mem h.started) (h.latest t' h'.mem h'.started))

/-- Two terms have two scopes. -/
theorem termScope_number {n n' : ℕ} {scope : TimeScope} (h : termScope n = some scope)
    (h' : termScope n' = some scope) : n = n' := by
  have hstarts : ∀ t ∈ knessetTerms, ∀ t' ∈ knessetTerms, t.start.dayStart = t'.start.dayStart →
      t.number = t'.number := by decide +kernel
  unfold termScope termByNumber at h h'
  obtain ⟨t, ht, rfl⟩ := Option.map_eq_some_iff.1 h
  obtain ⟨t', ht', heq⟩ := Option.map_eq_some_iff.1 h'
  have hstart : t'.start.dayStart = t.start.dayStart :=
    Option.some.inj (congrArg TimeScope.start heq)
  have hn : t.number = n := by simpa using List.find?_some ht
  have hn' : t'.number = n' := by simpa using List.find?_some ht'
  rw [← hn, ← hn']
  exact hstarts t (List.mem_of_find?_eq_some ht) t' (List.mem_of_find?_eq_some ht') hstart.symm

/-! ## The scan -/

/-- What the scan of `lastTermScope` finds. -/
theorem scan_cases (h : ∀ t ∈ knessetTerms, t.number = 2 → t.start ≤ ref) :
    ∃ x, lastTermScope ref = (if 1 < x.number then termScope (x.number - 1) else none) ∧
      ((InForce ref x ∧ ∀ t ∈ knessetTerms, t.start ≠ ref) ∨
        ∃ y, y.start = ref ∧ y.number = x.number + 1 ∧ InForce ref y) := by
  have hfirst : (⟨1949, 2, 14⟩ : CivilDate) < ref :=
    lt_of_lt_of_le (by rw [CivilDate.lt_def]; decide) (h ⟨2, ⟨1951, 8, 20⟩, some ⟨1955, 8, 15⟩⟩
      (by decide) rfl)
  have hp : ∀ t : KnessetTerm, (t.start.le ref && ref.le (t.stop.getD ref)) = true ↔
      Within t.start t.stop ref := by
    intro t
    rw [Bool.and_eq_true, CivilDate.le_iff, CivilDate.le_iff]
    refine and_congr_right fun _ => ?_
    cases t.stop with
    | none => exact iff_of_true le_rfl fun b hb => absurd hb (Option.not_mem_none b)
    | some e => exact ⟨fun hle b hb => Option.some.inj hb ▸ hle, fun hall => hall e rfl⟩
  obtain ⟨x, hx, hcases⟩ := find?_relay hp knessetTerms_relay (by decide) hfirst.le
  have hscan : lastTermScope ref = if 1 < x.number then termScope (x.number - 1) else none := by
    unfold lastTermScope
    rw [show knessetTerms.find? (fun t => t.start.le ref && ref.le (t.stop.getD ref)) = some x from hx]
  refine ⟨x, hscan, hcases.imp ?_ ?_⟩
  · rintro ⟨hlatest, hne⟩
    refine ⟨hlatest, fun t ht => ?_⟩
    rcases List.mem_cons.1 ht with rfl | ht
    · exact hfirst.ne
    · exact hne t ht
  · rintro ⟨y, hy, hyt, hxt, hxmem, hlatest⟩
    exact ⟨y, hyt, knessetTerms_succ x hxmem y (List.mem_cons_of_mem _ hy) (hyt ▸ hxt), hlatest⟩

/-! ## Phrases -/

/-- The only time cue of a text is a "last term" expression. -/
structure OnlyLastTerm (U : Unicode) (text : List Char) : Prop where
  cue : (heLastTerm.search text).isSome ∨ ((enLastTerm U).search text).isSome
  noDay : isoDate.matchAt [] text = none
  noMonth : heMonth.search text = none
  noHeTerm : heTerm.search text = none
  noEnTerm : enTerm.search text = none
  noLastYear : heLastYear.search text = none ∧ (enLastYear U).search text = none
  noYear : yearPattern.search text = none

theorem enLast_nil (U : Unicode) (w : String) : (enLast U w).search [] = none := rfl

theorem OnlyLastTerm.normalize (h : OnlyLastTerm U (strip phrase).toList) (ref : CivilDate) :
    normalizeTimeScope U ref (some phrase) = (lastTermScope ref).getD unknownScope := by
  have hne : (strip phrase).toList ≠ [] := by
    intro hnil
    have hcue := h.cue
    rw [hnil, enLastTerm, enLast_nil] at hcue
    rcases hcue with hc | hc <;> cases hc
  have hphrase : phrase ≠ "" := by
    rintro rfl
    exact hne rfl
  have hcue : ((heLastTerm.search (strip phrase).toList).isSome ||
      ((enLastTerm U).search (strip phrase).toList).isSome) = true := by
    rw [Bool.or_eq_true]
    exact h.cue
  unfold normalizeTimeScope
  rw [orNone_isSome hphrase]
  dsimp only
  rw [if_neg hne]
  unfold scopeOfText
  rw [h.noDay, h.noMonth, h.noHeTerm, h.noEnTerm, h.noLastYear.1, h.noLastYear.2, hcue, h.noYear]
  cases lastTermScope ref <;> rfl

/-- "Last term" is read as the predecessor of the term in force. -/
def LastTermLaw (U : Unicode) (ref : CivilDate) (phrase : String) : Prop :=
  ∀ t, InForce ref t → termScope (t.number - 1) = some (normalizeTimeScope U ref (some phrase))

/-- **When "last term" is the predecessor of the term in force**: unless the reference date is the first
day of a term. -/
theorem last_term_iff (U : Unicode) (ref : CivilDate) (phrase : String)
    (hsecond : ∀ t ∈ knessetTerms, t.number = 2 → t.start ≤ ref)
    (honly : OnlyLastTerm U (strip phrase).toList) :
    LastTermLaw U ref phrase ↔ ∀ t ∈ knessetTerms, t.start ≠ ref := by
  obtain ⟨x, hscan, hcases⟩ := scan_cases hsecond
  unfold LastTermLaw
  rw [honly.normalize, hscan]
  constructor
  · intro hlaw
    rcases hcases with ⟨-, hne⟩ | ⟨y, hy, hnumber, hforce⟩
    · exact hne
    have hread := hlaw y hforce
    rw [hnumber, Nat.add_sub_cancel] at hread
    exfalso
    split at hread
    · -- the outgoing term's predecessor is not the outgoing term
      rename_i hlt
      cases hpred : termScope (x.number - 1) with
      | none =>
        rw [hpred] at hread
        have hunknown : termScope x.number = some unknownScope := hread
        unfold termScope at hunknown
        obtain ⟨t, -, ht⟩ := Option.map_eq_some_iff.1 hunknown
        cases congrArg TimeScope.start ht
      | some scope =>
        rw [hpred] at hread
        have heq := termScope_number hread hpred
        omega
    · have hunknown : termScope x.number = some unknownScope := hread
      unfold termScope at hunknown
      obtain ⟨t, -, ht⟩ := Option.map_eq_some_iff.1 hunknown
      cases congrArg TimeScope.start ht
  · intro hne t ht
    rcases hcases with ⟨hforce, -⟩ | ⟨y, hy, -, hforce⟩
    · obtain rfl := ht.unique hforce
      have hlt : 1 < t.number := by
        by_contra hle
        have hall : ∀ t ∈ knessetTerms, ¬1 < t.number →
            t.start < (⟨1951, 8, 20⟩ : CivilDate) := by
          simp only [CivilDate.lt_def]
          decide
        have hearlier := hall t ht.mem hle
        have hlatest := ht.latest ⟨2, ⟨1951, 8, 20⟩, some ⟨1955, 8, 15⟩⟩ (by decide)
          (hsecond ⟨2, ⟨1951, 8, 20⟩, some ⟨1955, 8, 15⟩⟩ (by decide) rfl)
        exact absurd hearlier hlatest.not_gt
      rw [if_pos hlt]
      obtain ⟨scope, hscope⟩ := Option.isSome_iff_exists.1 (termScope_pred t ht.mem hlt)
      rw [hscope]
      rfl
    · exact absurd hy (hne y hforce.mem)

/-! ## The day of a handover -/

theorem lastTerm_only : OnlyLastTerm asciiWords (strip "last term").toList := by
  have hall : ((enLastTerm asciiWords).search (strip "last term").toList).isSome = true ∧
      (isoDate.matchAt [] (strip "last term").toList).isNone = true ∧
      (heMonth.search (strip "last term").toList).isNone = true ∧
      (heTerm.search (strip "last term").toList).isNone = true ∧
      (enTerm.search (strip "last term").toList).isNone = true ∧
      (heLastYear.search (strip "last term").toList).isNone = true ∧
      ((enLastYear asciiWords).search (strip "last term").toList).isNone = true ∧
      (yearPattern.search (strip "last term").toList).isNone = true := by
    decide +kernel
  simp only [Option.isNone_iff_eq_none] at hall
  obtain ⟨hcue, hday, hmonth, hhe, hen, hheYear, henYear, hyear⟩ := hall
  exact ⟨Or.inr hcue, hday, hmonth, hhe, hen, ⟨hheYear, henYear⟩, hyear⟩

theorem last_term_2024 : LastTermLaw asciiWords ⟨2024, 1, 1⟩ "last term" ↔
    ∀ t ∈ knessetTerms, t.start ≠ ⟨2024, 1, 1⟩ :=
  last_term_iff asciiWords ⟨2024, 1, 1⟩ "last term" (by simp only [CivilDate.le_def]; decide)
    lastTerm_only

/-- **On the first day of the 25th term** the 23rd is read, not the 24th. -/
theorem last_term_handover : ¬LastTermLaw asciiWords ⟨2022, 11, 15⟩ "last term" := by
  intro hlaw
  have hforce : InForce ⟨2022, 11, 15⟩ ⟨25, ⟨2022, 11, 15⟩, none⟩ := by
    refine ⟨by decide, le_rfl, ?_⟩
    simp only [CivilDate.le_def]
    decide
  have hread := hlaw _ hforce
  rw [lastTerm_only.normalize] at hread
  revert hread
  decide +kernel

end CivicProof
