import Mathlib.Order.Max
import Mathlib.Order.Lattice

/-!
# Intervals with an open end

`Span`: the points from a start on, up to an end or without one. `InScope`: the points
between two bounds, either of which may be missing.

* `Span.meets_iff`: a span meets a scope when neither ends before the other starts.
* `Span.within_iff`: a span lies in another interval when its two ends do.
-/

namespace CivicProof.TimeSpan

variable {α : Type} [LinearOrder α]

/-- The points from `start` to `stop`, or from `start` on. -/
def Within (start : α) (stop : Option α) (t : α) : Prop := start ≤ t ∧ ∀ b ∈ stop, t ≤ b

/-- The points between two bounds. -/
def InScope (lo hi : Option α) (t : α) : Prop := (∀ a ∈ lo, a ≤ t) ∧ ∀ b ∈ hi, t ≤ b

/-- Without bounds, every point is in scope. -/
theorem inScope_none (t : α) : InScope none none t := by simp [InScope]

/-- Neither the interval nor the scope ends before the other starts. -/
def Overlaps (lo hi : Option α) (start : α) (stop : Option α) : Prop :=
  (∀ a ∈ lo, ∀ b ∈ stop, a ≤ b) ∧ ∀ b ∈ hi, start ≤ b

/-- An interval that does not end before it starts. -/
structure Span (α : Type) [LinearOrder α] where
  start : α
  stop : Option α
  ordered : ∀ b ∈ stop, start ≤ b

instance : Membership α (Span α) := ⟨fun s t => Within s.start s.stop t⟩

theorem Span.start_mem (s : Span α) : s.start ∈ s := ⟨le_rfl, s.ordered⟩

theorem Span.stop_mem {s : Span α} {b : α} (h : s.stop = some b) : b ∈ s := by
  refine ⟨s.ordered b h, fun c hc => ?_⟩
  rw [h] at hc
  exact (Option.some.inj hc).le

/-- A point in common keeps an interval and a scope from passing each other. -/
theorem overlaps_of_mem {lo hi : Option α} {start : α} {stop : Option α} {t : α}
    (h : Within start stop t) (ht : InScope lo hi t) : Overlaps lo hi start stop :=
  ⟨fun a ha b hb => (ht.1 a ha).trans (h.2 b hb), fun b hb => h.1.trans (ht.2 b hb)⟩

/-- **A span meets a scope** when neither ends before the other starts. -/
theorem Span.meets_iff (s : Span α) {lo hi : Option α} (hscope : ∀ a ∈ lo, ∀ b ∈ hi, a ≤ b) :
    (∃ t ∈ s, InScope lo hi t) ↔ Overlaps lo hi s.start s.stop := by
  constructor
  · rintro ⟨t, hs, ht⟩
    exact overlaps_of_mem hs ht
  · rintro ⟨hlo, hhi⟩
    cases hl : lo with
    | none => exact ⟨s.start, s.start_mem, nofun, hhi⟩
    | some a =>
      rw [hl] at hlo hscope
      -- the later of the two starts
      refine ⟨max a s.start, ⟨le_max_right .., fun b hb => ?_⟩, fun a' ha' => ?_, fun b hb => ?_⟩
      · exact max_le (hlo a rfl b hb) (s.ordered b hb)
      · exact (Option.some.inj ha') ▸ le_max_left ..
      · exact max_le (hscope a rfl b hb) (hhi b hb)

/-- **A span lies in an interval** when it starts no earlier and ends no later. -/
theorem Span.within_iff [NoMaxOrder α] (s : Span α) {start : α} {stop : Option α} :
    (∀ t ∈ s, Within start stop t) ↔ start ≤ s.start ∧ ∀ b ∈ stop, ∃ c ∈ s.stop, c ≤ b := by
  constructor
  · intro h
    refine ⟨(h _ s.start_mem).1, fun b hb => ?_⟩
    cases hc : s.stop with
    | some c => exact ⟨c, rfl, (h c (Span.stop_mem hc)).2 b hb⟩
    | none =>
      -- an open span goes past every end
      obtain ⟨t, ht⟩ := exists_gt (max b s.start)
      have hmem : t ∈ s := ⟨(le_max_right ..).trans ht.le, by simp [hc]⟩
      exact absurd ((h t hmem).2 b hb) ((le_max_left ..).trans_lt ht).not_ge
  · rintro ⟨hstart, hstop⟩ t ⟨ht, hs⟩
    refine ⟨hstart.trans ht, fun b hb => ?_⟩
    obtain ⟨c, hc, hcb⟩ := hstop b hb
    exact (hs c hc).trans hcb

/-- Every scope that meets a span overlaps an interval exactly when the span lies in it. -/
theorem Span.forall_overlaps_iff (s : Span α) {start : α} {stop : Option α} :
    (∀ lo hi, (∃ t ∈ s, InScope lo hi t) → Overlaps lo hi start stop) ↔
      ∀ t ∈ s, Within start stop t := by
  constructor
  · intro h t ht
    -- the scope of one point
    have hpoint : InScope (some t) (some t) t :=
      ⟨fun a ha => (Option.some.inj ha).ge, fun b hb => (Option.some.inj hb).le⟩
    have hover := h (some t) (some t) ⟨t, ht, hpoint⟩
    exact ⟨hover.2 t rfl, fun b hb => hover.1 t rfl b hb⟩
  · rintro h lo hi ⟨t, hs, ht⟩
    exact overlaps_of_mem (h t hs) ht

end CivicProof.TimeSpan
