import CivicProof.TimeSpan.Scope
import Mathlib.Data.List.Chain

/-!
# Intervals that hand over

A list of intervals each of which ends where the next one starts, the last without an end. A point
where two of them meet lies in both, and a search from the front finds the earlier one.

* `find?_relay`: what the search finds, against the latest interval that has started.
-/

namespace CivicProof.TimeSpan

variable {α β : Type} [LinearOrder α] (start : β → α) (stop : β → Option α)

/-- Each interval ends where the next one starts. -/
def Relay (l : List β) : Prop := l.IsChain fun a b => start a < start b ∧ stop a = some (start b)

/-- The latest of the intervals that have started. -/
structure Latest (l : List β) (t : α) (x : β) : Prop where
  mem : x ∈ l
  started : start x ≤ t
  latest : ∀ y ∈ l, start y ≤ t → start y ≤ start x

variable {start stop}

theorem Relay.pairwise {l : List β} (h : Relay start stop l) :
    l.Pairwise fun a b => start a < start b := by
  have htrans : IsTrans β fun a b => start a < start b := ⟨fun _ _ _ hab hbc => hab.trans hbc⟩
  exact List.isChain_iff_pairwise.1 (h.imp fun _ _ h => h.1)

/-- An interval in front does not matter once a later one has started. -/
theorem Latest.cons {l : List β} {t : α} {x a : β} (h : Latest start l t x)
    (ha : start a ≤ start x) : Latest start (a :: l) t x := by
  refine ⟨List.mem_cons_of_mem a h.mem, h.started, fun y hy ht => ?_⟩
  rcases List.mem_cons.1 hy with rfl | hy
  · exact ha
  · exact h.latest y hy ht

/-- **The first interval that contains a point** is the latest one that has started, unless one starts
at the point: then it is the interval before. -/
theorem find?_relay {p : β → Bool} {t : α} (hp : ∀ b, p b = true ↔ Within (start b) (stop b) t)
    {a : β} {l : List β} (h : Relay start stop (a :: l)) (hopen : ∀ b ∈ (a :: l).getLast?, stop b = none)
    (ha : start a ≤ t) :
    ∃ x, (a :: l).find? p = some x ∧
      ((Latest start (a :: l) t x ∧ ∀ y ∈ l, start y ≠ t) ∨
        ∃ y ∈ l, start y = t ∧ stop x = some t ∧ x ∈ a :: l ∧ Latest start (a :: l) t y) := by
  induction l generalizing a with
  | nil =>
    have hin : p a = true := (hp a).2 ⟨ha, fun b hb => by rw [hopen a rfl] at hb; cases hb⟩
    refine ⟨a, List.find?_cons_of_pos hin, Or.inl ⟨⟨List.mem_cons_self, ha, ?_⟩, fun y hy => ?_⟩⟩
    · intro y hy _
      rw [List.mem_singleton.1 hy]
    · cases hy
  | cons b l ih =>
    obtain ⟨⟨hab, hstop⟩, hrest⟩ := List.isChain_cons_cons.1 h
    have hpair := Relay.pairwise h
    rw [List.pairwise_cons] at hpair
    -- the later ones start after `b`
    have hlater : ∀ y ∈ b :: l, start b ≤ start y := by
      intro y hy
      rcases List.mem_cons.1 hy with rfl | hy
      · exact le_rfl
      · exact ((List.pairwise_cons.1 hpair.2).1 y hy).le
    rcases lt_trichotomy t (start b) with ht | ht | ht
    · have hin : p a = true := (hp a).2 ⟨ha, fun e he => by
        rw [hstop] at he
        exact Option.some.inj he ▸ ht.le⟩
      have hfar : ∀ y ∈ b :: l, t < start y := fun y hy => ht.trans_le (hlater y hy)
      refine ⟨a, List.find?_cons_of_pos hin, Or.inl ⟨⟨List.mem_cons_self, ha, fun y hy hyt => ?_⟩,
        fun y hy => (hfar y hy).ne'⟩⟩
      rcases List.mem_cons.1 hy with rfl | hy
      · exact le_rfl
      · exact absurd (hfar y hy) hyt.not_gt
    · have hin : p a = true := (hp a).2 ⟨ha, fun e he => by
        rw [hstop] at he
        exact Option.some.inj he ▸ ht.le⟩
      refine ⟨a, List.find?_cons_of_pos hin, Or.inr ⟨b, List.mem_cons_self, ht.symm, ht ▸ hstop,
        List.mem_cons_self, List.mem_cons_of_mem a List.mem_cons_self, ht.ge, fun y _ hyt => ht ▸ hyt⟩⟩
    · have hout : p a = false := by
        rw [← Bool.not_eq_true, hp]
        exact fun hin => ht.not_ge (hin.2 (start b) hstop)
      obtain ⟨x, hx, hcases⟩ := ih hrest (fun e he => hopen e (by rwa [List.getLast?_cons_cons]))
        ht.le
      refine ⟨x, by rw [List.find?_cons_of_neg (Bool.eq_false_iff.1 hout), hx], ?_⟩
      rcases hcases with ⟨hlatest, hne⟩ | ⟨y, hy, hyt, hxt, hxmem, hlatest⟩
      · refine Or.inl ⟨hlatest.cons (hab.le.trans (hlater x hlatest.mem)), fun y hy => ?_⟩
        rcases List.mem_cons.1 hy with rfl | hy
        · exact ht.ne
        · exact hne y hy
      · exact Or.inr ⟨y, List.mem_cons_of_mem b hy, hyt, hxt, List.mem_cons_of_mem a hxmem,
          hlatest.cons (hab.le.trans (hlater y hlatest.mem))⟩

end CivicProof.TimeSpan
