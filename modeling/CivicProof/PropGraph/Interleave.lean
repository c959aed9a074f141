import CivicProof.PropGraph.Graph
import Mathlib.Data.Fintype.Basic

/-!
# Interleavings

Lists from several sources merged into one, each source's own order kept.

* `Interleaves.getLast?_eq`: when the sources agree on the last value each gives, every
  interleaving ends with it.
* `exists_interleaving_last`, `exists_interleaving_at`: interleavings that show a disagreement.
-/

namespace CivicProof.PropGraph

variable {A X V : Type} [DecidableEq A]

/-- The part of a merged list that one source contributes. -/
def ofSource (a : A) (l : List (A × X)) : List X :=
  l.filterMap fun e => if e.1 = a then some e.2 else none

/-- A list that merges the lists of all sources, each in its own order. -/
def Interleaves (feeds : A → List X) (l : List (A × X)) : Prop := ∀ a, ofSource a l = feeds a

/-- The entries of one source. -/
def tagged (a : A) (xs : List X) : List (A × X) := xs.map fun x => (a, x)

@[simp] theorem ofSource_append (a : A) (l l' : List (A × X)) :
    ofSource a (l ++ l') = ofSource a l ++ ofSource a l' := List.filterMap_append

@[simp] theorem ofSource_tagged_self (a : A) (xs : List X) : ofSource a (tagged a xs) = xs := by
  simp [ofSource, tagged, List.filterMap_map]

theorem ofSource_tagged_of_ne {a b : A} (h : b ≠ a) (xs : List X) :
    ofSource a (tagged b xs) = [] := by
  simp [ofSource, tagged, List.filterMap_map, h]

theorem mem_ofSource {a : A} {x : X} {l : List (A × X)} : x ∈ ofSource a l ↔ (a, x) ∈ l := by
  unfold ofSource
  rw [List.mem_filterMap]
  constructor
  · rintro ⟨⟨b, y⟩, hmem, hy⟩
    by_cases hb : b = a
    · rw [if_pos hb] at hy
      cases hy
      exact hb ▸ hmem
    · rw [if_neg hb] at hy
      cases hy
  · exact fun h => ⟨(a, x), h, if_pos rfl⟩

theorem Interleaves.mem_iff {feeds : A → List X} {l : List (A × X)} (h : Interleaves feeds l)
    {a : A} {x : X} : (a, x) ∈ l ↔ x ∈ feeds a := by
  rw [← h a, mem_ofSource]

/-! ## The last value -/

/-- The last value of a merged list is the last value of one of its sources. -/
theorem lastValue_source {val : X → Option V} {l : List (A × X)} {v : V}
    (h : lastValue val (l.map (·.2)) = some v) : ∃ a, lastValue val (ofSource a l) = some v := by
  induction l using List.reverseRecOn with
  | nil => cases h
  | append_singleton l e ih =>
    obtain ⟨a, x⟩ := e
    rw [List.map_append, lastValue_append] at h
    change (lastValue val [x]).or _ = some v at h
    have hself : ofSource a (l ++ [(a, x)]) = ofSource a l ++ [x] := by
      rw [ofSource_append]
      exact congrArg _ (ofSource_tagged_self a [x])
    cases hx : lastValue val [x] with
    | some u =>
      rw [hx] at h
      refine ⟨a, ?_⟩
      rw [hself, lastValue_append, hx]
      exact h
    | none =>
      rw [hx, Option.none_or] at h
      obtain ⟨b, hb⟩ := ih h
      refine ⟨b, ?_⟩
      by_cases hab : a = b
      · subst hab
        rw [hself, lastValue_append, hx, hb]
        rfl
      · have hother : ofSource b (l ++ [(a, x)]) = ofSource b l := by
          rw [ofSource_append]
          exact (congrArg _ (ofSource_tagged_of_ne hab [x])).trans (List.append_nil _)
        rwa [hother]

/-- **Sources that agree on their last values leave one last value**, however they are
interleaved. -/
theorem Interleaves.getLast?_eq {feeds : A → List X} {val : X → Option V}
    (hagree : ∀ a b u v, lastValue val (feeds a) = some u → lastValue val (feeds b) = some v → u = v)
    {l l' : List (A × X)} (h : Interleaves feeds l) (h' : Interleaves feeds l') :
    lastValue val (l.map (·.2)) = lastValue val (l'.map (·.2)) := by
  have hnone : ∀ {l l' : List (A × X)}, Interleaves feeds l → Interleaves feeds l' →
      lastValue val (l.map (·.2)) = none → lastValue val (l'.map (·.2)) = none := by
    intro l l' h h' hl
    rw [lastValue_eq_none] at hl ⊢
    intro x hx
    obtain ⟨⟨a, y⟩, hy, rfl⟩ := List.mem_map.1 hx
    exact hl _ (List.mem_map.2 ⟨(a, y), h.mem_iff.2 (h'.mem_iff.1 hy), rfl⟩)
  cases hl : lastValue val (l.map (·.2)) with
  | none => exact (hnone h h' hl).symm
  | some u =>
    cases hl' : lastValue val (l'.map (·.2)) with
    | none => rw [hnone h' h hl'] at hl; cases hl
    | some v =>
      obtain ⟨a, ha⟩ := lastValue_source hl
      obtain ⟨b, hb⟩ := lastValue_source hl'
      rw [h a] at ha
      rw [h' b] at hb
      rw [hagree a b u v ha hb]

/-! ## Interleavings that exist -/

/-- The sources of a list one after the other. -/
def inTurn (order : List A) (feeds : A → List X) : List (A × X) :=
  order.flatMap fun a => tagged a (feeds a)

theorem ofSource_inTurn {order : List A} (hnodup : order.Nodup) (feeds : A → List X) (a : A) :
    ofSource a (inTurn order feeds) = if a ∈ order then feeds a else [] := by
  induction order with
  | nil => rfl
  | cons b order ih =>
    obtain ⟨hb, hrest⟩ := List.nodup_cons.1 hnodup
    change ofSource a (tagged b (feeds b) ++ inTurn order feeds) = _
    rw [ofSource_append, ih hrest]
    by_cases hab : b = a
    · subst hab
      rw [ofSource_tagged_self, if_neg hb, List.append_nil, if_pos List.mem_cons_self]
    · rw [ofSource_tagged_of_ne hab, List.nil_append]
      simp [Ne.symm hab]

variable [Fintype A]

/-- A source can come last. -/
theorem exists_interleaving_last (feeds : A → List X) (a : A) :
    ∃ l, Interleaves feeds (l ++ tagged a (feeds a)) := by
  refine ⟨inTurn (Finset.univ.erase a).toList feeds, fun b => ?_⟩
  rw [ofSource_append, ofSource_inTurn (Finset.nodup_toList _)]
  by_cases hab : a = b
  · subst hab
    simp
  · rw [ofSource_tagged_of_ne hab]
    simp [Ne.symm hab]

/-- An entry of one source can come right after an entry of another. -/
theorem exists_interleaving_at {feeds : A → List X} {a c : A} (hac : a ≠ c) {x y : X}
    {p q p' q' : List X} (ha : feeds a = p ++ x :: q) (hc : feeds c = p' ++ y :: q') :
    ∃ l, Interleaves feeds (tagged a p ++ (tagged c p' ++ [(c, y)]) ++ (a, x) :: l) := by
  refine ⟨tagged a q ++ tagged c q' ++ inTurn ((Finset.univ.erase a).erase c).toList feeds,
    fun b => ?_⟩
  have hx : ∀ l, (a, x) :: l = tagged a [x] ++ l := fun _ => rfl
  have hy : [(c, y)] = tagged c [y] := rfl
  rw [hx, hy]
  simp only [ofSource_append]
  rw [ofSource_inTurn (Finset.nodup_toList _)]
  by_cases hab : a = b
  · subst hab
    simp [ofSource_tagged_of_ne (Ne.symm hac), ha]
  · by_cases hcb : c = b
    · subst hcb
      simp [ofSource_tagged_of_ne hac, hc]
    · simp [ofSource_tagged_of_ne hab, ofSource_tagged_of_ne hcb, Ne.symm hab, Ne.symm hcb]

/-! ## Interleaved statements -/

section Statements

variable {L T K F : Type} [DecidableEq L] [DecidableEq T] [DecidableEq K] [DecidableEq F]

omit [Fintype A] in
/-- Lists of merges that find their endpoints still do when interleaved. -/
theorem closed_of_sources {P : L × K → Prop} {l : List (A × Stmt L T K F V)}
    (h : ∀ a, Closed P (ofSource a l)) : Closed P (l.map (·.2)) := by
  induction l generalizing P with
  | nil => trivial
  | cons e l ih =>
    obtain ⟨a, s⟩ := e
    have hself : ofSource a ((a, s) :: l) = s :: ofSource a l := by
      change ofSource a (tagged a [s] ++ l) = _
      rw [ofSource_append, ofSource_tagged_self]
      rfl
    have ha := h a
    rw [hself] at ha
    refine ⟨ha.1, ih fun b => ?_⟩
    by_cases hab : a = b
    · exact hab ▸ ha.2
    · have hother : ofSource b ((a, s) :: l) = ofSource b l := by
        change ofSource b (tagged a [s] ++ l) = _
        rw [ofSource_append, ofSource_tagged_of_ne hab, List.nil_append]
      have hb := h b
      rw [hother] at hb
      exact hb.mono fun n => Or.inl

end Statements

end CivicProof.PropGraph
