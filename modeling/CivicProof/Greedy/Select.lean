import Mathlib.Data.List.Pairwise
import Mathlib.Data.List.Sort

/-!
# Greedy selection

Elements are taken in the order of a list, and kept unless they clash with one kept before. A list
that was sorted first has the preferred elements in front, equals as they stood.

* `insertionSort_stable`: a sorted list keeps the order of equals.
* `select_pairwise`: nothing kept clashes.
* `select_or_clash`: what is not kept clashes with something kept that stands before it.
-/

namespace CivicProof.Greedy

variable {α : Type}

/-! ## Stability -/

section Sorting

variable {r R : α → α → Prop} [DecidableRel r]

theorem orderedInsert_stable {a : α} {l : List α} (ha : ∀ b ∈ l, R a b)
    (hl : l.Pairwise fun x y => r y x → R x y) :
    (l.orderedInsert r a).Pairwise fun x y => r y x → R x y := by
  induction l with
  | nil => exact List.pairwise_singleton _ _
  | cons b l ih =>
    rw [List.pairwise_cons] at hl
    rw [List.orderedInsert_cons]
    split
    · exact List.pairwise_cons.2 ⟨fun y hy _ => ha y hy, List.pairwise_cons.2 hl⟩
    · rename_i hab
      refine List.pairwise_cons.2 ⟨fun y hy hyb => ?_, ih (fun c hc => ha c ?_) hl.2⟩
      · rcases (List.mem_orderedInsert r).1 hy with rfl | hy
        · exact absurd hyb hab
        · exact hl.1 y hy hyb
      · exact List.mem_cons_of_mem b hc

/-- **A stable sort**: equals stand as they stood. -/
theorem insertionSort_stable {l : List α} (h : l.Pairwise R) :
    (l.insertionSort r).Pairwise fun x y => r y x → R x y := by
  induction l with
  | nil => exact List.Pairwise.nil
  | cons a l ih =>
    rw [List.pairwise_cons] at h
    rw [List.insertionSort_cons]
    exact orderedInsert_stable (fun b hb => h.1 b ((List.mem_insertionSort r).1 hb)) (ih h.2)

/-- What precedes in a sorted list. -/
theorem insertionSort_before [Std.Total r] [IsTrans α r] {l : List α} (h : l.Pairwise R) :
    (l.insertionSort r).Pairwise fun x y => r x y ∧ (r y x → R x y) :=
  (List.pairwise_insertionSort r l).and (insertionSort_stable h)

end Sorting

/-! ## Selection -/

variable (clash : α → α → Bool)

/-- Keep an element that clashes with nothing kept before. -/
def keep (kept : List α) (a : α) : List α := if kept.any (clash a) then kept else kept ++ [a]

/-- The elements kept of a list. -/
def select (l : List α) : List α := l.foldl (keep clash) []

variable {clash}

theorem prefix_keep (kept : List α) (a : α) : kept <+: keep clash kept a := by
  unfold keep
  split
  · exact List.prefix_refl kept
  · exact List.prefix_append kept [a]

theorem prefix_foldl_keep (l kept : List α) : kept <+: l.foldl (keep clash) kept := by
  induction l generalizing kept with
  | nil => exact List.prefix_refl kept
  | cons a l ih => exact (prefix_keep kept a).trans (ih _)

theorem mem_keep {kept : List α} {a b : α} (h : b ∈ keep clash kept a) : b ∈ kept ∨ b = a := by
  unfold keep at h
  split at h
  · exact Or.inl h
  · exact (List.mem_append.1 h).imp_right List.mem_singleton.1

theorem mem_of_mem_select {l : List α} {a : α} (h : a ∈ select clash l) : a ∈ l := by
  have hfold : ∀ (l kept : List α), a ∈ l.foldl (keep clash) kept → a ∈ kept ∨ a ∈ l := by
    intro l
    induction l with
    | nil => exact fun kept h => Or.inl h
    | cons b l ih =>
      intro kept h
      rcases ih _ h with h | h
      · exact (mem_keep h).imp_right fun hab => List.mem_cons.2 (Or.inl hab)
      · exact Or.inr (List.mem_cons_of_mem b h)
  exact (hfold l [] h).resolve_left List.not_mem_nil

/-- **Nothing kept clashes** with what was kept before. -/
theorem select_pairwise (l : List α) : (select clash l).Pairwise fun a b => clash b a = false := by
  have hkeep : ∀ {kept : List α} (a : α), (kept.Pairwise fun a b => clash b a = false) →
      (keep clash kept a).Pairwise fun a b => clash b a = false := by
    intro kept a hkept
    unfold keep
    split
    · exact hkept
    · rename_i hany
      rw [Bool.not_eq_true, List.any_eq_false] at hany
      refine List.pairwise_append.2 ⟨hkept, List.pairwise_singleton _ _, fun b hb c hc => ?_⟩
      rw [List.mem_singleton.1 hc]
      exact Bool.eq_false_of_not_eq_true (hany b hb)
  have hfold : ∀ (l kept : List α), (kept.Pairwise fun a b => clash b a = false) →
      (l.foldl (keep clash) kept).Pairwise fun a b => clash b a = false := by
    intro l
    induction l with
    | nil => exact fun kept h => h
    | cons a l ih => exact fun kept h => ih _ (hkeep a h)
  exact hfold l [] List.Pairwise.nil

/-- **What is not kept clashes** with something kept that precedes it. -/
theorem select_or_clash {Q : α → α → Prop} {l : List α} (hl : l.Pairwise Q) {a : α} (ha : a ∈ l) :
    a ∈ select clash l ∨ ∃ b ∈ select clash l, clash a b = true ∧ Q b a := by
  have hfold : ∀ (l kept : List α), l.Pairwise Q → (∀ b ∈ kept, ∀ c ∈ l, Q b c) → a ∈ l →
      a ∈ l.foldl (keep clash) kept ∨
        ∃ b ∈ l.foldl (keep clash) kept, clash a b = true ∧ Q b a := by
    intro l
    induction l with
    | nil => exact fun kept _ _ ha => absurd ha List.not_mem_nil
    | cons c l ih =>
      intro kept hl hkept ha
      rw [List.pairwise_cons] at hl
      have hstays : keep clash kept c ⊆ l.foldl (keep clash) (keep clash kept c) :=
        (prefix_foldl_keep l _).subset
      rcases List.mem_cons.1 ha with rfl | ha
      · by_cases hany : kept.any (clash a) = true
        · obtain ⟨b, hb, hclash⟩ := List.any_eq_true.1 hany
          exact Or.inr ⟨b, hstays ((prefix_keep kept a).subset hb), hclash,
            hkept b hb a List.mem_cons_self⟩
        · refine Or.inl (hstays ?_)
          rw [keep, if_neg hany]
          exact List.mem_append_right _ List.mem_cons_self
      · refine ih _ hl.2 (fun b hb d hd => ?_) ha
        rcases mem_keep hb with hb | rfl
        · exact hkept b hb d (List.mem_cons_of_mem c hd)
        · exact hl.1 d hd
  exact hfold l [] hl (fun b hb => absurd hb List.not_mem_nil) ha

/-- Of two elements kept that clash there is but one. -/
theorem eq_of_clash (hsymm : ∀ a b, clash a b = clash b a) {l : List α} {a b : α}
    (ha : a ∈ select clash l) (hb : b ∈ select clash l) (h : clash a b = true) : a = b := by
  have hflip : Std.Symm fun a b => clash b a = false :=
    { symm := fun a b hab => (hsymm a b).trans hab }
  by_contra hne
  rw [(select_pairwise l).forall hb ha (Ne.symm hne)] at h
  cases h

end CivicProof.Greedy
