import Mathlib.Data.List.Sort
import Mathlib.Data.Multiset.AddSub
import Mathlib.Data.Multiset.Basic
import Mathlib.Data.Multiset.Filter
import Mathlib.Order.WithBot

/-!
# Query answers

What a query returns of the rows its pattern matches: `ORDER BY` fixes the order up to ties,
`LIMIT` keeps the first rows.

* `Answer.coe_of_card_le`: within the limit every row is returned.
* `exists_answer_omits`: beyond it, among ties, any row may be missing.
* `secured_iff`: when each answer contains a row with a property.
-/

namespace CivicProof.PropGraph

variable {α : Type} {before : α → α → Prop} {n : ℕ} {rows : Multiset α} {l out : List α}

/-- The rows in an order that `ORDER BY` allows. -/
structure Ordered (before : α → α → Prop) (rows : Multiset α) (l : List α) : Prop where
  rows : (l : Multiset α) = rows
  order : l.Pairwise before

/-- `ORDER BY .. LIMIT n`. -/
def Answer (before : α → α → Prop) (n : ℕ) (rows : Multiset α) (out : List α) : Prop :=
  ∃ l, Ordered before rows l ∧ out = l.take n

/-- Rows that no `ORDER BY` orders. -/
def unordered (_ _ : α) : Prop := True

section Keys

variable {β : Type} [LinearOrder β]

/-- `ORDER BY key ASC`: null comes last. -/
def ascending (key : α → WithTop β) (a b : α) : Prop := key a ≤ key b

/-- `ORDER BY key DESC`: null comes first. -/
def descending (key : α → WithTop β) (a b : α) : Prop := key b ≤ key a

instance (key : α → WithTop β) : DecidableRel (ascending key) :=
  fun a b => inferInstanceAs (Decidable (key a ≤ key b))

instance (key : α → WithTop β) : DecidableRel (descending key) :=
  fun a b => inferInstanceAs (Decidable (key b ≤ key a))

instance (key : α → WithTop β) : Std.Total (ascending key) := ⟨fun a b => le_total (key a) (key b)⟩

instance (key : α → WithTop β) : Std.Total (descending key) := ⟨fun a b => le_total (key b) (key a)⟩

instance (key : α → WithTop β) : IsTrans α (ascending key) := ⟨fun _ _ _ => le_trans⟩

instance (key : α → WithTop β) : IsTrans α (descending key) := ⟨fun _ _ _ h h' => le_trans h' h⟩

end Keys

/-- `UNION`: the rows of two branches, each once. -/
structure IsUnion (a b out : List α) : Prop where
  nodup : out.Nodup
  mem_iff : ∀ x, x ∈ out ↔ x ∈ a ∨ x ∈ b

theorem Ordered.mem_iff (h : Ordered before rows l) {x : α} : x ∈ l ↔ x ∈ rows := by
  rw [← h.rows, Multiset.mem_coe]

theorem Answer.mem_rows (h : Answer before n rows out) {x : α} (hx : x ∈ out) : x ∈ rows := by
  obtain ⟨l, hl, rfl⟩ := h
  exact hl.mem_iff.1 (List.mem_of_mem_take hx)

theorem Answer.eq_nil (h : Answer before n 0 out) : out = [] :=
  List.eq_nil_iff_forall_not_mem.2 fun _ hx => Multiset.notMem_zero _ (h.mem_rows hx)

/-- **Within the limit** a query returns every row. -/
theorem Answer.coe_of_card_le (h : Answer before n rows out) (hn : rows.card ≤ n) :
    (out : Multiset α) = rows := by
  obtain ⟨l, hl, rfl⟩ := h
  rw [← hl.rows, Multiset.coe_card] at hn
  rw [List.take_of_length_le hn, hl.rows]

/-- A row that is matched is returned, or one that comes before it. -/
theorem Answer.exists_before (h : Answer before (n + 1) rows out) {x : α} (hx : x ∈ rows) :
    ∃ y ∈ out, y = x ∨ before y x := by
  obtain ⟨l, hl, rfl⟩ := h
  have hxl := hl.mem_iff.2 hx
  have horder := hl.order
  cases l with
  | nil => exact absurd hxl List.not_mem_nil
  | cons y l =>
    refine ⟨y, List.mem_cons_self, ?_⟩
    rcases List.mem_cons.1 hxl with rfl | hxl
    · exact Or.inl rfl
    · exact Or.inr (List.rel_of_pairwise_cons horder hxl)

theorem exists_ordered [DecidableRel before] [Std.Total before] [IsTrans α before]
    (rows : Multiset α) : ∃ l, Ordered before rows l := by
  refine ⟨rows.toList.insertionSort before, ?_, List.pairwise_insertionSort before _⟩
  rw [Multiset.coe_eq_coe.2 (List.perm_insertionSort before _), Multiset.coe_toList]

theorem exists_answer [DecidableRel before] [Std.Total before] [IsTrans α before] (n : ℕ)
    (rows : Multiset α) : ∃ out, Answer before n rows out :=
  (exists_ordered rows).imp' (List.take n) fun l hl => ⟨l, hl, rfl⟩

/-- **Beyond the limit** a row that ties with all the others may be missing. -/
theorem exists_answer_omits (hties : ∀ x ∈ rows, ∀ y ∈ rows, before x y) {x : α}
    (hx : x ∈ rows) (hnodup : rows.Nodup) (hn : n < rows.card) :
    ∃ out, Answer before n rows out ∧ x ∉ out := by
  obtain ⟨rest, hrest⟩ := Multiset.exists_cons_of_mem hx
  -- the row comes last
  have hcoe : ((rest.toList ++ [x] : List α) : Multiset α) = rows := by
    rw [hrest, ← Multiset.coe_add, Multiset.coe_toList, Multiset.coe_singleton,
      ← Multiset.singleton_add, Multiset.add_comm]
  have hpair : (rest.toList ++ [x]).Pairwise before := by
    refine List.pairwise_iff_forall_sublist.2 fun {a b} hab => ?_
    have hmem : ∀ y ∈ [a, b], y ∈ rows := by
      intro y hy
      rw [← hcoe]
      exact hab.subset hy
    exact hties a (hmem a (by simp)) b (hmem b (by simp))
  refine ⟨_, ⟨_, ⟨hcoe, hpair⟩, rfl⟩, fun hout => ?_⟩
  have hlen : n ≤ rest.toList.length := by
    rw [hrest, Multiset.card_cons] at hn
    rw [Multiset.length_toList]
    omega
  rw [List.take_append_of_le_length hlen] at hout
  rw [hrest, Multiset.nodup_cons] at hnodup
  exact hnodup.1 (Multiset.mem_toList.1 (List.mem_of_mem_take hout))

/-! ## Rows that each answer contains -/

section Secured

variable {β : Type} [LinearOrder β] {key : α → WithTop β} {p : α → Prop}

theorem Answer.ne_nil (h : Answer before (n + 1) rows out) (hrows : rows ≠ 0) : out ≠ [] := by
  obtain ⟨x, hx⟩ := Multiset.exists_mem_of_ne_zero hrows
  obtain ⟨y, hy, -⟩ := h.exists_before hx
  exact List.ne_nil_of_mem hy

/-- `ORDER BY key DESC`, the rows with the property last among those that tie. -/
def tiesLast (key : α → WithTop β) (p : α → Prop) (a b : α) : Prop :=
  key b < key a ∨ (key a = key b ∧ (p a → p b))

instance [DecidablePred p] : DecidableRel (tiesLast key p) :=
  fun a b => inferInstanceAs (Decidable (key b < key a ∨ (key a = key b ∧ (p a → p b))))

instance : Std.Total (tiesLast key p) where
  total a b := by
    rcases lt_trichotomy (key a) (key b) with h | h | h
    · exact Or.inr (Or.inl h)
    · by_cases hb : p b
      · exact Or.inl (Or.inr ⟨h, fun _ => hb⟩)
      · exact Or.inr (Or.inr ⟨h.symm, fun hb' => absurd hb' hb⟩)
    · exact Or.inl (Or.inl h)

instance : IsTrans α (tiesLast key p) where
  trans a b c := by
    rintro (hab | ⟨hab, hp⟩) (hbc | ⟨hbc, hp'⟩)
    · exact Or.inl (hbc.trans hab)
    · exact Or.inl (hbc ▸ hab)
    · exact Or.inl (hab ▸ hbc)
    · exact Or.inr ⟨hab.trans hbc, fun ha => hp' (hp ha)⟩

theorem tiesLast.descending {a b : α} (h : tiesLast key p a b) : descending key a b := by
  rcases h with h | ⟨h, -⟩
  · exact h.le
  · exact h.ge

variable [DecidablePred p]

/-- Fewer than `n` rows without the property may come before all the rows with it. -/
def Secured (key : α → WithTop β) (n : ℕ) (rows : Multiset α) (p : α → Prop) [DecidablePred p] :
    Prop :=
  (rows.filter fun x => ¬p x ∧ ∀ y ∈ rows, p y → key y ≤ key x).card < n

instance : Decidable (Secured key n rows p) := inferInstanceAs (Decidable (_ < _))

/-- **A row with the property is in each answer** iff the rows that may come before do not fill
it. -/
theorem secured_iff (hp : ∃ x ∈ rows, p x) : Secured key n rows p ↔
    ∀ out, Answer (descending key) n rows out → ∃ x ∈ out, p x := by
  obtain ⟨x₀, hx₀, hpx₀⟩ := hp
  constructor
  · rintro hfew out ⟨l, hl, rfl⟩
    by_contra hnone
    push Not at hnone
    have hlater : ∀ y ∈ rows, p y → y ∈ l.drop n := by
      intro y hy hpy
      have hmem := hl.mem_iff.2 hy
      rw [← List.take_append_drop n l, List.mem_append] at hmem
      exact hmem.resolve_left fun h => hnone y h hpy
    have horder := hl.order
    rw [← List.take_append_drop n l, List.pairwise_append] at horder
    have hlen : n < l.length := by
      have hpos := List.length_pos_of_mem (hlater x₀ hx₀ hpx₀)
      rw [List.length_drop] at hpos
      omega
    -- all the rows returned come before
    have hall : ∀ x ∈ ((l.take n : List α) : Multiset α),
        ¬p x ∧ ∀ y ∈ rows, p y → key y ≤ key x :=
      fun x hx => ⟨hnone x hx, fun y hy hpy => horder.2.2 x hx y (hlater y hy hpy)⟩
    have hle : ((l.take n : List α) : Multiset α) ≤ rows := by
      rw [← hl.rows]
      exact Multiset.coe_le.2 (List.take_sublist n l).subperm
    have hcard := Multiset.card_le_card (Multiset.le_filter.2 ⟨hle, hall⟩)
    rw [Multiset.coe_card, List.length_take, Nat.min_eq_left hlen.le] at hcard
    exact absurd hfew (not_lt.2 hcard)
  · intro hevery
    obtain ⟨l, hl⟩ : ∃ l, Ordered (tiesLast key p) rows l := exists_ordered rows
    obtain ⟨x, hx, hpx⟩ := hevery _ ⟨l, ⟨hl.rows, hl.order.imp tiesLast.descending⟩, rfl⟩
    obtain ⟨s, t, hst⟩ := List.append_of_mem hx
    have hlen : s.length < n := by
      have hle := List.length_take_le n l
      rw [hst, List.length_append, List.length_cons] at hle
      omega
    have hsplit : l = s ++ x :: (t ++ l.drop n) := by
      rw [← List.cons_append, ← List.append_assoc, ← hst, List.take_append_drop]
    have horder := hl.order
    rw [hsplit, List.pairwise_append, List.pairwise_cons] at horder
    have hrest : ∀ y ∈ x :: (t ++ l.drop n), ¬(¬p y ∧ ∀ z ∈ rows, p z → key z ≤ key y) := by
      rintro y hy ⟨hpy, hfirst⟩
      have hxrows : x ∈ rows := hl.mem_iff.1 (List.mem_of_mem_take hx)
      rcases List.mem_cons.1 hy with rfl | hy
      · exact hpy hpx
      · rcases horder.2.1.1 y hy with hlt | ⟨-, himp⟩
        · exact absurd hlt (not_lt.2 (hfirst x hxrows hpx))
        · exact hpy (himp hpx)
    have hcount : (l.filter fun y => ¬p y ∧ ∀ z ∈ rows, p z → key z ≤ key y).length ≤ s.length := by
      have hnone : (x :: (t ++ l.drop n)).filter
          (fun y => ¬p y ∧ ∀ z ∈ rows, p z → key z ≤ key y) = [] :=
        List.filter_eq_nil_iff.2 fun y hy h => hrest y hy (of_decide_eq_true h)
      rw [hsplit, List.filter_append, hnone, List.append_nil]
      exact List.length_filter_le _ _
    unfold Secured
    rw [← hl.rows, Multiset.filter_coe, Multiset.coe_card, hl.rows]
    exact lt_of_le_of_lt hcount hlen

end Secured

end CivicProof.PropGraph
