import CivicProof.PropGraph.Typed

/-!
# Where the data of a graph comes from

Whatever is in a graph that statements have written was said by one of them: each node and each
relationship was merged, and each value of a property was given by an item, or is its default.

* `exec_attested`: a statement adds nothing but what it says.
* `WrittenBy.attested`: so all of a written graph was said.
-/

namespace CivicProof.PropGraph

set_option linter.unusedSectionVars false

variable {L T K F V : Type}

/-- A value that a write can put in place of another. -/
def Write.Offers : Write V → V → Prop
  | .keep x, v => x = some v
  | .keepOr x d, v => x = some v ∨ d = v
  | .assign x, v => x = some v

/-- A value after a write was there before, or the write offers it. -/
theorem Write.apply_eq_some {w : Write V} {old : Option V} {v : V} (h : w.apply old = some v) :
    old = some v ∨ w.Offers v := by
  cases w with
  | keep x =>
    cases x with
    | none => exact Or.inl (by rwa [apply_keep_none] at h)
    | some x => exact Or.inr h
  | keepOr x d =>
    cases x with
    | none =>
      cases old with
      | none => exact Or.inr (Or.inr (Option.some.inj h))
      | some old => exact Or.inl h
    | some x => exact Or.inr (Or.inl h)
  | assign x => exact Or.inr h

/-- A value that an item gives to a property, on create or on match. -/
def SetItem.Offers (i : SetItem F V) (f : F) (v : V) : Prop :=
  i.field = f ∧ (i.onCreate = some v ∨ i.onMatch.Offers v)

variable [DecidableEq F]

theorem createdProp_eq_some {items : List (SetItem F V)} {f : F} {v : V}
    (h : createdProp items f = some v) : ∃ i ∈ items, i.Offers f v := by
  obtain ⟨i, hi, hv⟩ := Option.bind_eq_some_iff.1 h
  have hf := List.find?_some hi
  exact ⟨i, List.mem_of_find?_eq_some hi, of_decide_eq_true hf, Or.inl hv⟩

theorem matchWrite_eq_some {items : List (SetItem F V)} {f : F} {old : Option V} {v : V}
    (h : (matchWrite items f).apply old = some v) :
    old = some v ∨ ∃ i ∈ items, i.Offers f v := by
  unfold matchWrite at h
  cases hi : items.find? fun i => i.field = f with
  | none =>
    rw [hi] at h
    dsimp only at h
    rw [Write.apply_keep_none] at h
    exact Or.inl h
  | some i =>
    rw [hi] at h
    have hf := List.find?_some hi
    rcases Write.apply_eq_some h with hold | hoffers
    · exact Or.inl hold
    · exact Or.inr ⟨i, List.mem_of_find?_eq_some hi, of_decide_eq_true hf, Or.inr hoffers⟩

theorem mergeEntity_eq_some {items : List (SetItem F V)} {now : ℤ} {e : Option (Entity F V)}
    {f : F} {v : V} (h : (mergeEntity now items e).props f = some v) :
    propOf e f = some v ∨ ∃ i ∈ items, i.Offers f v := by
  cases e with
  | none => exact Or.inr (createdProp_eq_some h)
  | some e => exact matchWrite_eq_some h

/-! ## Statements -/

namespace Stmt

/-- The relationship that a statement merges, on its own or after an update. -/
def Joins : Stmt L T K F V → T × (L × K) × (L × K) → Prop
  | .mergeRel t a b admitted _, r => admitted = true ∧ (t, a, b) = r
  | .setAndLink n _ t b, r => (t, n, b) = r
  | .mergeNode _ _, _ => False

/-- A value that a statement gives to a property of a node. -/
def GivesNode : Stmt L T K F V → L × K → F → V → Prop
  | .mergeNode m items, n, f, v => m = n ∧ ∃ l, items = some l ∧ ∃ i ∈ l, i.Offers f v
  | .setAndLink m items _ _, n, f, v => m = n ∧ ∃ l, items = some l ∧ ∃ i ∈ l, i.Offers f v
  | .mergeRel _ _ _ _ _, _, _, _ => False

/-- A value that a statement gives to a property of a relationship. -/
def GivesRel : Stmt L T K F V → T × (L × K) × (L × K) → F → V → Prop
  | .mergeRel t a b admitted items, r, f, v =>
    admitted = true ∧ (t, a, b) = r ∧ ∃ l, items = some l ∧ ∃ i ∈ l, i.Offers f v
  | _, _, _, _ => False

/-- The node that a statement merges or sets. -/
def AtNode : Stmt L T K F V → L × K → Prop
  | .mergeNode m _, n => m = n
  | .setAndLink m _ _ _, n => m = n
  | .mergeRel _ _ _ _ _, _ => False

theorem Merges.atNode {s : Stmt L T K F V} {n : L × K} (h : s.Merges n) : s.AtNode n := by
  cases s with
  | mergeNode m items => exact h
  | mergeRel t a b admitted items => exact h
  | setAndLink m items t b => exact h.elim

theorem GivesNode.atNode {s : Stmt L T K F V} {n : L × K} {f : F} {v : V}
    (h : s.GivesNode n f v) : s.AtNode n := by
  cases s with
  | mergeNode m items => exact h.1
  | mergeRel t a b admitted items => exact h
  | setAndLink m items t b => exact h.1

end Stmt

variable [DecidableEq L] [DecidableEq T] [DecidableEq K]

/-- All that is in a graph was said by a statement. -/
structure Attested (said : Stmt L T K F V → Prop) (g : Graph L T K F V) : Prop where
  node : ∀ n ∈ g.nodes, ∃ s, said s ∧ s.Merges n
  rel : ∀ r ∈ g.rels, ∃ s, said s ∧ s.Joins r
  nodeProp : ∀ n f v, g.nodeProp n f = some v → ∃ s, said s ∧ s.GivesNode n f v
  relProp : ∀ r f v, g.relProp r f = some v → ∃ s, said s ∧ s.GivesRel r f v

variable {said : Stmt L T K F V → Prop} {g : Graph L T K F V} {s : Stmt L T K F V} {now : ℤ}

theorem Attested.putNode (hg : Attested said g) {n : L × K} {e : Entity F V}
    (hn : n ∈ g.nodes ∨ ∃ s, said s ∧ s.Merges n)
    (he : ∀ f v, e.props f = some v → g.nodeProp n f = some v ∨ ∃ s, said s ∧ s.GivesNode n f v) :
    Attested said (g.putNode n e) := by
  refine ⟨fun m hm => ?_, hg.rel, fun m f v hv => ?_, hg.relProp⟩
  · rcases Finmap.mem_insert.1 hm with rfl | hm
    · exact hn.elim (hg.node m) fun h => h
    · exact hg.node m hm
  · unfold Graph.putNode Graph.nodeProp at hv
    dsimp only at hv
    by_cases hmn : m = n
    · subst hmn
      rw [Finmap.lookup_insert] at hv
      exact (he f v hv).elim (hg.nodeProp m f v) fun h => h
    · rw [Finmap.lookup_insert_of_ne _ hmn] at hv
      exact hg.nodeProp m f v hv

theorem Attested.putRel (hg : Attested said g) {q : T × (L × K) × (L × K)}
    (hq : q.2.1 ∈ g.nodes ∧ q.2.2 ∈ g.nodes) {e : Entity F V}
    (hsaid : ∃ s, said s ∧ s.Joins q)
    (he : ∀ f v, e.props f = some v → g.relProp q f = some v ∨ ∃ s, said s ∧ s.GivesRel q f v) :
    Attested said (g.putRel q hq e) := by
  refine ⟨hg.node, fun r hr => ?_, hg.nodeProp, fun r f v hv => ?_⟩
  · rcases Finmap.mem_insert.1 hr with rfl | hr
    · exact hsaid
    · exact hg.rel r hr
  · unfold Graph.putRel Graph.relProp at hv
    dsimp only at hv
    by_cases hrq : r = q
    · subst hrq
      rw [Finmap.lookup_insert] at hv
      exact (he f v hv).elim (hg.relProp r f v) fun h => h
    · rw [Finmap.lookup_insert_of_ne _ hrq] at hv
      exact hg.relProp r f v hv

theorem Attested.setNode (hg : Attested said g) {n b : L × K} {e : Entity F V} {t : T}
    {l : List (SetItem F V)} (hn : g.nodes.lookup n = some e)
    (hs : said (.setAndLink n (some l) t b)) : Attested said (g.setNode n e l) := by
  refine hg.putNode (Or.inl (Finmap.mem_iff.2 ⟨e, hn⟩)) fun f v hv => ?_
  rcases matchWrite_eq_some hv with hold | hi
  · refine Or.inl ?_
    unfold Graph.nodeProp
    rw [hn]
    exact hold
  · exact Or.inr ⟨_, hs, rfl, l, rfl, hi⟩

/-- **A statement adds nothing but what it says.** -/
theorem exec_attested (hg : Attested said g) (hs : said s) {g' : Graph L T K F V}
    (h : exec now g s = some g') : Attested said g' := by
  cases exec_cases h with
  | node =>
    refine hg.putNode (Or.inr ⟨_, hs, rfl⟩) fun f v hv => ?_
    exact (mergeEntity_eq_some hv).imp_right fun hi => ⟨_, hs, rfl, _, rfl, hi⟩
  | rel hc =>
    refine hg.putRel hc ⟨_, hs, rfl, rfl⟩ fun f v hv => ?_
    exact (mergeEntity_eq_some hv).imp_right fun hi => ⟨_, hs, rfl, rfl, _, rfl, hi⟩
  | skipped => exact hg
  | set hn => exact hg.setNode hn hs
  | linked hn hc =>
    refine (hg.setNode hn hs).putRel hc ⟨_, hs, rfl⟩ fun f v hv => ?_
    rcases mergeEntity_eq_some hv with hold | ⟨i, hi, -⟩
    · exact Or.inl hold
    · cases hi

/-- **All that is in a written graph was said** by one of the statements that may write it. -/
theorem WrittenBy.attested (h : WrittenBy said g) : Attested said g := by
  induction h with
  | empty =>
    have hnode : ∀ n, n ∉ (∅ : Graph L T K F V).nodes := fun n => Finmap.notMem_empty
    have hrel : ∀ r, r ∉ (∅ : Graph L T K F V).rels := fun r => Finmap.notMem_empty
    exact ⟨fun n h => absurd h (hnode n), fun r h => absurd h (hrel r), nofun, nofun⟩
  | step _ hs hexec ih => exact exec_attested ih hs hexec

end CivicProof.PropGraph
