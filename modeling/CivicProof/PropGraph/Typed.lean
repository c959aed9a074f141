import CivicProof.PropGraph.Graph

/-!
# Graph schemas

A schema says what a property of a label or of a relationship type may hold, null included, and
which labels a type joins. A graph that is written by statements that respect the schema conforms to
it, in whatever order they come, whichever are refused, and wherever the writing stops.

* `exec_conforms`: a statement that respects a schema keeps the graph in it.
* `WrittenBy.conforms`: so does every sequence of statements.
-/

namespace CivicProof.PropGraph

set_option linter.unusedSectionVars false

variable {L T K F V : Type}

/-- What the properties of nodes and relationships may hold, and what relationships join. -/
structure Schema (L T F V : Type) where
  node : L → F → Option V → Prop
  rel : T → F → Option V → Prop
  ends : T → L → L → Prop

variable {S : Schema L T F V}

/-- The properties of an entity are as they may be. -/
def EntityOK (ok : F → Option V → Prop) (e : Entity F V) : Prop := ∀ f, ok f (e.props f)

variable [DecidableEq L] [DecidableEq T] [DecidableEq K] [DecidableEq F]

/-- A graph of the schema. -/
structure Conforms (S : Schema L T F V) (g : Graph L T K F V) : Prop where
  node : ∀ n e, g.nodes.lookup n = some e → EntityOK (S.node n.1) e
  rel : ∀ r e, g.rels.lookup r = some e → S.ends r.1 r.2.1.1 r.2.2.1 ∧ EntityOK (S.rel r.1) e

/-! ## Items -/

/-- Items that leave the properties as they may be, on create and on match. -/
structure ItemsOK (ok : F → Option V → Prop) (items : List (SetItem F V)) : Prop where
  create : ∀ f, ok f (createdProp items f)
  onMatch : ∀ f old, ok f old → ok f ((matchWrite items f).apply old)

/-- An item that leaves its property as it may be. -/
structure SetItem.OK (ok : F → Option V → Prop) (i : SetItem F V) : Prop where
  create : ok i.field i.onCreate
  onMatch : ∀ old, ok i.field old → ok i.field (i.onMatch.apply old)

/-- **Items one by one**: a property that none of them writes may be null. -/
theorem ItemsOK.of_items {ok : F → Option V → Prop} {items : List (SetItem F V)}
    (hitem : ∀ i ∈ items, i.OK ok) (hrest : ∀ f, f ∉ items.map SetItem.field → ok f none) :
    ItemsOK ok items := by
  have hfind : ∀ {f : F} {i : SetItem F V}, items.find? (fun i => i.field = f) = some i →
      i ∈ items ∧ i.field = f := by
    intro f i h
    have hf := List.find?_some h
    exact ⟨List.mem_of_find?_eq_some h, of_decide_eq_true hf⟩
  constructor
  · intro f
    unfold createdProp
    cases h : items.find? fun i => i.field = f with
    | none =>
      refine hrest f fun hmem => ?_
      obtain ⟨i, hi, hf⟩ := List.mem_map.1 hmem
      exact absurd (decide_eq_true hf) (List.find?_eq_none.1 h i hi)
    | some i =>
      obtain ⟨hi, rfl⟩ := hfind h
      exact (hitem i hi).create
  · intro f old hold
    unfold matchWrite
    cases h : items.find? fun i => i.field = f with
    | none =>
      change ok f ((Write.keep none).apply old)
      rwa [Write.apply_keep_none]
    | some i =>
      obtain ⟨hi, rfl⟩ := hfind h
      exact (hitem i hi).onMatch old hold

/-- A merged entity, created or matched. -/
theorem ItemsOK.mergeEntity {ok : F → Option V → Prop} {items : List (SetItem F V)}
    (h : ItemsOK ok items) (now : ℤ) {e : Option (Entity F V)}
    (he : ∀ e', e = some e' → EntityOK ok e') : EntityOK ok (mergeEntity now items e) := by
  cases e with
  | none => exact h.create
  | some e => exact fun f => h.onMatch f _ (he e rfl f)

/-! ## Statements -/

/-- A statement that writes what the schema allows, where it does not raise. -/
def Stmt.Respects (S : Schema L T F V) : Stmt L T K F V → Prop
  | .mergeNode n items => ∀ l, items = some l → ItemsOK (S.node n.1) l
  | .mergeRel t a b admitted items => admitted = true → S.ends t a.1 b.1 ∧
      ∀ l, items = some l → ItemsOK (S.rel t) l
  | .setAndLink n items t b => (∀ l, items = some l → ∀ f old, S.node n.1 f old →
      S.node n.1 f ((matchWrite l f).apply old)) ∧ S.ends t n.1 b.1 ∧ ItemsOK (S.rel t) []

variable {g : Graph L T K F V}

theorem Conforms.putNode (hg : Conforms S g) {n : L × K} {e : Entity F V}
    (he : EntityOK (S.node n.1) e) : Conforms S (g.putNode n e) := by
  refine ⟨fun m e' hm => ?_, hg.rel⟩
  unfold Graph.putNode at hm
  dsimp only at hm
  by_cases hmn : m = n
  · subst hmn
    rw [Finmap.lookup_insert] at hm
    cases hm
    exact he
  · rw [Finmap.lookup_insert_of_ne _ hmn] at hm
    exact hg.node m e' hm

theorem Conforms.putRel (hg : Conforms S g) {q : T × (L × K) × (L × K)}
    (hq : q.2.1 ∈ g.nodes ∧ q.2.2 ∈ g.nodes) {e : Entity F V} (hends : S.ends q.1 q.2.1.1 q.2.2.1)
    (he : EntityOK (S.rel q.1) e) : Conforms S (g.putRel q hq e) := by
  refine ⟨hg.node, fun r e' hr => ?_⟩
  unfold Graph.putRel at hr
  dsimp only at hr
  by_cases hrq : r = q
  · subst hrq
    rw [Finmap.lookup_insert] at hr
    cases hr
    exact ⟨hends, he⟩
  · rw [Finmap.lookup_insert_of_ne _ hrq] at hr
    exact hg.rel r e' hr

theorem Conforms.mergeRel (hg : Conforms S g) {q : T × (L × K) × (L × K)}
    (hq : q.2.1 ∈ g.nodes ∧ q.2.2 ∈ g.nodes) {items : List (SetItem F V)}
    (hends : S.ends q.1 q.2.1.1 q.2.2.1) (h : ItemsOK (S.rel q.1) items) (now : ℤ) :
    Conforms S (g.mergeRel now q hq items) :=
  hg.putRel hq hends (h.mergeEntity now fun e he => (hg.rel q e he).2)

/-- **A statement that respects the schema** keeps the graph in it. -/
theorem exec_conforms (hg : Conforms S g) {s : Stmt L T K F V} (hs : s.Respects S) {now : ℤ}
    {g' : Graph L T K F V} (h : exec now g s = some g') : Conforms S g' := by
  have hset : ∀ {n : L × K} {e : Entity F V} {l : List (SetItem F V)} {t : T} {b : L × K},
      g.nodes.lookup n = some e → (Stmt.setAndLink n (some l) t b).Respects S →
        Conforms S (g.setNode n e l) :=
    fun hn hs => hg.putNode fun f => hs.1 _ rfl f _ (hg.node _ _ hn f)
  cases exec_cases h with
  | node => exact hg.putNode ((hs _ rfl).mergeEntity now fun e he => hg.node _ e he)
  | rel hc => exact hg.mergeRel hc (hs rfl).1 ((hs rfl).2 _ rfl) now
  | skipped => exact hg
  | set hn => exact hset hn hs
  | linked hn hc => exact (hset hn hs).mergeRel hc hs.2.1 hs.2.2 now

/-! ## Graphs that are written -/

/-- The graphs that statements of some kind write, from none: by any number of writers, in any
order, each stopping anywhere. -/
inductive WrittenBy (allowed : Stmt L T K F V → Prop) : Graph L T K F V → Prop
  | empty : WrittenBy allowed ∅
  | step {g g' : Graph L T K F V} {s : Stmt L T K F V} {now : ℤ} : WrittenBy allowed g → allowed s →
      exec now g s = some g' → WrittenBy allowed g'

/-- **What is written by statements that respect a schema conforms to it.** -/
theorem WrittenBy.conforms {allowed : Stmt L T K F V → Prop} (hallowed : ∀ s, allowed s → s.Respects S)
    (h : WrittenBy allowed g) : Conforms S g := by
  induction h with
  | empty => exact ⟨fun _ _ h => absurd h nofun, fun _ _ h => absurd h nofun⟩
  | step _ hs hexec ih => exact exec_conforms ih (hallowed _ hs) hexec

/-- A run writes. -/
theorem WrittenBy.run {allowed : Stmt L T K F V → Prop} {u : List (Stmt L T K F V)}
    (hu : ∀ s ∈ u, allowed s) (now : ℕ → ℤ) (h : WrittenBy allowed g) :
    WrittenBy allowed (run now u g) := by
  induction u generalizing g now with
  | nil => exact h
  | cons s u ih =>
    rw [List.forall_mem_cons] at hu
    unfold PropGraph.run
    split
    · exact h
    · rename_i g' hexec
      exact ih hu.2 _ (h.step hu.1 hexec)

/-! ## Reading a graph of a schema -/

theorem Conforms.nodeProp (h : Conforms S g) {n : L × K} (hn : n ∈ g.nodes) (f : F) :
    S.node n.1 f (g.nodeProp n f) := by
  obtain ⟨e, he⟩ := Finmap.mem_iff.1 hn
  unfold Graph.nodeProp
  rw [he]
  exact h.node n e he f

theorem Conforms.relProp (h : Conforms S g) {r : T × (L × K) × (L × K)} (hr : r ∈ g.rels) (f : F) :
    S.rel r.1 f (g.relProp r f) := by
  obtain ⟨e, he⟩ := Finmap.mem_iff.1 hr
  unfold Graph.relProp
  rw [he]
  exact (h.rel r e he).2 f

theorem Conforms.ends (h : Conforms S g) {r : T × (L × K) × (L × K)} (hr : r ∈ g.rels) :
    S.ends r.1 r.2.1.1 r.2.2.1 := by
  obtain ⟨e, he⟩ := Finmap.mem_iff.1 hr
  exact (h.rel r e he).1

end CivicProof.PropGraph
