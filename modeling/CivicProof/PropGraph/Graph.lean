import CivicProof.PropGraph.Write
import Mathlib.Data.Finmap
import Mathlib.Data.List.TakeWhile

/-!
# Property graphs and `MERGE`

Nodes keyed by label and business key, relationships by type and endpoints, each with
timestamps and properties. A statement merges one node or one relationship, a run carries out
statements until one is refused.

* `run_effect`: what a run does to every node, relationship and property.
* `run_replay`: a prefix of a run, run before it, changes no data.
-/

namespace CivicProof.PropGraph

set_option linter.unusedSectionVars false

/-- A node or relationship: its timestamps and its properties, null where absent. -/
structure Entity (F V : Type) where
  createdAt : ℤ
  updatedAt : Option ℤ
  props : F → Option V

/-- One property of a `MERGE`: its `ON CREATE SET` and its `ON MATCH SET` item. -/
structure SetItem (F V : Type) where
  field : F
  onCreate : Option V
  onMatch : Write V

section Items

variable {F V : Type} [DecidableEq F]

/-- What `ON CREATE SET` leaves in a property. -/
def createdProp (items : List (SetItem F V)) (f : F) : Option V :=
  (items.find? fun i => i.field = f).bind SetItem.onCreate

/-- What `ON MATCH SET` does to a property. -/
def matchWrite (items : List (SetItem F V)) (f : F) : Write V :=
  match items.find? fun i => i.field = f with
  | some i => i.onMatch
  | none => .keep none

/-- A created entity is a matched one without properties. -/
def SetItem.Uniform (i : SetItem F V) : Prop := i.onCreate = i.onMatch.apply none

theorem createdProp_eq {items : List (SetItem F V)} (h : ∀ i ∈ items, i.Uniform) (f : F) :
    createdProp items f = (matchWrite items f).apply none := by
  unfold createdProp matchWrite
  cases hi : items.find? fun i => i.field = f with
  | none => rfl
  | some i => exact h i (List.mem_of_find?_eq_some hi)

theorem matchWrite_regular {d : V} {items : List (SetItem F V)}
    (h : ∀ i ∈ items, i.onMatch.Regular d) (f : F) : (matchWrite items f).Regular d := by
  unfold matchWrite
  split
  · rename_i i hi
    exact h i (List.mem_of_find?_eq_some hi)
  · trivial

/-- The entity after a `MERGE`. -/
def mergeEntity (now : ℤ) (items : List (SetItem F V)) : Option (Entity F V) → Entity F V
  | none => ⟨now, none, createdProp items⟩
  | some e =>
    { e with updatedAt := some now, props := fun f => (matchWrite items f).apply (e.props f) }

/-- A property of an entity that may be missing. -/
def propOf (e : Option (Entity F V)) (f : F) : Option V := e.bind fun e => e.props f

theorem propOf_mergeEntity {items : List (SetItem F V)} (h : ∀ i ∈ items, i.Uniform) (now : ℤ)
    (e : Option (Entity F V)) (f : F) :
    (mergeEntity now items e).props f = (matchWrite items f).apply (propOf e f) := by
  cases e with
  | none => exact createdProp_eq h f
  | some e => rfl

end Items

/-- A property graph. Relationships have both their endpoints. -/
structure Graph (L T K F V : Type) where
  nodes : Finmap fun _ : L × K => Entity F V
  rels : Finmap fun _ : T × (L × K) × (L × K) => Entity F V
  endpoints : ∀ r, r ∈ rels → r.2.1 ∈ nodes ∧ r.2.2 ∈ nodes

/-- A statement. Its items are `none` where evaluating one of them raises. -/
inductive Stmt (L T K F V : Type) where
  /-- `MERGE (n) ON CREATE SET .. ON MATCH SET ..`. -/
  | mergeNode (n : L × K) (items : Option (List (SetItem F V)))
  /-- `MATCH (a) MATCH (b) WHERE admitted MERGE (a)-[r]->(b) ..`. -/
  | mergeRel (t : T) (a b : L × K) (admitted : Bool) (items : Option (List (SetItem F V)))
  /-- `MATCH (n) SET .. WITH n MATCH (b) MERGE (n)-[r]->(b)`. -/
  | setAndLink (n : L × K) (items : Option (List (SetItem F V))) (t : T) (b : L × K)

variable {L T K F V : Type} [DecidableEq L] [DecidableEq T] [DecidableEq K] [DecidableEq F]

namespace Graph

instance : EmptyCollection (Graph L T K F V) :=
  ⟨⟨∅, ∅, fun _ h => absurd h Finmap.notMem_empty⟩⟩

/-- A property of a node. -/
def nodeProp (g : Graph L T K F V) (n : L × K) (f : F) : Option V := propOf (g.nodes.lookup n) f

/-- A property of a relationship. -/
def relProp (g : Graph L T K F V) (r : T × (L × K) × (L × K)) (f : F) : Option V :=
  propOf (g.rels.lookup r) f

/-- The graph with a node written. -/
def putNode (g : Graph L T K F V) (n : L × K) (e : Entity F V) : Graph L T K F V where
  nodes := g.nodes.insert n e
  rels := g.rels
  endpoints r hr :=
    ⟨Finmap.mem_insert.2 (Or.inr (g.endpoints r hr).1),
      Finmap.mem_insert.2 (Or.inr (g.endpoints r hr).2)⟩

theorem endpoints_insert (g : Graph L T K F V) {q : T × (L × K) × (L × K)}
    (h : q.2.1 ∈ g.nodes ∧ q.2.2 ∈ g.nodes) (e : Entity F V) (r : T × (L × K) × (L × K))
    (hr : r ∈ g.rels.insert q e) : r.2.1 ∈ g.nodes ∧ r.2.2 ∈ g.nodes :=
  (Finmap.mem_insert.1 hr).elim (fun he => he ▸ h) (g.endpoints r)

/-- The graph with a relationship between nodes of it written. -/
def putRel (g : Graph L T K F V) (q : T × (L × K) × (L × K))
    (h : q.2.1 ∈ g.nodes ∧ q.2.2 ∈ g.nodes) (e : Entity F V) : Graph L T K F V where
  nodes := g.nodes
  rels := g.rels.insert q e
  endpoints := g.endpoints_insert h e

/-- The graph with a node merged. -/
def mergeNode (g : Graph L T K F V) (now : ℤ) (n : L × K) (items : List (SetItem F V)) :
    Graph L T K F V :=
  g.putNode n (mergeEntity now items (g.nodes.lookup n))

/-- The graph with a relationship merged. -/
def mergeRel (g : Graph L T K F V) (now : ℤ) (q : T × (L × K) × (L × K))
    (h : q.2.1 ∈ g.nodes ∧ q.2.2 ∈ g.nodes) (items : List (SetItem F V)) : Graph L T K F V :=
  g.putRel q h (mergeEntity now items (g.rels.lookup q))

/-- The graph with properties of a node set. -/
def setNode (g : Graph L T K F V) (n : L × K) (e : Entity F V) (items : List (SetItem F V)) :
    Graph L T K F V :=
  g.putNode n { e with props := fun f => (matchWrite items f).apply (e.props f) }

/-- The same nodes, relationships and properties, whatever the timestamps. -/
structure SameData (g h : Graph L T K F V) : Prop where
  nodes : ∀ n, n ∈ g.nodes ↔ n ∈ h.nodes
  rels : ∀ r, r ∈ g.rels ↔ r ∈ h.rels
  nodeProp : ∀ n f, g.nodeProp n f = h.nodeProp n f
  relProp : ∀ r f, g.relProp r f = h.relProp r f

end Graph

open PropGraph.Graph

/-- What a statement leaves; `none` where it raises. -/
def exec (now : ℤ) (g : Graph L T K F V) : Stmt L T K F V → Option (Graph L T K F V)
  | .mergeNode n items => items.map (g.mergeNode now n)
  | .mergeRel t a b admitted items =>
    -- without both endpoints, or filtered out, there is no row to merge for
    if h : (a ∈ g.nodes ∧ b ∈ g.nodes) ∧ admitted then
      items.map (g.mergeRel now (t, a, b) h.1)
    else some g
  | .setAndLink n items t b =>
    match g.nodes.lookup n with
    | none => some g
    | some e => items.map fun items =>
      let g' := g.setNode n e items
      if h : n ∈ g'.nodes ∧ b ∈ g'.nodes then g'.mergeRel now (t, n, b) h [] else g'

/-- A run: the `i`-th statement is carried out at time `now i`, and an exception ends it. -/
def run (now : ℕ → ℤ) : List (Stmt L T K F V) → Graph L T K F V → Graph L T K F V
  | [], g => g
  | s :: rest, g =>
    match exec (now 0) g s with
    | none => g
    | some g' => run (fun i => now (i + 1)) rest g'

namespace Stmt

/-- The node a statement merges. -/
def Merges : Stmt L T K F V → L × K → Prop
  | .mergeNode n _, m => n = m
  | _, _ => False

/-- The relationship a statement merges. -/
def Links : Stmt L T K F V → T × (L × K) × (L × K) → Prop
  | .mergeRel t a b admitted _, r => admitted = true ∧ (t, a, b) = r
  | _, _ => False

/-- What a statement writes to a property of a node. -/
def nodeWrite (s : Stmt L T K F V) (n : L × K) (f : F) : Write V :=
  match s with
  | .mergeNode m (some items) => if m = n then matchWrite items f else .keep none
  | _ => .keep none

theorem nodeWrite_mergeNode (n : L × K) (items : List (SetItem F V)) (f : F) :
    (mergeNode n (some items) : Stmt L T K F V).nodeWrite n f = matchWrite items f := if_pos rfl

/-- A statement writes to the node it merges only. -/
theorem nodeWrite_of_not_merges {s : Stmt L T K F V} {n : L × K} (h : ¬s.Merges n) (f : F) :
    s.nodeWrite n f = .keep none := by
  unfold nodeWrite
  split
  · exact if_neg h
  · rfl

/-- What a statement writes to a property of a relationship. -/
def relWrite (s : Stmt L T K F V) (r : T × (L × K) × (L × K)) (f : F) : Write V :=
  match s with
  | .mergeRel t a b true (some items) => if (t, a, b) = r then matchWrite items f else .keep none
  | _ => .keep none

/-- A statement that raises, once its endpoints are there. -/
def refused : Stmt L T K F V → Bool
  | .mergeNode _ none => true
  | .mergeRel _ _ _ true none => true
  | _ => false

/-- The items of a statement. -/
def items : Stmt L T K F V → List (SetItem F V)
  | .mergeNode _ items => items.getD []
  | .mergeRel _ _ _ _ items => items.getD []
  | .setAndLink _ items _ _ => items.getD []

/-- A merge whose endpoints are there. -/
def Ready (present : L × K → Prop) : Stmt L T K F V → Prop
  | .mergeNode _ _ => True
  | .mergeRel _ a b _ _ => present a ∧ present b
  | .setAndLink _ _ _ _ => False

/-- Create and match agree, and nothing but `d` is a default. -/
structure Regular (d : V) (s : Stmt L T K F V) : Prop where
  uniform : ∀ i ∈ s.items, i.Uniform
  regular : ∀ i ∈ s.items, i.onMatch.Regular d

theorem Ready.mono {P Q : L × K → Prop} {s : Stmt L T K F V} (h : s.Ready P)
    (hPQ : ∀ n, P n → Q n) : s.Ready Q := by
  cases s with
  | mergeNode n items => trivial
  | mergeRel t a b admitted items => exact ⟨hPQ a h.1, hPQ b h.2⟩
  | setAndLink n items t b => exact h

end Stmt

/-- Every relationship of a list of merges finds its endpoints, among `present` and the nodes
merged before it. -/
def Closed (present : L × K → Prop) : List (Stmt L T K F V) → Prop
  | [] => True
  | s :: rest => s.Ready present ∧ Closed (fun n => present n ∨ s.Merges n) rest

/-- The statements of a run up to the first that raises. -/
def issued (u : List (Stmt L T K F V)) : List (Stmt L T K F V) := u.takeWhile fun s => !s.refused

/-- The effect of a list of merges on a graph. -/
structure Effect (u : List (Stmt L T K F V)) (g g' : Graph L T K F V) : Prop where
  nodes : ∀ n, n ∈ g'.nodes ↔ n ∈ g.nodes ∨ ∃ s ∈ u, s.Merges n
  rels : ∀ r, r ∈ g'.rels ↔ r ∈ g.rels ∨ ∃ s ∈ u, s.Links r
  nodeProp : ∀ n f,
    g'.nodeProp n f = runWrites (u.map fun s => s.nodeWrite n f) (g.nodeProp n f)
  relProp : ∀ r f, g'.relProp r f = runWrites (u.map fun s => s.relWrite r f) (g.relProp r f)

/-! ## One statement -/

variable {g : Graph L T K F V} {now : ℤ}

theorem nodeProp_mergeNode {items : List (SetItem F V)} (h : ∀ i ∈ items, i.Uniform)
    (n m : L × K) (f : F) :
    (g.mergeNode now n items).nodeProp m f =
      if n = m then (matchWrite items f).apply (g.nodeProp m f) else g.nodeProp m f := by
  unfold Graph.nodeProp Graph.mergeNode Graph.putNode
  dsimp only
  by_cases hnm : n = m
  · subst hnm
    rw [Finmap.lookup_insert, if_pos rfl]
    exact propOf_mergeEntity h now _ f
  · rw [Finmap.lookup_insert_of_ne _ fun hm => hnm hm.symm, if_neg hnm]

theorem relProp_mergeRel {items : List (SetItem F V)} (h : ∀ i ∈ items, i.Uniform)
    (q : T × (L × K) × (L × K)) (hq : q.2.1 ∈ g.nodes ∧ q.2.2 ∈ g.nodes)
    (r : T × (L × K) × (L × K)) (f : F) :
    (g.mergeRel now q hq items).relProp r f =
      if q = r then (matchWrite items f).apply (g.relProp r f) else g.relProp r f := by
  unfold Graph.relProp Graph.mergeRel Graph.putRel
  dsimp only
  by_cases hqr : q = r
  · subst hqr
    rw [Finmap.lookup_insert, if_pos rfl]
    exact propOf_mergeEntity h now _ f
  · rw [Finmap.lookup_insert_of_ne _ fun hm => hqr hm.symm, if_neg hqr]

theorem mem_mergeNode {items : List (SetItem F V)} (n m : L × K) :
    m ∈ (g.mergeNode now n items).nodes ↔ m ∈ g.nodes ∨ n = m := by
  unfold Graph.mergeNode Graph.putNode
  rw [Finmap.mem_insert, or_comm, eq_comm]

theorem mem_mergeRel {items : List (SetItem F V)} (q : T × (L × K) × (L × K))
    (hq : q.2.1 ∈ g.nodes ∧ q.2.2 ∈ g.nodes) (r : T × (L × K) × (L × K)) :
    r ∈ (g.mergeRel now q hq items).rels ↔ r ∈ g.rels ∨ q = r := by
  unfold Graph.mergeRel Graph.putRel
  rw [Finmap.mem_insert, or_comm, eq_comm]

theorem exec_refused {s : Stmt L T K F V} (hready : s.Ready (· ∈ g.nodes))
    (h : s.refused = true) : exec now g s = none := by
  cases s with
  | mergeNode n items =>
    cases items with
    | none => rfl
    | some items => cases h
  | mergeRel t a b admitted items =>
    cases admitted with
    | false => cases h
    | true =>
      cases items with
      | none => exact dif_pos ⟨hready, rfl⟩
      | some items => cases h
  | setAndLink n items t b => exact hready.elim

/-- **What one merge does**, when its endpoints are there. -/
theorem exec_effect {s : Stmt L T K F V} (hready : s.Ready (· ∈ g.nodes))
    (huni : ∀ i ∈ s.items, i.Uniform) (h : s.refused = false) :
    ∃ g', exec now g s = some g' ∧ Effect [s] g g' := by
  cases s with
  | mergeNode n items =>
    cases items with
    | none => cases h
    | some items =>
      replace huni : ∀ i ∈ items, i.Uniform := huni
      refine ⟨_, rfl, fun m => ?_, fun r => ?_, fun m f => ?_, fun r f => ?_⟩
      · simp [mem_mergeNode, Stmt.Merges]
      · simp [Graph.mergeNode, Graph.putNode, Stmt.Links]
      · rw [nodeProp_mergeNode huni]
        change _ = (if n = m then matchWrite items f else .keep none : Write V).apply _
        split
        · rfl
        · exact (Write.apply_keep_none _).symm
      · exact (Write.apply_keep_none _).symm
  | mergeRel t a b admitted items =>
    cases admitted with
    | false =>
      refine ⟨g, dif_neg fun hc => Bool.noConfusion hc.2, fun m => ?_, fun r => ?_, fun m f => ?_,
        fun r f => ?_⟩
      · simp [Stmt.Merges]
      · simp [Stmt.Links]
      · exact (Write.apply_keep_none _).symm
      · exact (Write.apply_keep_none _).symm
    | true =>
      cases items with
      | none => cases h
      | some items =>
        replace huni : ∀ i ∈ items, i.Uniform := huni
        refine ⟨_, dif_pos ⟨hready, rfl⟩, fun m => ?_, fun r => ?_, fun m f => ?_,
          fun r f => ?_⟩
        · simp [Graph.mergeRel, Graph.putRel, Stmt.Merges]
        · simp [mem_mergeRel, Stmt.Links]
        · exact (Write.apply_keep_none _).symm
        · rw [relProp_mergeRel huni]
          change _ = (if (t, a, b) = r then matchWrite items f else .keep none : Write V).apply _
          split
          · rfl
          · exact (Write.apply_keep_none _).symm
  | setAndLink n items t b => exact hready.elim

/-- What a statement that is accepted has done. -/
inductive Executed (now : ℤ) (g : Graph L T K F V) : Stmt L T K F V → Graph L T K F V → Prop
  | node {n : L × K} {l : List (SetItem F V)} :
      Executed now g (.mergeNode n (some l)) (g.mergeNode now n l)
  | rel {t : T} {a b : L × K} {l : List (SetItem F V)} (hc : a ∈ g.nodes ∧ b ∈ g.nodes) :
      Executed now g (.mergeRel t a b true (some l)) (g.mergeRel now (t, a, b) hc l)
  | skipped {s : Stmt L T K F V} (hnode : ∀ n, ¬s.Merges n)
      (hrel : ∀ r, s.Links r → ¬s.Ready (· ∈ g.nodes)) : Executed now g s g
  | set {n b : L × K} {e : Entity F V} {l : List (SetItem F V)} {t : T}
      (hn : g.nodes.lookup n = some e) : Executed now g (.setAndLink n (some l) t b) (g.setNode n e l)
  | linked {n b : L × K} {e : Entity F V} {l : List (SetItem F V)} {t : T}
      (hn : g.nodes.lookup n = some e)
      (hc : n ∈ (g.setNode n e l).nodes ∧ b ∈ (g.setNode n e l).nodes) :
      Executed now g (.setAndLink n (some l) t b) ((g.setNode n e l).mergeRel now (t, n, b) hc [])

/-- **What an accepted statement does**, case by case. -/
theorem exec_cases {s : Stmt L T K F V} {g' : Graph L T K F V} (h : exec now g s = some g') :
    Executed now g s g' := by
  cases s with
  | mergeNode n items =>
    obtain ⟨l, rfl, rfl⟩ := Option.map_eq_some_iff.1 h
    exact .node
  | mergeRel t a b admitted items =>
    unfold exec at h
    dsimp only at h
    split_ifs at h with hc
    · obtain ⟨l, rfl, rfl⟩ := Option.map_eq_some_iff.1 h
      obtain ⟨hc, rfl⟩ := hc
      exact .rel hc
    · cases h
      exact .skipped (fun _ => id) fun r hr hready => hc ⟨hready, hr.1⟩
  | setAndLink n items t b =>
    unfold exec at h
    dsimp only at h
    cases hn : g.nodes.lookup n with
    | none =>
      rw [hn] at h
      cases h
      exact .skipped (fun _ => id) fun _ hr => hr.elim
    | some e =>
      rw [hn] at h
      obtain ⟨l, rfl, hg'⟩ := Option.map_eq_some_iff.1 h
      split_ifs at hg' with hc
      · rw [← hg']
        exact .linked hn hc
      · rw [← hg']
        exact .set hn

/-! ## Runs -/

theorem Effect.refl (g : Graph L T K F V) : Effect [] g g where
  nodes n := by simp
  rels r := by simp
  nodeProp _ _ := rfl
  relProp _ _ := rfl

theorem Effect.trans {u v : List (Stmt L T K F V)} {g g' g'' : Graph L T K F V}
    (h : Effect u g g') (h' : Effect v g' g'') : Effect (u ++ v) g g'' where
  nodes n := by
    rw [h'.nodes, h.nodes, or_assoc, ← exists_or]
    simp only [List.mem_append, or_and_right]
  rels r := by
    rw [h'.rels, h.rels, or_assoc, ← exists_or]
    simp only [List.mem_append, or_and_right]
  nodeProp n f := by rw [h'.nodeProp, h.nodeProp, List.map_append, runWrites_append]
  relProp r f := by rw [h'.relProp, h.relProp, List.map_append, runWrites_append]

theorem Closed.mono {P Q : L × K → Prop} {u : List (Stmt L T K F V)} (h : Closed P u)
    (hPQ : ∀ n, P n → Q n) : Closed Q u := by
  induction u generalizing P Q with
  | nil => trivial
  | cons s u ih => exact ⟨h.1.mono hPQ, ih h.2 fun n hn => hn.imp_left (hPQ n)⟩

/-- A list may use the nodes of the list before it. -/
theorem Closed.append_of {P : L × K → Prop} {u v : List (Stmt L T K F V)} (hu : Closed P u)
    (hv : Closed (fun n => P n ∨ ∃ s ∈ u, s.Merges n) v) : Closed P (u ++ v) := by
  induction u generalizing P with
  | nil => exact hv.mono fun n hn => hn.resolve_right fun ⟨s, hs, _⟩ => List.not_mem_nil hs
  | cons s u ih =>
    refine ⟨hu.1, ih hu.2 (hv.mono fun n hn => ?_)⟩
    rw [List.exists_mem_cons_iff] at hn
    exact or_assoc.2 hn

theorem Closed.append {P : L × K → Prop} {u v : List (Stmt L T K F V)} (hu : Closed P u)
    (hv : Closed P v) : Closed P (u ++ v) :=
  hu.append_of (hv.mono fun _ => Or.inl)

theorem Closed.of_append {P : L × K → Prop} {u v : List (Stmt L T K F V)}
    (h : Closed P (u ++ v)) : Closed P u := by
  induction u generalizing P with
  | nil => trivial
  | cons s u ih => exact ⟨h.1, ih h.2⟩

/-- **What a run does**: it carries out the statements before the first that raises. -/
theorem run_effect {u : List (Stmt L T K F V)} (huni : ∀ s ∈ u, ∀ i ∈ s.items, i.Uniform) :
    ∀ {g : Graph L T K F V} (now : ℕ → ℤ), Closed (· ∈ g.nodes) u →
      Effect (issued u) g (run now u g) := by
  induction u with
  | nil => exact fun _ _ => Effect.refl _
  | cons s u ih =>
    intro g now hclosed
    have hs := huni s List.mem_cons_self
    cases hr : s.refused with
    | true =>
      have hissued : issued (s :: u) = [] := List.takeWhile_cons_of_neg (by simp [hr])
      rw [hissued, run, exec_refused hclosed.1 hr]
      exact Effect.refl g
    | false =>
      have hissued : issued (s :: u) = s :: issued u := List.takeWhile_cons_of_pos (by simp [hr])
      obtain ⟨g', hg', heff⟩ : ∃ g', exec (now 0) g s = some g' ∧ Effect [s] g g' :=
        exec_effect hclosed.1 hs hr
      rw [hissued, run, hg']
      have hrest : Closed (· ∈ g'.nodes) u := by
        refine hclosed.2.mono fun n hn => (heff.nodes n).2 (hn.imp_right fun hm => ?_)
        exact ⟨s, List.mem_singleton_self s, hm⟩
      exact heff.trans (ih (fun s' h => huni s' (List.mem_cons_of_mem s h)) _ hrest)

theorem issued_append (u v : List (Stmt L T K F V)) :
    issued u <+: issued (u ++ v) := by
  unfold issued
  rw [List.takeWhile_append]
  split
  · rename_i h
    rw [(List.takeWhile_prefix _).eq_of_length h]
    exact List.prefix_append u _
  · exact List.prefix_refl _

theorem Stmt.Regular.nodeWrite {d : V} {s : Stmt L T K F V} (h : s.Regular d) (n : L × K) (f : F) :
    (s.nodeWrite n f).Regular d := by
  unfold Stmt.nodeWrite
  split
  · split
    · exact matchWrite_regular h.regular f
    · trivial
  · trivial

theorem Stmt.Regular.relWrite {d : V} {s : Stmt L T K F V} (h : s.Regular d)
    (r : T × (L × K) × (L × K)) (f : F) : (s.relWrite r f).Regular d := by
  unfold Stmt.relWrite
  split
  · split
    · exact matchWrite_regular h.regular f
    · trivial
  · trivial

/-- Statements carried out again after some of them leave what they leave alone. -/
theorem Effect.replay {d : V} {p v : List (Stmt L T K F V)} {g g₁ g₂ g₃ : Graph L T K F V}
    (hreg : ∀ s ∈ p ++ v, s.Regular d) (h₁ : Effect p g g₁) (h₂ : Effect (p ++ v) g₁ g₂)
    (h₃ : Effect (p ++ v) g g₃) : SameData g₂ g₃ where
  nodes n := by
    rw [h₂.nodes, h₁.nodes, h₃.nodes, or_assoc, ← exists_or]
    simp only [List.mem_append]
    exact or_congr_right ⟨fun ⟨s, h⟩ => ⟨s, by tauto⟩, fun ⟨s, h⟩ => ⟨s, Or.inr h⟩⟩
  rels r := by
    rw [h₂.rels, h₁.rels, h₃.rels, or_assoc, ← exists_or]
    simp only [List.mem_append]
    exact or_congr_right ⟨fun ⟨s, h⟩ => ⟨s, by tauto⟩, fun ⟨s, h⟩ => ⟨s, Or.inr h⟩⟩
  nodeProp n f := by
    rw [h₂.nodeProp, h₁.nodeProp, h₃.nodeProp, List.map_append]
    refine runWrites_replay (d := d) (fun w hw => ?_) _
    rw [← List.map_append] at hw
    obtain ⟨s, hs, rfl⟩ := List.mem_map.1 hw
    exact (hreg s hs).nodeWrite n f
  relProp r f := by
    rw [h₂.relProp, h₁.relProp, h₃.relProp, List.map_append]
    refine runWrites_replay (d := d) (fun w hw => ?_) _
    rw [← List.map_append] at hw
    obtain ⟨s, hs, rfl⟩ := List.mem_map.1 hw
    exact (hreg s hs).relWrite r f

/-- **A prefix of a run, run before it, changes no data.** -/
theorem run_replay {d : V} {p u : List (Stmt L T K F V)} {g : Graph L T K F V}
    (hreg : ∀ s ∈ u, s.Regular d) (hclosed : Closed (· ∈ g.nodes) u) (hp : p <+: u)
    (now₁ now₂ now₃ : ℕ → ℤ) : SameData (run now₂ u (run now₁ p g)) (run now₃ u g) := by
  obtain ⟨v, rfl⟩ := hp
  have huni : ∀ s ∈ p ++ v, ∀ i ∈ s.items, i.Uniform := fun s hs => (hreg s hs).uniform
  have h₁ := run_effect (fun s hs => huni s (List.mem_append_left v hs)) now₁ hclosed.of_append
  have hclosed' : Closed (· ∈ (run now₁ p g).nodes) (p ++ v) :=
    hclosed.mono fun n hn => (h₁.nodes n).2 (Or.inl hn)
  have h₂ := run_effect huni now₂ hclosed'
  have h₃ := run_effect huni now₃ hclosed
  obtain ⟨w, hw⟩ := issued_append p v
  rw [← hw] at h₂ h₃
  refine Effect.replay (d := d) (fun s hs => ?_) h₁ h₂ h₃
  rw [hw] at hs
  exact hreg s ((List.takeWhile_prefix _).mem hs)

/-! ## Runs without a refusal -/

theorem issued_eq_self {u : List (Stmt L T K F V)} (hok : ∀ s ∈ u, s.refused = false) :
    issued u = u :=
  List.takeWhile_eq_self_iff.2 fun s hs => by simp [hok s hs]

/-- **What a run of merges leaves in a property of a node**: the last value given to it. -/
theorem run_nodeProp {d : V} {u : List (Stmt L T K F V)} {g : Graph L T K F V}
    (hreg : ∀ s ∈ u, s.Regular d) (hclosed : Closed (· ∈ g.nodes) u)
    (hok : ∀ s ∈ u, s.refused = false) (now : ℕ → ℤ) (n : L × K) (f : F) :
    (run now u g).nodeProp n f =
      (lastValue (fun s => (s.nodeWrite n f).given) u).or
        (orDefault d (u.map fun s => s.nodeWrite n f) (g.nodeProp n f)) := by
  rw [(run_effect (fun s hs => (hreg s hs).uniform) now hclosed).nodeProp, issued_eq_self hok]
  exact runWrites_map (fun s hs => (hreg s hs).nodeWrite n f) _

/-- A value given by the only statement on a node is what the run leaves. -/
theorem run_nodeProp_given {d : V} {u : List (Stmt L T K F V)} {g : Graph L T K F V}
    (hreg : ∀ s ∈ u, s.Regular d) (hclosed : Closed (· ∈ g.nodes) u)
    (hok : ∀ s ∈ u, s.refused = false) (now : ℕ → ℤ) {n : L × K} {f : F} {t : Stmt L T K F V}
    (ht : t ∈ u) (honly : ∀ s ∈ u, s.Merges n → s = t) {v : V}
    (hv : (t.nodeWrite n f).given = some v) : (run now u g).nodeProp n f = some v := by
  have hlast : lastValue (fun s => (s.nodeWrite n f).given) u = some v := by
    refine lastValue_eq_some (fun s hs w hw => ?_) ht hv
    by_cases hm : s.Merges n
    · rw [honly s hs hm, hv] at hw
      exact (Option.some.inj hw).symm
    · rw [Stmt.nodeWrite_of_not_merges hm] at hw
      cases hw
  rw [run_nodeProp hreg hclosed hok, hlast]
  rfl

end CivicProof.PropGraph
