import Mathlib.Data.List.Induction
import Mathlib.Data.Option.Basic

/-!
# Property writes

What an upsert does to one property, null (`none`) or set: keep the old value unless a new one
is given, or overwrite it.

* `runWrites_eq`: a sequence of writes leaves the last value given.
* `runWrites_replay`: a prefix of a sequence, run before it, changes nothing.
-/

namespace CivicProof.PropGraph

variable {V : Type}

/-- How a `SET` item writes a property. -/
inductive Write (V : Type) where
  /-- `coalesce(x, old)`. -/
  | keep (x : Option V)
  /-- `coalesce(x, old, d)`. -/
  | keepOr (x : Option V) (d : V)
  /-- `x`. -/
  | assign (x : Option V)

namespace Write

/-- The property after a write. -/
def apply : Write V → Option V → Option V
  | .keep x, old => x.or old
  | .keepOr x d, old => some ((x.or old).getD d)
  | .assign x, _ => x

/-- The value a write gives, if any. -/
def given : Write V → Option V
  | .keep x => x
  | .keepOr x _ => x
  | .assign x => x

/-- Whether a write turns null into a default. -/
def defaults : Write V → Bool
  | .keepOr _ _ => true
  | _ => false

/-- A write whose default, if it has one, is `d`, and that never overwrites with null. -/
def Regular (d : V) : Write V → Prop
  | .keep _ => True
  | .keepOr _ d' => d' = d
  | .assign x => x ≠ none

@[simp] theorem apply_keep_none (old : Option V) : (keep none : Write V).apply old = old := by
  cases old <;> rfl

theorem apply_of_given {w : Write V} {v : V} (h : w.given = some v) (old : Option V) :
    w.apply old = some v := by
  cases w with
  | keep x => rw [given] at h; rw [h]; rfl
  | keepOr x d => rw [given] at h; rw [h]; rfl
  | assign x => exact h

/-- What a write that gives no value does. -/
theorem apply_of_none {d : V} {w : Write V} (hw : w.Regular d) (h : w.given = none)
    (old : Option V) : w.apply old = if w.defaults then some (old.getD d) else old := by
  cases w with
  | keep x =>
    rw [given] at h
    rw [h, apply_keep_none]
    rfl
  | keepOr x d' =>
    rw [given] at h
    obtain rfl : d' = d := hw
    rw [h]
    cases old <;> rfl
  | assign x => exact absurd h hw

end Write

/-- The property after a sequence of writes. -/
def runWrites (ws : List (Write V)) (old : Option V) : Option V :=
  ws.foldl (fun o w => w.apply o) old

theorem runWrites_cons (w : Write V) (ws : List (Write V)) (old : Option V) :
    runWrites (w :: ws) old = runWrites ws (w.apply old) := rfl

theorem runWrites_append (ws ws' : List (Write V)) (old : Option V) :
    runWrites (ws ++ ws') old = runWrites ws' (runWrites ws old) := List.foldl_append

/-- The values a sequence of writes gives, in order. -/
def givenValues (ws : List (Write V)) : List V := ws.filterMap Write.given

theorem givenValues_append (ws ws' : List (Write V)) :
    givenValues (ws ++ ws') = givenValues ws ++ givenValues ws' := List.filterMap_append

/-- What a sequence of writes does to a property it gives no value. -/
def orDefault (d : V) (ws : List (Write V)) (old : Option V) : Option V :=
  if ws.any Write.defaults then some (old.getD d) else old

theorem orDefault_getD (d : V) (ws : List (Write V)) (old : Option V) :
    (orDefault d ws old).getD d = old.getD d := by
  unfold orDefault
  split <;> rfl

/-- **A sequence of writes leaves the last value given**; without one, the old value or the
default. -/
theorem runWrites_eq {d : V} {ws : List (Write V)} (hws : ∀ w ∈ ws, w.Regular d)
    (old : Option V) :
    runWrites ws old = (givenValues ws).getLast?.or (orDefault d ws old) := by
  induction ws using List.reverseRecOn with
  | nil => rfl
  | append_singleton ws w ih =>
    have hw : w.Regular d := hws w (by simp)
    have hprev := ih fun w' h => hws w' (by simp [h])
    rw [runWrites_append, givenValues_append]
    change w.apply (runWrites ws old) = _
    cases hg : w.given with
    | some v =>
      have hlast : givenValues [w] = [v] := by simp [givenValues, hg]
      rw [Write.apply_of_given hg, hlast, List.getLast?_concat]
      rfl
    | none =>
      have hlast : givenValues [w] = [] := by simp [givenValues, hg]
      rw [Write.apply_of_none hw hg, hlast, List.append_nil, hprev]
      cases (givenValues ws).getLast? with
      | some v =>
        change (if w.defaults then some v else some v) = some v
        exact ite_self _
      | none =>
        simp only [Option.none_or]
        cases hd : w.defaults with
        | false =>
          rw [orDefault, orDefault]
          simp [hd]
        | true =>
          rw [if_pos rfl, orDefault_getD]
          simp [orDefault, hd]

/-- **A prefix of a sequence of writes, run before it, changes nothing.** -/
theorem runWrites_replay {d : V} {p v : List (Write V)} (hreg : ∀ w ∈ p ++ v, w.Regular d)
    (old : Option V) : runWrites (p ++ v) (runWrites p old) = runWrites (p ++ v) old := by
  have hp : ∀ w ∈ p, w.Regular d := fun w h => hreg w (List.mem_append_left v h)
  rw [runWrites_eq hreg, runWrites_eq hreg, runWrites_eq hp, givenValues_append,
    List.getLast?_append]
  cases (givenValues v).getLast? with
  | some x => rfl
  | none =>
    cases (givenValues p).getLast? with
    | some x => rfl
    | none =>
      simp only [Option.none_or, orDefault, List.any_append]
      cases p.any Write.defaults <;> cases v.any Write.defaults <;> rfl

/-! ## One value -/

theorem runWrites_stay {x : Option V} {ws : List (Write V)}
    (h : ∀ w ∈ ws, w = .keep none ∨ w = .keep x) : runWrites ws x = x := by
  induction ws with
  | nil => rfl
  | cons w ws ih =>
    have hw : w.apply x = x := by
      rcases h w List.mem_cons_self with rfl | rfl
      · exact Write.apply_keep_none x
      · exact Option.or_self
    rw [runWrites_cons, hw]
    exact ih fun w' hw' => h w' (List.mem_cons_of_mem w hw')

/-- Writes that all give the same value leave it. -/
theorem runWrites_const {x : Option V} {ws : List (Write V)}
    (h : ∀ w ∈ ws, w = .keep none ∨ w = .keep x) (hx : .keep x ∈ ws) : runWrites ws none = x := by
  induction ws with
  | nil => exact absurd hx List.not_mem_nil
  | cons w ws ih =>
    have hrest : ∀ w' ∈ ws, w' = .keep none ∨ w' = .keep x :=
      fun w' hw' => h w' (List.mem_cons_of_mem w hw')
    rw [runWrites_cons]
    by_cases hw : w = .keep x
    · subst hw
      have happly : (Write.keep x).apply none = x := Option.or_none
      rw [happly]
      exact runWrites_stay hrest
    · obtain rfl := (h w List.mem_cons_self).resolve_right hw
      exact ih hrest ((List.mem_cons.1 hx).resolve_left fun he => hw he.symm)

/-! ## The last value -/

variable {X : Type}

/-- The last value a list gives. -/
def lastValue (val : X → Option V) (xs : List X) : Option V := (xs.filterMap val).getLast?

theorem lastValue_append (val : X → Option V) (xs ys : List X) :
    lastValue val (xs ++ ys) = (lastValue val ys).or (lastValue val xs) := by
  unfold lastValue
  rw [List.filterMap_append, List.getLast?_append]

theorem lastValue_eq_none {val : X → Option V} {xs : List X} :
    lastValue val xs = none ↔ ∀ x ∈ xs, val x = none := by
  unfold lastValue
  rw [List.getLast?_eq_none_iff, List.filterMap_eq_nil_iff]

theorem lastValue_mem {val : X → Option V} {xs : List X} {v : V} (h : lastValue val xs = some v) :
    v ∈ xs.filterMap val := List.mem_of_getLast? h

/-- A list that gives one value gives it last. -/
theorem lastValue_eq_some {val : X → Option V} {xs : List X} {v : V}
    (hall : ∀ x ∈ xs, ∀ w, val x = some w → w = v) {x : X} (hx : x ∈ xs) (hv : val x = some v) :
    lastValue val xs = some v := by
  cases hlast : lastValue val xs with
  | none =>
    rw [lastValue_eq_none.1 hlast x hx] at hv
    cases hv
  | some w =>
    obtain ⟨y, hy, hw⟩ := List.mem_filterMap.1 (lastValue_mem hlast)
    rw [hall y hy w hw]

/-- The writes of a list leave the last value it gives. -/
theorem runWrites_map {d : V} {xs : List X} {w : X → Write V} (h : ∀ x ∈ xs, (w x).Regular d)
    (old : Option V) :
    runWrites (xs.map w) old =
      (lastValue (fun x => (w x).given) xs).or (orDefault d (xs.map w) old) := by
  have hreg : ∀ w' ∈ xs.map w, w'.Regular d := List.forall_mem_map.2 h
  rw [runWrites_eq hreg]
  unfold givenValues lastValue
  rw [List.filterMap_map]
  rfl

end CivicProof.PropGraph
