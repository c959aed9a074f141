import Mathlib.Data.List.Nodup

/-!
# Tables with a CHECK

A table whose rows all pass a CHECK and have a key of their own, and the inserts that keep it so.

* `Checked.insert`: an `INSERT`, refused when it breaks a constraint.
* `Checked.insertNew`: an `INSERT` that does nothing where the key is taken. The CHECK comes first.
-/

namespace CivicProof.Transact

/-- The rows of a table, under a CHECK and a unique key. -/
structure Checked (R K : Type) (check : R → Prop) (key : R → K) where
  rows : List R
  checked : ∀ r ∈ rows, check r
  keys_nodup : (rows.map key).Nodup

namespace Checked

variable {R K : Type} {check : R → Prop} {key : R → K} [DecidableEq K]

/-- No rows. -/
def empty : Checked R K check key := ⟨[], by simp, by simp⟩

/-- The row with key `k`, if there is one. -/
def find? (T : Checked R K check key) (k : K) : Option R := T.rows.find? fun r => key r = k

/-- One more row. -/
def push (T : Checked R K check key) (r : R) (hcheck : check r) (hkey : key r ∉ T.rows.map key) :
    Checked R K check key where
  rows := T.rows ++ [r]
  checked x hx := by
    rcases List.mem_append.1 hx with hx | hx
    · exact T.checked x hx
    · rwa [List.mem_singleton.1 hx]
  keys_nodup := by
    rw [List.map_append, List.map_singleton, List.nodup_append]
    refine ⟨T.keys_nodup, List.nodup_singleton _, fun a ha b hb hab => hkey ?_⟩
    rwa [← List.mem_singleton.1 hb, ← hab]

/-- A key is there once at most. -/
theorem countP_key_le (T : Checked R K check key) (k : K) : T.rows.countP (key · = k) ≤ 1 := by
  have hcount := List.nodup_iff_count_le_one.1 T.keys_nodup k
  rw [List.count_eq_countP, List.countP_map] at hcount
  exact hcount

/-- A key that is there is there once. -/
theorem countP_key_eq (T : Checked R K check key) {k : K} (h : k ∈ T.rows.map key) :
    T.rows.countP (key · = k) = 1 := by
  obtain ⟨r, hr, rfl⟩ := List.mem_map.1 h
  exact Nat.le_antisymm (countP_key_le T _) (List.countP_pos_iff.2 ⟨r, hr, by simp⟩)

variable [DecidablePred check]

/-- `INSERT`; `none` when it breaks a constraint. -/
def insert (T : Checked R K check key) (r : R) : Option (Checked R K check key) :=
  if h : check r ∧ key r ∉ T.rows.map key then some (T.push r h.1 h.2) else none

/-- `INSERT … ON CONFLICT (key) DO NOTHING`; `none` when the row fails the CHECK. -/
def insertNew (T : Checked R K check key) (r : R) : Option (Checked R K check key) :=
  if hcheck : check r then
    if hkey : key r ∈ T.rows.map key then some T else some (T.push r hcheck hkey)
  else none

variable {T T' : Checked R K check key} {r : R}

theorem insert_of_not_check (h : ¬check r) : T.insert r = none := dif_neg fun hr => h hr.1

theorem insertNew_isSome : (T.insertNew r).isSome ↔ check r := by
  unfold insertNew
  split
  · rename_i h
    refine iff_of_true ?_ h
    split <;> rfl
  · exact iff_of_false (by simp) ‹_›

/-- What an insert that does nothing on conflict leaves. -/
theorem insertNew_rows (h : T.insertNew r = some T') :
    T'.rows = if key r ∈ T.rows.map key then T.rows else T.rows ++ [r] := by
  unfold insertNew at h
  split at h
  · split at h
    · rename_i hkey
      rw [← Option.some.inj h, if_pos hkey]
    · rename_i hkey
      rw [← Option.some.inj h, if_neg hkey]
      rfl
  · cases h

/-- No row goes. -/
theorem mem_insertNew (h : T.insertNew r = some T') {x : R} (hx : x ∈ T.rows) : x ∈ T'.rows := by
  rw [insertNew_rows h]
  split
  · exact hx
  · exact List.mem_append_left _ hx

/-- The key of the row is there. -/
theorem key_mem_insertNew (h : T.insertNew r = some T') : key r ∈ T'.rows.map key := by
  rw [insertNew_rows h]
  split
  · assumption
  · exact List.mem_map_of_mem (List.mem_append_right _ (List.mem_singleton_self r))

end Checked

end CivicProof.Transact
