import Mathlib.Logic.Function.Basic

/-!
# Tables under transactions

A cell holds the version of a row that is committed and the one that an open transaction has
written. A statement waits for the transaction that holds its row; a commit or a rollback ends
all that its transaction has written.

* `Cell.commit_of_ne`, `Cell.rollback_of_ne`: the end of a transaction leaves the rows of the
  others alone.
-/

namespace CivicProof.Transact

/-- A row, as it is committed and as the transaction of some session has left it. -/
structure Cell (W R : Type) where
  committed : Option R
  pending : Option (W × R)

/-- The rows of a table by key. -/
abbrev Table (W K R : Type) := K → Cell W R

variable {W K R : Type} [DecidableEq W]

namespace Cell

/-- No other session holds the row. -/
def FreeFor (c : Cell W R) (w : W) : Prop := ∀ v ∈ c.pending, v.1 = w

/-- The row as the transaction of `w` sees it. -/
def view (c : Cell W R) (w : W) : Option R :=
  match c.pending with
  | some (owner, r) => if owner = w then some r else c.committed
  | none => c.committed

/-- `w` writes a version of the row. -/
def write (c : Cell W R) (w : W) (r : R) : Cell W R := { c with pending := some (w, r) }

/-- An `UPDATE` of the row by `w`, if there is one. -/
def modify (c : Cell W R) (w : W) (f : R → R) : Cell W R :=
  match c.view w with
  | some r => c.write w (f r)
  | none => c

/-- `w` commits. -/
def commit (c : Cell W R) (w : W) : Cell W R :=
  match c.pending with
  | some (owner, r) => if owner = w then ⟨some r, none⟩ else c
  | none => c

/-- `w` rolls back. -/
def rollback (c : Cell W R) (w : W) : Cell W R :=
  match c.pending with
  | some (owner, _) => if owner = w then ⟨c.committed, none⟩ else c
  | none => c

variable {c : Cell W R} {w : W} {o r : R} {x : Option R}

@[simp] theorem commit_own : (⟨x, some (w, r)⟩ : Cell W R).commit w = ⟨some r, none⟩ := if_pos rfl

@[simp] theorem rollback_own (written : Option R) :
    (⟨x, written.map (w, ·)⟩ : Cell W R).rollback w = ⟨x, none⟩ := by
  cases written with
  | none => rfl
  | some r => exact if_pos rfl

theorem commit_of_ne (h : ∀ v ∈ c.pending, v.1 ≠ w) : c.commit w = c := by
  unfold commit
  split
  · rename_i heq
    exact if_neg (h _ heq)
  · rfl

theorem rollback_of_ne (h : ∀ v ∈ c.pending, v.1 ≠ w) : c.rollback w = c := by
  unfold rollback
  split
  · rename_i heq
    exact if_neg (h _ heq)
  · rfl

@[simp] theorem committed_commit : (c.commit w).committed = c.view w := by
  unfold commit view
  split
  · split <;> rfl
  · rfl

@[simp] theorem committed_rollback : (c.rollback w).committed = c.committed := by
  unfold rollback
  split
  · split <;> rfl
  · rfl

/-- A session sees what it has committed. -/
theorem view_commit : (c.commit w).view w = c.view w := by
  obtain ⟨x, _ | ⟨o, r⟩⟩ := c
  · rfl
  · by_cases h : o = w <;> simp [commit, view, h]

/-- What is being written is new: nothing is committed below it. -/
def Fresh (c : Cell W R) : Prop := c.pending ≠ none → c.committed = none

theorem Fresh.commit (h : c.Fresh) : (c.commit w).Fresh := by
  obtain ⟨x, _ | ⟨o, r⟩⟩ := c
  · exact h
  · by_cases how : o = w
    · simp [Cell.commit, how, Fresh]
    · simpa [Cell.commit, how] using h

theorem Fresh.rollback (h : c.Fresh) : (c.rollback w).Fresh := by
  obtain ⟨x, _ | ⟨o, r⟩⟩ := c
  · exact h
  · by_cases how : o = w
    · simp [Cell.rollback, how, Fresh]
    · simpa [Cell.rollback, how] using h

/-- A commit of another session is not seen where something is committed already. -/
theorem view_commit_of_ne {v : W} (hfresh : c.Fresh) (h : v ≠ w) (hr : c.view v = some r) :
    (c.commit w).view v = some r := by
  obtain ⟨x, _ | ⟨o, r'⟩⟩ := c
  · exact hr
  · by_cases how : o = w
    · obtain rfl : x = none := hfresh (by simp)
      simp [view, how, h.symm] at hr
    · simpa [commit, how] using hr

/-- A session that may write a row and sees none finds nothing there. -/
theorem eq_none_of_view (hfree : c.FreeFor w) (hnone : c.view w = none) :
    c = ⟨none, none⟩ := by
  obtain ⟨x, _ | ⟨o, r⟩⟩ := c
  · obtain rfl : x = none := hnone
    rfl
  · have how : o = w := hfree (o, r) rfl
    simp [view, how] at hnone

/-- A rollback of another session is not seen. -/
theorem view_rollback_of_ne {v : W} (h : v ≠ w) : (c.rollback w).view v = c.view v := by
  obtain ⟨x, _ | ⟨o, r⟩⟩ := c
  · rfl
  · by_cases how : o = w
    · subst how
      simp [rollback, view, h.symm]
    · simp [rollback, how]

/-- The row has a version `r`. -/
def Has (c : Cell W R) (r : R) : Prop := c.committed = some r ∨ ∃ w, c.pending = some (w, r)

omit [DecidableEq W] in
/-- Nobody holds the row. -/
theorem freeFor_unlocked : (⟨x, none⟩ : Cell W R).FreeFor w := by simp [FreeFor]

@[simp] theorem view_write : (c.write w r).view w = some r := if_pos rfl

theorem has_of_view (h : c.view w = some r) : c.Has r := by
  unfold view at h
  split at h
  · rename_i v r' hpending
    split at h
    · cases h
      exact Or.inr ⟨v, hpending⟩
    · exact Or.inl h
  · exact Or.inl h

omit [DecidableEq W] in
theorem Has.of_write (h : (c.write w o).Has r) : r = o ∨ c.Has r := by
  obtain h | ⟨v, h⟩ := h
  · exact Or.inr (Or.inl h)
  · cases h
    exact Or.inl rfl

theorem Has.of_commit (h : (c.commit w).Has r) : c.Has r := by
  unfold commit at h
  split at h
  · rename_i v r' hpending
    split at h
    · obtain h | ⟨_, h⟩ := h
      · cases h
        exact Or.inr ⟨v, hpending⟩
      · cases h
    · exact h
  · exact h

theorem Has.of_rollback (h : (c.rollback w).Has r) : c.Has r := by
  unfold rollback at h
  split at h
  · split at h
    · obtain h | ⟨_, h⟩ := h
      · exact Or.inl h
      · cases h
    · exact h
  · exact h

end Cell

namespace Table

/-- `w` commits all its rows. -/
def commit (t : Table W K R) (w : W) : Table W K R := fun k => (t k).commit w

/-- `w` rolls all its rows back. -/
def rollback (t : Table W K R) (w : W) : Table W K R := fun k => (t k).rollback w

variable {t : Table W K R} {w : W} {k : K}

@[simp] theorem commit_apply : t.commit w k = (t k).commit w := rfl

@[simp] theorem rollback_apply : t.rollback w k = (t k).rollback w := rfl

variable [DecidableEq K]

/-- `UPDATE .. WHERE key = k`. -/
def modify (t : Table W K R) (w : W) (k : K) (f : R → R) : Table W K R :=
  Function.update t k ((t k).modify w f)

/-- `INSERT` of a row that is not there. -/
def insert (t : Table W K R) (w : W) (k : K) (r : R) : Table W K R :=
  Function.update t k ((t k).write w r)

@[simp] theorem modify_self (f : R → R) : t.modify w k f k = (t k).modify w f :=
  Function.update_self ..

theorem modify_of_ne {k' : K} (h : k' ≠ k) (f : R → R) : t.modify w k f k' = t k' :=
  Function.update_of_ne h ..

omit [DecidableEq W] in
@[simp] theorem insert_self (r : R) : t.insert w k r k = (t k).write w r := Function.update_self ..

omit [DecidableEq W] in
theorem insert_of_ne {k' : K} (h : k' ≠ k) (r : R) : t.insert w k r k' = t k' :=
  Function.update_of_ne h ..

end Table

end CivicProof.Transact
