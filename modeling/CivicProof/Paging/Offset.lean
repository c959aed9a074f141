import CivicProof.Paging.Walk

/-!
# Pages by offset

A list is served in pages of `n` items, some of which are kept. A walk over its pages ends at the
first one with fewer than `n` kept items.

* `exists_offset_walk`: there is a walk from every offset.
* `offset_walk_kept_iff`: it meets every kept item iff the kept items stand in front (`Front`).
-/

namespace CivicProof.Paging

variable {α β E : Type}

/-- The pages of `l`, up to one with fewer than `n` items that `keep` keeps. -/
def offsetFeed (E : Type) (keep : α → Option β) (n : ℕ) (l : List α) : Feed ℕ (List α) E where
  page o := .ok ((l.drop o).take n)
  next o page := .ok (if (page.filterMap keep).length < n then none else some (o + n))

/-- The kept items stand in front: all items on the pages before that of a kept one are kept. -/
def Front (keep : α → Option β) (n : ℕ) (l : List α) : Prop :=
  ∀ i j a b, l[i]? = some a → l[j]? = some b → i / n < j / n → (keep b).isSome → (keep a).isSome

variable {keep : α → Option β} {n : ℕ} {l : List α}

/-- A first page of kept items leaves the question to the others. -/
theorem front_full (hn : 0 < n) (h : n ≤ ((l.take n).filterMap keep).length) :
    Front keep n l ↔ Front keep n (l.drop n) := by
  have hkept : ∀ a ∈ l.take n, (keep a).isSome := by
    have hle := List.length_take_le n l
    have hlen := List.length_filterMap_le keep (l.take n)
    exact List.filterMap_length_eq_length.1 (by omega)
  constructor
  · intro hfront i j a b ha hb hij hkeep
    rw [List.getElem?_drop] at ha hb
    refine hfront (n + i) (n + j) a b ha hb ?_ hkeep
    rw [Nat.add_div_left _ hn, Nat.add_div_left _ hn]
    exact Nat.succ_lt_succ hij
  · intro hfront i j a b ha hb hij hkeep
    by_cases hi : i < n
    · exact hkept a (List.mem_of_getElem? (by rwa [List.getElem?_take_of_lt hi]))
    · have hj : n ≤ j := by
        by_contra hj
        rw [Nat.div_eq_of_lt (not_le.1 hj)] at hij
        exact Nat.not_lt_zero _ hij
      obtain ⟨i, rfl⟩ := Nat.exists_eq_add_of_le (not_lt.1 hi)
      obtain ⟨j, rfl⟩ := Nat.exists_eq_add_of_le hj
      rw [Nat.add_div_left _ hn, Nat.add_div_left _ hn] at hij
      rw [← List.getElem?_drop] at ha hb
      exact hfront i j a b ha hb (Nat.lt_of_succ_lt_succ hij) hkeep

/-- After a first page that is short of kept items there must be none. -/
theorem front_short (hn : 0 < n) (h : ((l.take n).filterMap keep).length < n) :
    Front keep n l ↔ (l.drop n).filterMap keep = [] := by
  rw [List.filterMap_eq_nil_iff]
  constructor
  · intro hfront b hb
    obtain ⟨j, hj⟩ := List.mem_iff_getElem?.1 hb
    rw [List.getElem?_drop] at hj
    by_contra hkeep
    -- the first page is complete, so one of its items is not kept
    have hlen : (l.take n).length = n := by
      rw [List.length_take]
      have := (List.getElem?_eq_some_iff.1 hj).1
      omega
    have hall : ∀ a ∈ l.take n, (keep a).isSome := by
      intro a ha
      obtain ⟨i, hi⟩ := List.mem_iff_getElem?.1 ha
      have hin : i < n := hlen ▸ (List.getElem?_eq_some_iff.1 hi).1
      rw [List.getElem?_take_of_lt hin] at hi
      refine hfront i (n + j) a b hi hj ?_ (Option.isSome_iff_ne_none.2 hkeep)
      rw [Nat.div_eq_of_lt hin, Nat.add_div_left _ hn]
      exact Nat.succ_pos _
    have hfull := List.filterMap_length_eq_length.2 hall
    omega
  · intro hnone i j a b _ hb hij hkeep
    have hj : n ≤ j := by
      by_contra hj
      rw [Nat.div_eq_of_lt (not_le.1 hj)] at hij
      exact Nat.not_lt_zero _ hij
    obtain ⟨j, rfl⟩ := Nat.exists_eq_add_of_le hj
    rw [← List.getElem?_drop] at hb
    rw [hnone b (List.mem_of_getElem? hb)] at hkeep
    exact absurd hkeep (by simp)

/-- **The walk ends**: a page of kept items is a page of the list. -/
theorem exists_offset_walk (hn : 0 < n) (o : ℕ) : ∃ w, (offsetFeed E keep n l).Walk o w := by
  induction hd : l.length - o using Nat.strong_induction_on generalizing o with
  | _ d ih =>
    by_cases hshort : (((l.drop o).take n).filterMap keep).length < n
    · exact ⟨_, .last rfl (congrArg Except.ok (if_pos hshort))⟩
    · have hlen := List.length_filterMap_le keep ((l.drop o).take n)
      rw [List.length_take, List.length_drop] at hlen
      obtain ⟨w, hw⟩ := ih (l.length - (o + n)) (by omega) (o + n) rfl
      exact ⟨_, .more rfl (congrArg Except.ok (if_neg hshort)) hw⟩

theorem offset_walk_kept_prefix {o : ℕ} {w : List (ℕ × List α)}
    (h : (offsetFeed E keep n l).Walk o w) :
    (w.flatMap fun e => e.2.filterMap keep) <+: (l.drop o).filterMap keep := by
  induction h with
  | @last o page hp _ =>
    obtain rfl : (l.drop o).take n = page := Except.ok.inj hp
    simpa using (List.take_prefix n (l.drop o)).filterMap keep
  | @more o page v w hp hnext _ ih =>
    obtain rfl : (l.drop o).take n = page := Except.ok.inj hp
    by_cases hshort : (((l.drop o).take n).filterMap keep).length < n
    · simp [offsetFeed, hshort] at hnext
    · obtain rfl : o + n = v := by simpa [offsetFeed, hshort] using hnext
      rw [List.flatMap_cons, ← List.take_append_drop n (l.drop o), List.filterMap_append,
        List.drop_drop]
      simpa using ih

/-- **What the walk meets.** -/
theorem offset_walk_kept_iff (hn : 0 < n) {o : ℕ} {w : List (ℕ × List α)}
    (h : (offsetFeed E keep n l).Walk o w) :
    (w.flatMap fun e => e.2.filterMap keep) = (l.drop o).filterMap keep ↔
      Front keep n (l.drop o) := by
  induction h with
  | @last o page hp hnext =>
    obtain rfl : (l.drop o).take n = page := Except.ok.inj hp
    have hsplit := congrArg (List.filterMap keep) (List.take_append_drop n (l.drop o))
    rw [List.filterMap_append] at hsplit
    by_cases hshort : (((l.drop o).take n).filterMap keep).length < n
    · rw [front_short hn hshort, ← hsplit]
      simp
    · simp [offsetFeed, hshort] at hnext
  | @more o page v w hp hnext hw ih =>
    obtain rfl : (l.drop o).take n = page := Except.ok.inj hp
    have hsplit := congrArg (List.filterMap keep) (List.take_append_drop n (l.drop o))
    rw [List.filterMap_append, List.drop_drop] at hsplit
    by_cases hshort : (((l.drop o).take n).filterMap keep).length < n
    · simp [offsetFeed, hshort] at hnext
    · obtain rfl : o + n = v := by simpa [offsetFeed, hshort] using hnext
      rw [front_full hn (not_lt.1 hshort), List.drop_drop, ← ih, ← hsplit]
      simp

end CivicProof.Paging
