import Mathlib.Data.List.Basic
import Mathlib.Tactic.Tauto

/-!
# Normal forms of texts with combining characters

Canonical decomposition and composition over an arbitrary alphabet: characters have a combining
class, zero for a starter, a full decomposition, and pairs of them may compose.

* `order_swap`: marks of different classes may change places.
* `nfd_nfc`: composing keeps the canonical decomposition, so `nfc_nfc`.
* `nfc_split`: a starter that never composes divides a text.
-/

namespace CivicProof.Normal

/-- The data of a normalisation. -/
structure Charset (C : Type) where
  ccc : C → ℕ
  /-- The full canonical decomposition of a character, before reordering. -/
  decomp : C → List C
  /-- The primary composite of two characters. -/
  pair : C → C → Option C
  decomp_ne_nil : ∀ c, decomp c ≠ []
  decomp_decomp : ∀ c, ∀ d ∈ decomp c, decomp d = [d]
  decomp_pair : ∀ a b c, pair a b = some c → decomp c = decomp a ++ decomp b

namespace Charset

variable {C : Type} (D : Charset C)

/-! ## Canonical order -/

/-- A character before an ordered text: it passes the marks of lower classes. -/
def insertMark (c : C) : List C → List C
  | [] => [c]
  | d :: l => if 0 < D.ccc d ∧ D.ccc d < D.ccc c then d :: insertMark c l else c :: d :: l

/-- The canonical order: every run of marks, sorted by class, equal classes as they stood. -/
def order : List C → List C
  | [] => []
  | c :: l => D.insertMark c (order l)

variable {D}

theorem insertMark_pass {c d : C} (h : 0 < D.ccc d ∧ D.ccc d < D.ccc c) (l : List C) :
    D.insertMark c (d :: l) = d :: D.insertMark c l := if_pos h

theorem insertMark_stop {c d : C} (h : ¬(0 < D.ccc d ∧ D.ccc d < D.ccc c)) (l : List C) :
    D.insertMark c (d :: l) = c :: d :: l := if_neg h

theorem insertMark_length (c : C) (l : List C) : (D.insertMark c l).length = l.length + 1 := by
  induction l with
  | nil => rfl
  | cons d l ih =>
    rw [insertMark]
    split
    · rw [List.length_cons, ih, List.length_cons]
    · rfl

theorem order_length (l : List C) : (D.order l).length = l.length := by
  induction l with
  | nil => rfl
  | cons c l ih => rw [order, insertMark_length, ih, List.length_cons]

theorem mem_insertMark {a c : C} {l : List C} : a ∈ D.insertMark c l ↔ a = c ∨ a ∈ l := by
  induction l with
  | nil => rw [insertMark, List.mem_singleton]; simp
  | cons d l ih =>
    rw [insertMark]
    split
    · rw [List.mem_cons, ih, List.mem_cons]
      exact or_left_comm
    · rw [List.mem_cons]

theorem mem_order {a : C} {l : List C} : a ∈ D.order l ↔ a ∈ l := by
  induction l with
  | nil => rfl
  | cons c l ih => rw [order, mem_insertMark, ih, List.mem_cons]

/-- Two marks of different classes are inserted in either order. -/
theorem insertMark_comm {a b : C} (ha : 0 < D.ccc a) (hab : D.ccc a < D.ccc b) (l : List C) :
    D.insertMark a (D.insertMark b l) = D.insertMark b (D.insertMark a l) := by
  have hba : ¬(0 < D.ccc b ∧ D.ccc b < D.ccc a) := by omega
  induction l with
  | nil =>
    change D.insertMark a [b] = D.insertMark b [a]
    rw [insertMark_stop hba, insertMark_pass ⟨ha, hab⟩]
    rfl
  | cons d l ih =>
    by_cases hda : 0 < D.ccc d ∧ D.ccc d < D.ccc a
    · have hdb : 0 < D.ccc d ∧ D.ccc d < D.ccc b := by omega
      rw [insertMark_pass hdb, insertMark_pass hda, ih, insertMark_pass hda, insertMark_pass hdb]
    · rw [insertMark_stop hda, insertMark_pass ⟨ha, hab⟩]
      by_cases hdb : 0 < D.ccc d ∧ D.ccc d < D.ccc b
      · rw [insertMark_pass hdb, insertMark_stop hda]
      · rw [insertMark_stop hdb, insertMark_stop hba]

theorem order_congr {x y : List C} (h : D.order x = D.order y) (p : List C) :
    D.order (p ++ x) = D.order (p ++ y) := by
  induction p with
  | nil => exact h
  | cons c p ih => rw [List.cons_append, List.cons_append, order, order, ih]

/-- **Marks of different classes** may change places. -/
theorem order_swap {a b : C} (ha : 0 < D.ccc a) (hb : 0 < D.ccc b) (hab : D.ccc a ≠ D.ccc b)
    (l : List C) : D.order (a :: b :: l) = D.order (b :: a :: l) := by
  simp only [order]
  rcases Nat.lt_or_gt_of_ne hab with h | h
  · exact insertMark_comm ha h _
  · exact (insertMark_comm hb h _).symm

/-- A mark may pass a run of marks of lower classes. -/
theorem order_past {c : C} {marks : List C} (h : ∀ b ∈ marks, 0 < D.ccc b ∧ D.ccc b < D.ccc c)
    (l : List C) : D.order (c :: (marks ++ l)) = D.order (marks ++ c :: l) := by
  induction marks with
  | nil => rfl
  | cons b marks ih =>
    rw [List.forall_mem_cons] at h
    have hpos : 0 < D.ccc c := by omega
    rw [List.cons_append, order_swap hpos h.1.1 (by omega), List.cons_append]
    exact order_congr (ih h.2) [b]

theorem order_insertMark (c : C) (l : List C) :
    D.order (D.insertMark c l) = D.insertMark c (D.order l) := by
  induction l with
  | nil => rfl
  | cons d l ih =>
    rw [insertMark]
    split
    · rename_i hd
      rw [order, ih, order, insertMark_comm hd.1 hd.2]
    · rfl

/-- An ordered text is in order. -/
theorem order_order (l : List C) : D.order (D.order l) = D.order l := by
  induction l with
  | nil => rfl
  | cons c l ih => rw [order, order_insertMark, ih]

/-- Characters may be left out before or after ordering. -/
theorem order_filter (p : C → Bool) (l : List C) :
    D.order ((D.order l).filter p) = D.order (l.filter p) := by
  have hinsert : ∀ (c : C) (l : List C),
      D.order ((D.insertMark c l).filter p) = D.order ((c :: l).filter p) := by
    intro c l
    induction l with
    | nil => rfl
    | cons d l ih =>
      rw [insertMark]
      split
      · rename_i hd
        have hcons : ∀ x : List C, D.order ((d :: x).filter p) =
            if p d then D.insertMark d (D.order (x.filter p)) else D.order (x.filter p) := by
          intro x
          rw [List.filter_cons]
          split <;> rfl
        rw [hcons, ih]
        by_cases hpc : p c
        · by_cases hpd : p d
          · rw [if_pos hpd, List.filter_cons_of_pos hpc, List.filter_cons_of_pos hpc,
              List.filter_cons_of_pos hpd, order, order, order, insertMark_comm hd.1 hd.2]
          · rw [if_neg hpd, List.filter_cons_of_pos hpc, List.filter_cons_of_pos hpc,
              List.filter_cons_of_neg hpd]
        · rw [List.filter_cons_of_neg hpc, List.filter_cons_of_neg hpc, hcons]
      · rfl
  induction l with
  | nil => rfl
  | cons c l ih =>
    rw [order, hinsert]
    by_cases hpc : p c
    · rw [List.filter_cons_of_pos hpc, List.filter_cons_of_pos hpc, order, order, ih]
    · rw [List.filter_cons_of_neg hpc, List.filter_cons_of_neg hpc, ih]

theorem insertMark_append {w : C} (hw : D.ccc w = 0) (c : C) (l r : List C) :
    D.insertMark c (l ++ w :: r) = D.insertMark c l ++ w :: r := by
  have hstop : ¬(0 < D.ccc w ∧ D.ccc w < D.ccc c) := by omega
  induction l with
  | nil => exact insertMark_stop hstop r
  | cons d l ih =>
    rw [List.cons_append]
    by_cases hd : 0 < D.ccc d ∧ D.ccc d < D.ccc c
    · rw [insertMark_pass hd, insertMark_pass hd, ih, List.cons_append]
    · rw [insertMark_stop hd, insertMark_stop hd]
      rfl

/-- A starter divides a text. -/
theorem order_append {w : C} (hw : D.ccc w = 0) (l r : List C) :
    D.order (l ++ w :: r) = D.order l ++ w :: D.order r := by
  induction l with
  | nil =>
    rw [List.nil_append, order, order, List.nil_append]
    cases hr : D.order r with
    | nil => rfl
    | cons d x =>
      have hstop : ¬(0 < D.ccc d ∧ D.ccc d < D.ccc w) := by omega
      exact insertMark_stop hstop x
  | cons c l ih => rw [List.cons_append, order, ih, insertMark_append hw, order]

/-! ## Decomposition -/

variable (D) in
/-- The canonical decomposition of a text. -/
def nfd (l : List C) : List C := D.order (l.flatMap D.decomp)

variable (D) in
/-- Characters that stand for themselves. -/
def Atomic (l : List C) : Prop := ∀ c ∈ l, D.decomp c = [c]

theorem Atomic.flatMap {l : List C} (h : D.Atomic l) : l.flatMap D.decomp = l := by
  induction l with
  | nil => rfl
  | cons c l ih =>
    rw [Atomic, List.forall_mem_cons] at h
    rw [List.flatMap_cons, h.1, ih h.2]
    rfl

theorem atomic_decomp (l : List C) : D.Atomic (l.flatMap D.decomp) := by
  intro d hd
  obtain ⟨c, -, hd⟩ := List.mem_flatMap.1 hd
  exact D.decomp_decomp c d hd

theorem atomic_nfd (l : List C) : D.Atomic (D.nfd l) :=
  fun d hd => atomic_decomp l d (mem_order.1 hd)

theorem nfd_eq_nil {l : List C} (h : D.nfd l = []) : l = [] := by
  have hlen := order_length (D := D) (l.flatMap D.decomp)
  have hnfd : D.order (l.flatMap D.decomp) = [] := h
  rw [hnfd] at hlen
  cases l with
  | nil => rfl
  | cons c l =>
    have hnil := (List.append_eq_nil_iff.1 (List.length_eq_zero_iff.1 hlen.symm)).1
    exact absurd hnil (D.decomp_ne_nil c)

/-- Texts with the same canonical decomposition keep it when characters are left out, as long as
none is left out in part. -/
theorem nfd_filter {p : C → Bool} {l l' : List C}
    (hl : ∀ c ∈ l, ∀ d ∈ D.decomp c, p d = p c) (hl' : ∀ c ∈ l', ∀ d ∈ D.decomp c, p d = p c)
    (h : D.nfd l = D.nfd l') : D.nfd (l.filter p) = D.nfd (l'.filter p) := by
  have hdecomp : ∀ {x : List C}, (∀ c ∈ x, ∀ d ∈ D.decomp c, p d = p c) →
      (x.filter p).flatMap D.decomp = (x.flatMap D.decomp).filter p := by
    intro x hx
    induction x with
    | nil => rfl
    | cons c x ih =>
      rw [List.forall_mem_cons] at hx
      rw [List.flatMap_cons, List.filter_append, ← ih hx.2]
      by_cases hpc : p c
      · have hall : (D.decomp c).filter p = D.decomp c :=
          List.filter_eq_self.2 fun d hd => (hx.1 d hd).trans hpc
        rw [List.filter_cons_of_pos hpc, List.flatMap_cons, hall]
      · have hnone : (D.decomp c).filter p = [] :=
          List.filter_eq_nil_iff.2 fun d hd hpd => hpc ((hx.1 d hd).symm.trans hpd)
        rw [List.filter_cons_of_neg hpc, hnone, List.nil_append]
  unfold nfd at h ⊢
  rw [hdecomp hl, hdecomp hl', ← order_filter, h, order_filter]

/-! ## Composition -/

variable (D) in
/-- Composition after a starter, with the marks between it and the rest that did not compose. A
character is blocked by a mark of its class or a higher one. -/
def composeFrom (starter : C) (marks : List C) : List C → List C
  | [] => starter :: marks
  | c :: rest =>
    match if ∀ b ∈ marks, 0 < D.ccc b ∧ D.ccc b < D.ccc c then D.pair starter c else none with
    | some p => composeFrom p marks rest
    | none =>
      if D.ccc c = 0 then starter :: (marks ++ composeFrom c [] rest)
      else composeFrom starter (marks ++ [c]) rest

variable (D) in
/-- Composition of a decomposed text. -/
def compose : List C → List C
  | [] => []
  | c :: rest => if D.ccc c = 0 then D.composeFrom c [] rest else c :: compose rest

variable (D) in
/-- The canonical composition of a text. -/
def nfc (l : List C) : List C := D.compose (D.nfd l)

/-- What holds of the characters of a text, and of every composite, holds of those composed. -/
theorem forall_mem_compose {P : C → Prop} (hP : ∀ a b c, D.pair a b = some c → P c) {l : List C}
    (hl : ∀ c ∈ l, P c) : ∀ c ∈ D.compose l, P c := by
  have hfrom : ∀ (l : List C) (starter : C) (marks : List C), P starter → (∀ c ∈ marks, P c) →
      (∀ c ∈ l, P c) → ∀ c ∈ D.composeFrom starter marks l, P c := by
    intro l
    induction l with
    | nil =>
      intro starter marks hs hm _ c hc
      rcases List.mem_cons.1 hc with rfl | hc
      · exact hs
      · exact hm c hc
    | cons c rest ih =>
      intro starter marks hs hm hl
      rw [List.forall_mem_cons] at hl
      rw [composeFrom]
      split
      · rename_i p hpair
        split at hpair
        · exact ih p marks (hP _ _ _ hpair) hm hl.2
        · cases hpair
      split
      · intro d hd
        rcases List.mem_cons.1 hd with rfl | hd
        · exact hs
        rcases List.mem_append.1 hd with hd | hd
        · exact hm d hd
        · exact ih c [] hl.1 (fun _ h => absurd h List.not_mem_nil) hl.2 d hd
      · refine ih starter (marks ++ [c]) hs (fun d hd => ?_) hl.2
        rcases List.mem_append.1 hd with hd | hd
        · exact hm d hd
        · rw [List.mem_singleton.1 hd]
          exact hl.1
  induction l with
  | nil => exact fun c hc => absurd hc List.not_mem_nil
  | cons c rest ih =>
    rw [List.forall_mem_cons] at hl
    rw [compose]
    split
    · exact hfrom rest c [] hl.1 (fun _ h => absurd h List.not_mem_nil) hl.2
    · exact List.forall_mem_cons.2 ⟨hl.1, ih hl.2⟩

/-- A character that takes part in no composite stays. -/
theorem mem_compose {n : C} (hleft : ∀ b, D.pair n b = none) (hright : ∀ a, D.pair a n = none)
    {l : List C} (hn : n ∈ l) : n ∈ D.compose l := by
  have hfrom : ∀ (l : List C) (starter : C) (marks : List C),
      n ∈ starter :: (marks ++ l) → n ∈ D.composeFrom starter marks l := by
    intro l
    induction l with
    | nil =>
      intro starter marks hn
      rwa [List.append_nil] at hn
    | cons c rest ih =>
      intro starter marks hn
      rw [composeFrom]
      split
      · rename_i p hpair
        split at hpair
        · refine ih p marks ?_
          have hs : n ≠ starter := by
            rintro rfl
            rw [hleft] at hpair
            cases hpair
          have hc : n ≠ c := by
            rintro rfl
            rw [hright] at hpair
            cases hpair
          simp only [List.mem_cons, List.mem_append] at hn ⊢
          tauto
        · cases hpair
      split
      · rcases List.mem_cons.1 hn with rfl | hn
        · exact List.mem_cons_self
        rcases List.mem_append.1 hn with hn | hn
        · exact List.mem_cons_of_mem _ (List.mem_append_left _ hn)
        · exact List.mem_cons_of_mem _ (List.mem_append_right _ (ih c [] hn))
      · refine ih starter (marks ++ [c]) ?_
        rwa [List.append_assoc]
  induction l with
  | nil => exact absurd hn List.not_mem_nil
  | cons c rest ih =>
    rw [compose]
    split
    · exact hfrom rest c [] hn
    · rcases List.mem_cons.1 hn with rfl | hn
      · exact List.mem_cons_self
      · exact List.mem_cons_of_mem _ (ih hn)

/-- Composing after a starter keeps the canonical decomposition. -/
theorem nfd_composeFrom {l : List C} (starter : C) {marks : List C} (hm : D.Atomic marks)
    (hl : D.Atomic l) :
    D.nfd (D.composeFrom starter marks l) = D.order (D.decomp starter ++ (marks ++ l)) := by
  induction l generalizing starter marks with
  | nil => rw [composeFrom, nfd, List.flatMap_cons, hm.flatMap, List.append_nil]
  | cons c rest ih =>
    rw [Atomic, List.forall_mem_cons] at hl
    rw [composeFrom]
    split
    · rename_i p hpair
      split at hpair
      · rename_i hfree
        -- the composed mark goes back past the marks that did not block it
        rw [ih p hm hl.2, D.decomp_pair _ _ _ hpair, hl.1, List.append_assoc]
        exact order_congr (order_past hfree rest) _
      · cases hpair
    split
    · have hnil : D.Atomic [] := fun _ h => absurd h List.not_mem_nil
      have hrest := ih c hnil hl.2
      rw [hl.1] at hrest
      rw [nfd, List.flatMap_cons, List.flatMap_append, hm.flatMap]
      exact order_congr (order_congr hrest marks) _
    · have hm' : D.Atomic (marks ++ [c]) := by
        intro d hd
        rcases List.mem_append.1 hd with hd | hd
        · exact hm d hd
        · rw [List.mem_singleton.1 hd]
          exact hl.1
      rw [ih starter hm' hl.2, List.append_assoc]
      rfl

theorem nfd_compose {l : List C} (hl : D.Atomic l) : D.nfd (D.compose l) = D.order l := by
  induction l with
  | nil => rfl
  | cons c rest ih =>
    rw [Atomic, List.forall_mem_cons] at hl
    rw [compose]
    split
    · rw [nfd_composeFrom c (fun _ h => absurd h List.not_mem_nil) hl.2, hl.1]
      rfl
    · rw [nfd, List.flatMap_cons, hl.1]
      exact order_congr (ih hl.2) [c]

/-- **Composing keeps the canonical decomposition.** -/
theorem nfd_nfc (l : List C) : D.nfd (D.nfc l) = D.nfd l := by
  rw [nfc, nfd_compose (atomic_nfd l)]
  exact order_order _

/-- Composing twice is composing once. -/
theorem nfc_nfc (l : List C) : D.nfc (D.nfc l) = D.nfc l := by
  rw [nfc, nfd_nfc]
  rfl

theorem nfc_eq_nil {l : List C} (h : D.nfc l = []) : l = [] := by
  have hnfd := nfd_nfc (D := D) l
  rw [h] at hnfd
  exact nfd_eq_nil hnfd.symm

/-! ## Dividing a text -/

variable (D) in
/-- A starter that takes part in no composite. -/
structure Divider (w : C) : Prop where
  ccc : D.ccc w = 0
  left : ∀ b, D.pair w b = none
  right : ∀ a, D.pair a w = none

theorem composeFrom_divider {w : C} (hw : D.Divider w) (marks l : List C) :
    D.composeFrom w marks l = w :: (marks ++ D.compose l) := by
  induction l generalizing marks with
  | nil => rw [composeFrom, compose, List.append_nil]
  | cons c rest ih =>
    have hnone : (if ∀ b ∈ marks, 0 < D.ccc b ∧ D.ccc b < D.ccc c then D.pair w c else none) =
        none := by
      rw [hw.left, ite_self]
    rw [composeFrom, hnone, compose]
    dsimp only
    split
    · rfl
    · rw [ih, List.append_assoc]
      rfl

theorem compose_append {w : C} (hw : D.Divider w) (l r : List C) :
    D.compose (l ++ w :: r) = D.compose l ++ w :: D.compose r := by
  have hfrom : ∀ (l : List C) (starter : C) (marks : List C),
      D.composeFrom starter marks (l ++ w :: r) =
        D.composeFrom starter marks l ++ w :: D.compose r := by
    intro l
    induction l with
    | nil =>
      intro starter marks
      have hnone : (if ∀ b ∈ marks, 0 < D.ccc b ∧ D.ccc b < D.ccc w then D.pair starter w
          else none) = none := by
        rw [hw.right, ite_self]
      have hstep : D.composeFrom starter marks (w :: r) =
          starter :: (marks ++ D.composeFrom w [] r) := by
        rw [composeFrom, hnone]
        exact if_pos hw.ccc
      rw [List.nil_append, hstep, composeFrom_divider hw]
      rfl
    | cons c rest ih =>
      intro starter marks
      rw [List.cons_append, composeFrom, composeFrom]
      split
      · exact ih _ marks
      split
      · rw [ih, List.cons_append, List.append_assoc]
      · exact ih starter _
  induction l with
  | nil =>
    have hstep : D.compose (w :: r) = D.composeFrom w [] r := if_pos hw.ccc
    rw [List.nil_append, hstep, composeFrom_divider hw]
    rfl
  | cons c rest ih =>
    rw [List.cons_append, compose, compose]
    split
    · exact hfrom rest c []
    · rw [ih, List.cons_append]

/-- **A divider divides a text**: what stands on its sides is composed apart. -/
theorem nfc_split {w w' : C} (hw : D.decomp w = [w']) (hw' : D.Divider w') (l r : List C) :
    D.nfc (l ++ w :: r) = D.nfc l ++ w' :: D.nfc r := by
  have hnfd : D.nfd (l ++ w :: r) = D.nfd l ++ w' :: D.nfd r := by
    rw [nfd, List.flatMap_append, List.flatMap_cons, hw, List.singleton_append,
      order_append hw'.ccc]
    rfl
  rw [nfc, hnfd, compose_append hw']
  rfl

end Charset

end CivicProof.Normal
