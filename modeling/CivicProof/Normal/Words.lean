import CivicProof.Normal.Forms
import Mathlib.Data.List.Chain

/-!
# Words

The words of a text, between separators that take part in no composite.

* `words_joined`, `tidy_joined`: joined words are read back, and no separator is left over.
* `words_nfc`: the words of a composed text are the composed words.
* `nfc_joined`: joined words are composed word by word.
-/

namespace CivicProof.Normal

variable {C : Type}

/-- The words of a text. -/
def words (sep : C → Bool) (l : List C) : List (List C) := (l.splitOnP sep).filter fun w => !w.isEmpty

/-- Words with one separator between them. -/
def joined (s : C) : List (List C) → List C
  | [] => []
  | [w] => w
  | w :: ws => w ++ s :: joined s ws

variable {sep : C → Bool} {s : C}

theorem joined_cons {w : List C} {ws : List (List C)} (h : ws ≠ []) :
    joined s (w :: ws) = w ++ s :: joined s ws := by
  cases ws with
  | nil => exact absurd rfl h
  | cons w' ws => rfl

theorem joined_append {ws vs : List (List C)} (hws : ws ≠ []) (hvs : vs ≠ []) :
    joined s (ws ++ vs) = joined s ws ++ s :: joined s vs := by
  induction ws with
  | nil => exact absurd rfl hws
  | cons w ws ih =>
    by_cases hne : ws = []
    · subst hne
      exact joined_cons hvs
    · have happ : ws ++ vs ≠ [] := fun h => hne (List.append_eq_nil_iff.1 h).1
      rw [List.cons_append, joined_cons happ, ih hne, joined_cons hne, List.append_assoc]
      rfl

theorem words_append {w : C} (hw : sep w = true) (l r : List C) :
    words sep (l ++ w :: r) = words sep l ++ words sep r := by
  rw [words, List.splitOnP_append_cons _ _ hw, List.filter_append]
  rfl

theorem words_single {l : List C} (h : ∀ c ∈ l, sep c = false) (hne : l ≠ []) :
    words sep l = [l] := by
  have hkeep : ∀ w ∈ [l], (!w.isEmpty) = true := by simpa using hne
  rw [words, List.splitOnP_eq_singleton h]
  exact List.filter_eq_self.2 hkeep

theorem words_nil : words sep [] = [] := by
  rw [words, List.splitOnP_nil]
  rfl

/-- A text is one word, or has a first separator. -/
theorem separator_cases (sep : C → Bool) (l : List C) : (∀ c ∈ l, sep c = false) ∨
    ∃ x w y, l = x ++ w :: y ∧ sep w = true ∧ ∀ c ∈ x, sep c = false := by
  induction l with
  | nil => exact Or.inl fun c hc => absurd hc List.not_mem_nil
  | cons c l ih =>
    cases hc : sep c with
    | true => exact Or.inr ⟨[], c, l, rfl, hc, fun d hd => absurd hd List.not_mem_nil⟩
    | false =>
      rcases ih with hall | ⟨x, w, y, rfl, hw, hx⟩
      · exact Or.inl (List.forall_mem_cons.2 ⟨hc, hall⟩)
      · exact Or.inr ⟨c :: x, w, y, rfl, hw, List.forall_mem_cons.2 ⟨hc, hx⟩⟩

/-- Induction on the separators of a text. -/
theorem separator_induction (sep : C → Bool) {P : List C → Prop}
    (hword : ∀ l, (∀ c ∈ l, sep c = false) → P l)
    (hsep : ∀ x w y, sep w = true → (∀ c ∈ x, sep c = false) → P y → P (x ++ w :: y)) (l : List C) :
    P l := by
  induction hn : l.length using Nat.strongRecOn generalizing l with
  | _ n ih =>
    rcases separator_cases sep l with hall | ⟨x, w, y, rfl, hw, hx⟩
    · exact hword l hall
    · refine hsep x w y hw hx (ih y.length ?_ y rfl)
      rw [← hn, List.length_append, List.length_cons]
      omega

/-- Words are not empty, and have no separator. -/
theorem words_spec (l : List C) : ∀ w ∈ words sep l, w ≠ [] ∧ ∀ c ∈ w, c ∈ l ∧ sep c = false := by
  induction l using separator_induction sep with
  | hword l hall =>
    intro w hw
    by_cases hne : l = []
    · rw [hne, words_nil] at hw
      exact absurd hw List.not_mem_nil
    · rw [words_single hall hne] at hw
      rw [List.mem_singleton.1 hw]
      exact ⟨hne, fun c hc => ⟨hc, hall c hc⟩⟩
  | hsep x d y hd hx ih =>
    intro w hw
    rw [words_append hd] at hw
    rcases List.mem_append.1 hw with hw | hw
    · by_cases hne : x = []
      · rw [hne, words_nil] at hw
        exact absurd hw List.not_mem_nil
      · rw [words_single hx hne] at hw
        rw [List.mem_singleton.1 hw]
        exact ⟨hne, fun c hc => ⟨List.mem_append_left _ hc, hx c hc⟩⟩
    · have hspec := ih w hw
      exact ⟨hspec.1, fun c hc =>
        ⟨List.mem_append_right _ (List.mem_cons_of_mem _ (hspec.2 c hc).1), (hspec.2 c hc).2⟩⟩

/-- A character that separates nothing stands in a word. -/
theorem mem_words {l : List C} {c : C} (hc : c ∈ l) (hsep : sep c = false) :
    ∃ w ∈ words sep l, c ∈ w := by
  induction l using separator_induction sep with
  | hword l hall =>
    have hne : l ≠ [] := List.ne_nil_of_mem hc
    exact ⟨l, by rw [words_single hall hne]; exact List.mem_singleton_self l, hc⟩
  | hsep x d y hd hx ih =>
    rw [words_append hd]
    rcases List.mem_append.1 hc with hc | hc
    · have hne : x ≠ [] := List.ne_nil_of_mem hc
      exact ⟨x, by rw [words_single hx hne]; exact List.mem_cons_self, hc⟩
    · rcases List.mem_cons.1 hc with rfl | hc
      · rw [hd] at hsep
        cases hsep
      · obtain ⟨w, hw, hcw⟩ := ih hc
        exact ⟨w, List.mem_append_right _ hw, hcw⟩

/-- **Joined words are read back.** -/
theorem words_joined (hs : sep s = true) {ws : List (List C)}
    (hws : ∀ w ∈ ws, w ≠ [] ∧ ∀ c ∈ w, sep c = false) : words sep (joined s ws) = ws := by
  induction ws with
  | nil => exact words_nil
  | cons w ws ih =>
    rw [List.forall_mem_cons] at hws
    have hword := words_single hws.1.2 hws.1.1
    by_cases hne : ws = []
    · subst hne
      exact hword
    · rw [joined_cons hne, words_append hs, hword, ih hws.2]
      rfl

theorem mem_joined {ws : List (List C)} {c : C} (h : c ∈ joined s ws) :
    c = s ∨ ∃ w ∈ ws, c ∈ w := by
  induction ws with
  | nil => exact absurd h List.not_mem_nil
  | cons w ws ih =>
    by_cases hne : ws = []
    · subst hne
      exact Or.inr ⟨w, List.mem_cons_self, h⟩
    · rw [joined_cons hne] at h
      rcases List.mem_append.1 h with h | h
      · exact Or.inr ⟨w, List.mem_cons_self, h⟩
      rcases List.mem_cons.1 h with rfl | h
      · exact Or.inl rfl
      · exact (ih h).imp id fun ⟨w', hw', hc⟩ => ⟨w', List.mem_cons_of_mem _ hw', hc⟩

theorem mem_joined_of_mem {ws : List (List C)} {w : List C} {c : C} (hw : w ∈ ws) (hc : c ∈ w) :
    c ∈ joined s ws := by
  induction ws with
  | nil => exact absurd hw List.not_mem_nil
  | cons w' ws ih =>
    by_cases hne : ws = []
    · subst hne
      rw [List.mem_singleton.1 hw] at hc
      exact hc
    · rw [joined_cons hne]
      rcases List.mem_cons.1 hw with rfl | hw
      · exact List.mem_append_left _ hc
      · exact List.mem_append_right _ (List.mem_cons_of_mem _ (ih hw))

/-! ## Tidy texts -/

/-- No separator at either end, and no two in a row. -/
structure Tidy (sep : C → Bool) (l : List C) : Prop where
  head : ∀ c ∈ l.head?, sep c = false
  last : ∀ c ∈ l.getLast?, sep c = false
  single : l.IsChain fun a b => ¬(sep a = true ∧ sep b = true)

theorem tidy_word {w : List C} (h : ∀ c ∈ w, sep c = false) : Tidy sep w where
  head c hc := h c (List.mem_of_mem_head? hc)
  last c hc := h c (List.mem_of_getLast? hc)
  single := by
    induction w with
    | nil => exact List.IsChain.nil
    | cons a w ih =>
      rw [List.forall_mem_cons] at h
      refine List.isChain_cons.2 ⟨fun b _ hab => ?_, ih h.2⟩
      exact Bool.false_ne_true (h.1.symm.trans hab.1)

/-- One separator between tidy texts. -/
theorem Tidy.append {l r : List C} (hl : Tidy sep l) (hr : Tidy sep r) (hl' : l ≠ []) (hr' : r ≠ [])
    (s : C) : Tidy sep (l ++ s :: r) where
  head c hc := by
    rw [List.head?_append_of_ne_nil _ hl'] at hc
    exact hl.head c hc
  last c hc := by
    rw [List.getLast?_append_of_ne_nil _ (List.cons_ne_nil _ _),
      ← List.singleton_append, List.getLast?_append_of_ne_nil _ hr'] at hc
    exact hr.last c hc
  single := by
    refine hl.single.append (hr.single.cons fun b hb hsb => ?_) fun a ha b _ hab => ?_
    · exact Bool.false_ne_true ((hr.head b hb).symm.trans hsb.2)
    · exact Bool.false_ne_true ((hl.last a ha).symm.trans hab.1)

/-- **Joined words are tidy.** -/
theorem tidy_joined {ws : List (List C)} (hws : ∀ w ∈ ws, w ≠ [] ∧ ∀ c ∈ w, sep c = false) :
    Tidy sep (joined s ws) := by
  induction ws with
  | nil => exact tidy_word fun c hc => absurd hc List.not_mem_nil
  | cons w ws ih =>
    rw [List.forall_mem_cons] at hws
    by_cases hne : ws = []
    · subst hne
      exact tidy_word hws.1.2
    · rw [joined_cons hne]
      refine (tidy_word hws.1.2).append (ih hws.2) hws.1.1 (fun hnil => ?_) s
      obtain ⟨w', hw'⟩ := List.exists_mem_of_ne_nil ws hne
      obtain ⟨c, hc⟩ := List.exists_mem_of_ne_nil w' (hws.2 w' hw').1
      have hmem := mem_joined_of_mem (s := s) hw' hc
      rw [hnil] at hmem
      exact absurd hmem List.not_mem_nil

/-! ## Words and composition -/

/-- **Joined words** are composed word by word. -/
theorem nfc_joined {D : Charset C} (hs : D.decomp s = [s]) (hdiv : D.Divider s) (ws : List (List C)) :
    D.nfc (joined s ws) = joined s (ws.map D.nfc) := by
  induction ws with
  | nil => rfl
  | cons w ws ih =>
    by_cases hne : ws = []
    · subst hne
      rfl
    · have hmap : ws.map D.nfc ≠ [] := fun hnil => hne (List.map_eq_nil_iff.1 hnil)
      rw [joined_cons hne, List.map_cons, joined_cons hmap, Charset.nfc_split hs hdiv, ih]

/-- Separators that take part in no composite, and come from separators only. -/
structure Separates (D : Charset C) (sep : C → Bool) : Prop where
  divider : ∀ w, sep w = true → ∃ w', D.decomp w = [w'] ∧ sep w' = true ∧ D.Divider w'
  decomp : ∀ c, sep c = false → ∀ d ∈ D.decomp c, sep d = false
  pair : ∀ a b c, D.pair a b = some c → sep c = false

namespace Separates

variable {D : Charset C} (h : Separates D sep)

include h

theorem nfc_word {l : List C} (hl : ∀ c ∈ l, sep c = false) : ∀ c ∈ D.nfc l, sep c = false := by
  refine Charset.forall_mem_compose h.pair fun d hd => ?_
  obtain ⟨c, hc, hd⟩ := List.mem_flatMap.1 (Charset.mem_order.1 hd)
  exact h.decomp c (hl c hc) d hd

/-- **The words of a composed text** are the composed words. -/
theorem words_nfc (l : List C) : words sep (D.nfc l) = (words sep l).map D.nfc := by
  have hword : ∀ l : List C, (∀ c ∈ l, sep c = false) →
      words sep (D.nfc l) = (words sep l).map D.nfc := by
    intro l hl
    by_cases hne : l = []
    · subst hne
      exact words_nil
    · rw [words_single hl hne,
        words_single (h.nfc_word hl) fun hnil => hne (Charset.nfc_eq_nil hnil)]
      rfl
  induction l using separator_induction sep with
  | hword l hl => exact hword l hl
  | hsep x w y hw hx ih =>
    obtain ⟨w', hdecomp, hw', hdiv⟩ := h.divider w hw
    rw [Charset.nfc_split hdecomp hdiv, words_append hw', words_append hw, ih, hword x hx,
      List.map_append]

end Separates

end CivicProof.Normal
