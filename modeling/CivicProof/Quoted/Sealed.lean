import Mathlib.Data.List.Infix

/-!
# Quoted text

Text between quotes in which a backslash takes the next character with it. A sealed text has no
quote of its own, so the first quote after it closes it.

* `Sealed.split`: two sealed texts, each closed by a quote, are compared piece by piece.
* `quote_suffix_append`, `infix_cons_iff`: where a text that begins with a quote may stand.
-/

namespace CivicProof.Quoted

/-- The text up to the first quote that no backslash takes, and what follows the quote. -/
def cutQuote : List Char → Option (List Char × List Char)
  | [] => none
  | '"' :: rest => some ([], rest)
  | '\\' :: c :: rest => (cutQuote rest).map fun p => ('\\' :: c :: p.1, p.2)
  | c :: rest => (cutQuote rest).map fun p => (c :: p.1, p.2)

/-- A text that ends no quotation and takes nothing of what follows it. -/
def Sealed (l : List Char) : Prop :=
  ∀ rest, cutQuote (l ++ rest) = (cutQuote rest).map fun p => (l ++ p.1, p.2)

namespace Sealed

theorem nil : Sealed [] := by
  intro rest
  rw [List.nil_append]
  cases cutQuote rest <;> rfl

theorem append {l l' : List Char} (h : Sealed l) (h' : Sealed l') : Sealed (l ++ l') := by
  intro rest
  rw [List.append_assoc, h, h', Option.map_map]
  cases cutQuote rest with
  | none => rfl
  | some p => simp

theorem singleton {c : Char} (hquote : c ≠ '"') (hback : c ≠ '\\') : Sealed [c] := by
  intro rest
  rw [List.singleton_append, cutQuote]
  · rfl
  · exact fun h => hquote h
  · exact fun d rest' h _ => hback h

theorem pair (c : Char) : Sealed ['\\', c] := by
  intro rest
  rw [List.cons_append, List.singleton_append, cutQuote]
  rfl

/-- A text none of whose characters is a quote or a backslash. -/
theorem of_forall {l : List Char} (h : ∀ c ∈ l, c ≠ '"' ∧ c ≠ '\\') : Sealed l := by
  induction l with
  | nil => exact nil
  | cons c l ih =>
    rw [List.forall_mem_cons] at h
    exact (singleton h.1.1 h.1.2).append (ih h.2)

theorem flatMap {α : Type} {f : α → List Char} {l : List α} (h : ∀ a ∈ l, Sealed (f a)) :
    Sealed (l.flatMap f) := by
  induction l with
  | nil => exact nil
  | cons a l ih =>
    rw [List.forall_mem_cons] at h
    rw [List.flatMap_cons]
    exact h.1.append (ih h.2)

/-- The first quote after a sealed text closes it. -/
theorem cutQuote_eq {l : List Char} (h : Sealed l) (rest : List Char) :
    cutQuote (l ++ '"' :: rest) = some (l, rest) := by
  rw [h, cutQuote, Option.map_some, List.append_nil]

/-- **Closed texts that agree** agree before the quote and after it. -/
theorem split {l l' x y : List Char} (h : Sealed l) (h' : Sealed l')
    (heq : l ++ '"' :: x = l' ++ '"' :: y) : l = l' ∧ x = y := by
  have hcut := h.cutQuote_eq x
  rw [heq, h'.cutQuote_eq] at hcut
  obtain ⟨hl, hx⟩ := Prod.mk.inj (Option.some.inj hcut)
  exact ⟨hl.symm, hx.symm⟩

end Sealed

/-! ## Where a text may stand -/

variable {α : Type} {a : α} {l l' q x y : List α}

theorem infix_cons_iff : a :: l <:+: x ↔ ∃ q, a :: q <:+ x ∧ l <+: q := by
  constructor
  · rintro ⟨p, z, rfl⟩
    exact ⟨l ++ z, ⟨p, by simp⟩, List.prefix_append l z⟩
  · rintro ⟨q, ⟨p, rfl⟩, z, rfl⟩
    exact ⟨p, z, by simp⟩

theorem suffix_cons_of_ne {b : α} (hne : b ≠ a) : a :: q <:+ b :: x ↔ a :: q <:+ x := by
  rw [List.suffix_cons_iff]
  exact or_iff_right fun h => hne (List.cons.inj h).1.symm

/-- A suffix of a concatenation begins in one of its parts. -/
theorem suffix_append_iff : a :: q <:+ x ++ y ↔
    a :: q <:+ y ∨ ∃ p r, x = p ++ a :: r ∧ q = r ++ y := by
  constructor
  · rintro ⟨p, hp⟩
    rcases List.append_eq_append_iff.1 hp with ⟨r, rfl, hr⟩ | ⟨r, rfl, rfl⟩
    · cases r with
      | nil => exact Or.inl ⟨[], by simpa using hr⟩
      | cons b r =>
        obtain ⟨rfl, rfl⟩ := List.cons.inj hr
        exact Or.inr ⟨p, r, rfl, rfl⟩
    · exact Or.inl ⟨r, rfl⟩
  · rintro (h | ⟨p, r, rfl, rfl⟩)
    · exact h.trans (List.suffix_append x y)
    · exact ⟨p, by simp⟩

end CivicProof.Quoted
