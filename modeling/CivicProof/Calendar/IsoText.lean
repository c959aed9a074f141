import CivicProof.Calendar.Date
import Mathlib.Algebra.Group.Nat.Defs

/-!
# Dates as text

Numbers in zero-padded decimal digits and the ISO text of a date. Texts of one width stand in the
order of what they say, and what follows counts only between equals.

* `append_lt_append`: the order of texts that begin with equally long ones.
* `pad_lt_pad`: the order of padded numbers is that of the numbers.
* `CivilDate.iso_lt_iso`: the order of ISO texts is that of the dates.
-/

namespace CivicProof

/-- A number in `w` digits at least, zero-padded (`{n:0wd}`). -/
def pad (w n : ℕ) : String :=
  let s := toString n
  String.ofList (List.replicate (w - s.length) '0') ++ s

/-- `date.isoformat()`. -/
def CivilDate.iso (d : CivilDate) : String := pad 4 d.year ++ "-" ++ pad 2 d.month ++ "-" ++ pad 2 d.day

/-- The first second of a day, as the scope constructors write it. -/
def CivilDate.dayStart (d : CivilDate) : String := d.iso ++ "T00:00:00+00:00"

/-- The last second of a day. -/
def CivilDate.dayEnd (d : CivilDate) : String := d.iso ++ "T23:59:59+00:00"

/-! ## Decimal digits -/

theorem ascii_range {c : Char} (h : c.isDigit = true) : 48 ≤ c.toNat ∧ c.toNat ≤ 57 := by
  simpa [Char.isDigit, UInt32.le_iff_toNat_le] using h

/-- ASCII digits in a number of given width are determined by its value. -/
theorem ofDigitChars_inj {ds es : List Char} (hlen : ds.length = es.length)
    (hd : ∀ c ∈ ds, c.isDigit = true) (he : ∀ c ∈ es, c.isDigit = true) {a b : ℕ}
    (h : Nat.ofDigitChars 10 ds a = Nat.ofDigitChars 10 es b) : a = b ∧ ds = es := by
  induction ds generalizing es a b with
  | nil =>
    rw [List.length_eq_zero_iff.1 hlen.symm] at h ⊢
    exact ⟨by simpa [Nat.ofDigitChars_nil] using h, rfl⟩
  | cons c cs ih =>
    obtain ⟨e, es, rfl⟩ := List.exists_cons_of_length_eq_add_one hlen.symm
    rw [Nat.ofDigitChars_cons, Nat.ofDigitChars_cons] at h
    obtain ⟨hval, rfl⟩ := ih (Nat.succ.inj hlen) (fun x hx => hd x (List.mem_cons_of_mem _ hx))
      (fun x hx => he x (List.mem_cons_of_mem _ hx)) h
    have hc := ascii_range (hd c List.mem_cons_self)
    have he := ascii_range (he e List.mem_cons_self)
    have hzero : '0'.toNat = 48 := rfl
    have hce : c.toNat = e.toNat := by omega
    refine ⟨by omega, ?_⟩
    rw [← Char.ofNat_toNat c, hce, Char.ofNat_toNat]

theorem ofDigitChars_lt {ds : List Char} (h : ∀ c ∈ ds, c.isDigit = true) (a : ℕ) :
    Nat.ofDigitChars 10 ds a < (a + 1) * 10 ^ ds.length := by
  induction ds generalizing a with
  | nil => simp [Nat.ofDigitChars_nil]
  | cons c cs ih =>
    have hc := ascii_range (h c List.mem_cons_self)
    have hzero : '0'.toNat = 48 := rfl
    rw [Nat.ofDigitChars_cons, List.length_cons, Nat.pow_succ']
    calc _ < _ := ih (fun x hx => h x (List.mem_cons_of_mem _ hx)) _
      _ ≤ (a + 1) * 10 * 10 ^ cs.length := Nat.mul_le_mul_right _ (by omega)
      _ = _ := Nat.mul_assoc ..

/-! ## Zero padding -/

theorem pad_toList (w n : ℕ) : (pad w n).toList =
    List.replicate (w - (Nat.toDigits 10 n).length) '0' ++ Nat.toDigits 10 n := by
  have hs : (toString n).toList = Nat.toDigits 10 n := by
    rw [Nat.toString_eq_ofList_toDigits, String.toList_ofList]
  unfold pad
  rw [String.toList_append, String.toList_ofList, hs, ← String.length_toList, hs]

theorem pad_ascii {w n : ℕ} : ∀ c ∈ (pad w n).toList, c.isDigit = true := by
  intro c hc
  rw [pad_toList, List.mem_append] at hc
  rcases hc with hc | hc
  · rw [List.eq_of_mem_replicate hc]
    rfl
  · exact Nat.isDigit_of_mem_toDigits (by decide) (by decide) hc

theorem pad_length {w n : ℕ} (hw : 0 < w) (hn : n < 10 ^ w) : (pad w n).toList.length = w := by
  have := (Nat.length_toDigits_le_iff (by decide) hw).2 hn
  rw [pad_toList, List.length_append, List.length_replicate]
  omega

theorem pad_value (w n : ℕ) : Nat.ofDigitChars 10 (pad w n).toList 0 = n := by
  rw [pad_toList, Nat.ofDigitChars_append, Nat.ofDigitChars_replicate_zero, Nat.mul_zero,
    Nat.ofDigitChars_ten_toDigits]

/-! ## The order of texts -/

/-- **Of two texts with equally long beginnings**, these decide, and between equals the rest. -/
theorem append_lt_append {a b r s : List Char} (h : a.length = b.length) :
    a ++ r < b ++ s ↔ a < b ∨ (a = b ∧ r < s) := by
  induction a generalizing b with
  | nil =>
    rw [List.length_eq_zero_iff.1 h.symm]
    simp
  | cons c cs ih =>
    obtain ⟨e, es, rfl⟩ := List.exists_cons_of_length_eq_add_one h.symm
    rw [List.cons_append, List.cons_append, List.cons_lt_cons_iff, List.cons_lt_cons_iff,
      ih (Nat.succ.inj h), List.cons.injEq]
    tauto

theorem le_ofDigitChars (ds : List Char) (a : ℕ) : a * 10 ^ ds.length ≤ Nat.ofDigitChars 10 ds a := by
  induction ds generalizing a with
  | nil => simp [Nat.ofDigitChars_nil]
  | cons c cs ih =>
    rw [Nat.ofDigitChars_cons, List.length_cons, Nat.pow_succ']
    calc a * (10 * 10 ^ cs.length) = 10 * a * 10 ^ cs.length := by
          rw [← Nat.mul_assoc, Nat.mul_comm a 10]
      _ ≤ (10 * a + (c.toNat - '0'.toNat)) * 10 ^ cs.length := Nat.mul_le_mul_right _ (by omega)
      _ ≤ _ := ih _

/-- Digits of one length stand in the order of their numbers. -/
theorem digits_lt_iff {ds es : List Char} (hlen : ds.length = es.length)
    (hd : ∀ c ∈ ds, c.isDigit = true) (he : ∀ c ∈ es, c.isDigit = true) (a : ℕ) :
    ds < es ↔ Nat.ofDigitChars 10 ds a < Nat.ofDigitChars 10 es a := by
  have hlt : ∀ {ds es : List Char}, ds.length = es.length → (∀ c ∈ ds, c.isDigit = true) →
      (∀ c ∈ es, c.isDigit = true) → ∀ a, ds < es →
        Nat.ofDigitChars 10 ds a < Nat.ofDigitChars 10 es a := by
    intro ds
    induction ds with
    | nil =>
      intro es hlen _ _ a h
      rw [List.length_eq_zero_iff.1 hlen.symm] at h
      exact absurd h (List.lt_irrefl _)
    | cons c cs ih =>
      intro es hlen hd he a h
      obtain ⟨e, es, rfl⟩ := List.exists_cons_of_length_eq_add_one hlen.symm
      rw [Nat.ofDigitChars_cons, Nat.ofDigitChars_cons]
      have hds := fun x hx => hd x (List.mem_cons_of_mem c hx)
      rcases List.cons_lt_cons_iff.1 h with hce | ⟨rfl, hrest⟩
      · -- the first digit that differs outweighs all that follow
        have hc := ascii_range (hd c List.mem_cons_self)
        have hval : c.toNat < e.toNat := hce
        have hzero : '0'.toNat = 48 := rfl
        calc _ < (10 * a + (c.toNat - '0'.toNat) + 1) * 10 ^ cs.length := ofDigitChars_lt hds _
          _ ≤ (10 * a + (e.toNat - '0'.toNat)) * 10 ^ es.length := by
            rw [Nat.succ.inj hlen]
            exact Nat.mul_le_mul_right _ (by omega)
          _ ≤ _ := le_ofDigitChars es _
      · exact ih (Nat.succ.inj hlen) hds (fun x hx => he x (List.mem_cons_of_mem _ hx)) _ hrest
  refine ⟨hlt hlen hd he a, fun h => ?_⟩
  by_contra hnot
  by_cases hds : es < ds
  · exact Nat.lt_asymm h (hlt hlen.symm he hd a hds)
  · rw [List.le_antisymm (List.not_lt.1 hds) (List.not_lt.1 hnot)] at h
    exact Nat.lt_irrefl _ h

/-- **Padded numbers** stand in the order of the numbers. -/
theorem pad_lt_pad {w n m : ℕ} (hw : 0 < w) (hn : n < 10 ^ w) (hm : m < 10 ^ w) :
    (pad w n).toList < (pad w m).toList ↔ n < m := by
  rw [digits_lt_iff (by rw [pad_length hw hn, pad_length hw hm]) pad_ascii pad_ascii 0, pad_value,
    pad_value]

theorem pad_inj {w n m : ℕ} : (pad w n).toList = (pad w m).toList ↔ n = m := by
  refine ⟨fun h => ?_, fun h => h ▸ rfl⟩
  rw [← pad_value w n, h, pad_value]

namespace CivilDate

/-- The fields have the width of their places in the text. -/
def Fits (d : CivilDate) : Prop := d.year < 10 ^ 4 ∧ d.month < 10 ^ 2 ∧ d.day < 10 ^ 2

theorem Valid.fits {d : CivilDate} (h : d.Valid) : d.Fits := by
  have hlen := lastDayOfMonth_le d.year d.month
  obtain ⟨hy, hm, hd⟩ := h
  exact ⟨by omega, by omega, by omega⟩

theorem iso_toList (d : CivilDate) : d.iso.toList =
    (pad 4 d.year).toList ++ ('-' :: ((pad 2 d.month).toList ++ ('-' :: (pad 2 d.day).toList))) := by
  unfold iso
  simp [String.toList_append]

theorem iso_length {d : CivilDate} (h : d.Fits) : d.iso.toList.length = 10 := by
  obtain ⟨hy, hm, hd⟩ := h
  rw [iso_toList, List.length_append, List.length_cons, List.length_append, List.length_cons,
    pad_length (w := 4) (by decide) hy, pad_length (w := 2) (by decide) hm,
    pad_length (w := 2) (by decide) hd]

/-- **ISO texts** stand in the order of the dates. -/
theorem iso_lt_iso {a b : CivilDate} (ha : a.Fits) (hb : b.Fits) :
    a.iso.toList < b.iso.toList ↔ a < b := by
  obtain ⟨hy, hm, hd⟩ := ha
  obtain ⟨hy', hm', hd'⟩ := hb
  have hlen : ∀ {w n m : ℕ}, 0 < w → n < 10 ^ w → m < 10 ^ w →
      (pad w n).toList.length = (pad w m).toList.length :=
    fun hw hn hm => (pad_length hw hn).trans (pad_length hw hm).symm
  rw [iso_toList, iso_toList, append_lt_append (hlen (w := 4) (by decide) hy hy'),
    pad_lt_pad (w := 4) (by decide) hy hy', pad_inj, List.cons_lt_cons_iff,
    append_lt_append (hlen (w := 2) (by decide) hm hm'), pad_lt_pad (w := 2) (by decide) hm hm',
    pad_inj, List.cons_lt_cons_iff, pad_lt_pad (w := 2) (by decide) hd hd', lt_def]
  simp

theorem iso_inj {a b : CivilDate} (ha : a.Fits) (hb : b.Fits) :
    a.iso.toList = b.iso.toList ↔ a = b := by
  refine ⟨fun h => ?_, fun h => h ▸ rfl⟩
  rcases lt_trichotomy a b with hab | hab | hab
  · have hlt := (iso_lt_iso ha hb).2 hab
    rw [h] at hlt
    exact absurd hlt (List.lt_irrefl _)
  · exact hab
  · have hlt := (iso_lt_iso hb ha).2 hab
    rw [h] at hlt
    exact absurd hlt (List.lt_irrefl _)

end CivilDate

end CivicProof
