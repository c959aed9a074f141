import Mathlib.Data.Prod.Lex
import Mathlib.Order.Basic

/-!
# Civil dates

Dates by year, month and day, in the order of the calendar, with the month lengths of the proleptic
Gregorian calendar and the day before.

* `CivilDate.lt_def`: the order, field by field.
-/

namespace CivicProof

/-- `datetime.date`. -/
structure CivilDate where
  year : ℕ
  month : ℕ
  day : ℕ
  deriving DecidableEq, Repr

/-- Calendar order. -/
def CivilDate.le (a b : CivilDate) : Bool :=
  a.year < b.year || (a.year == b.year && (a.month < b.month ||
    (a.month == b.month && a.day ≤ b.day)))

/-- The last day of a month. -/
def lastDayOfMonth (year month : ℕ) : ℕ :=
  if month ∈ [4, 6, 9, 11] then 30
  else if month = 2 then
    if year % 4 = 0 ∧ (year % 100 ≠ 0 ∨ year % 400 = 0) then 29 else 28
  else 31

namespace CivilDate

/-- `datetime(year, month, day)` does not raise. -/
def Valid (d : CivilDate) : Prop :=
  (1 ≤ d.year ∧ d.year ≤ 9999) ∧ (1 ≤ d.month ∧ d.month ≤ 12) ∧
    1 ≤ d.day ∧ d.day ≤ lastDayOfMonth d.year d.month

instance (d : CivilDate) : Decidable d.Valid := inferInstanceAs (Decidable (_ ∧ _))

/-! ## The order -/

/-- The fields, from the most significant on. -/
def fields (d : CivilDate) : ℕ ×ₗ ℕ ×ₗ ℕ := toLex (d.year, toLex (d.month, d.day))

theorem fields_injective : Function.Injective fields := by
  rintro ⟨y, m, d⟩ ⟨y', m', d'⟩ h
  have hy : y = y' := congrArg (fun x => (ofLex x).1) h
  have hm : m = m' := congrArg (fun x => (ofLex (ofLex x).2).1) h
  have hd : d = d' := congrArg (fun x => (ofLex (ofLex x).2).2) h
  rw [hy, hm, hd]

instance : LinearOrder CivilDate := LinearOrder.lift' fields fields_injective

theorem lt_def {a b : CivilDate} : a < b ↔ a.year < b.year ∨
    (a.year = b.year ∧ (a.month < b.month ∨ (a.month = b.month ∧ a.day < b.day))) := by
  have hlift : a < b ↔ fields a < fields b := Iff.rfl
  rw [hlift, Prod.Lex.lt_iff, Prod.Lex.lt_iff]
  rfl

theorem le_def {a b : CivilDate} : a ≤ b ↔ a.year < b.year ∨
    (a.year = b.year ∧ (a.month < b.month ∨ (a.month = b.month ∧ a.day ≤ b.day))) := by
  have hlift : a ≤ b ↔ fields a ≤ fields b := Iff.rfl
  rw [hlift, Prod.Lex.le_iff, Prod.Lex.le_iff]
  rfl

theorem le_iff {a b : CivilDate} : a.le b = true ↔ a ≤ b := by
  rw [le_def]
  unfold le
  simp only [Bool.or_eq_true, Bool.and_eq_true, decide_eq_true_iff, beq_iff_eq]

/-! ## The day before -/

theorem lastDayOfMonth_le (year month : ℕ) : lastDayOfMonth year month ≤ 31 := by
  unfold lastDayOfMonth
  split_ifs <;> omega

/-- `date - timedelta(days=1)`. -/
def prevDay (d : CivilDate) : CivilDate :=
  if 1 < d.day then ⟨d.year, d.month, d.day - 1⟩
  else if 1 < d.month then ⟨d.year, d.month - 1, lastDayOfMonth d.year (d.month - 1)⟩
  else ⟨d.year - 1, 12, 31⟩

end CivilDate

end CivicProof
