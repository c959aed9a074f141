import CivicProof.Calendar.IsoText
import CivicProof.TimeSpan.Scope

/-!
# Moments

The seconds of the days of the calendar, in UTC, with their order and their ISO texts. Two bounds at
the ends of days cover whole days.

* `Moment.iso_inj`: a moment is determined by its text.
* `inScope_days`: from the first second of a day to the last second of a day.
* `inScope_month`, `inScope_year`: from the first to the last day of a month, of a year.
-/

namespace CivicProof

open TimeSpan

/-- A second of an existing day. -/
structure Moment where
  date : CivilDate
  hour : ℕ
  minute : ℕ
  second : ℕ
  date_valid : date.Valid
  hour_lt : hour < 24
  minute_lt : minute < 60
  second_lt : second < 60

namespace Moment

/-! ## The order -/

/-- The day and the fields of the time, from the most significant on. -/
def fields (t : Moment) : CivilDate ×ₗ ℕ ×ₗ ℕ ×ₗ ℕ :=
  toLex (t.date, toLex (t.hour, toLex (t.minute, t.second)))

theorem fields_injective : Function.Injective fields := by
  rintro ⟨d, h, m, s, _, _, _, _⟩ ⟨d', h', m', s', _, _, _, _⟩ heq
  have hd : d = d' := congrArg (fun x => (ofLex x).1) heq
  have hh : h = h' := congrArg (fun x => (ofLex (ofLex x).2).1) heq
  have hm : m = m' := congrArg (fun x => (ofLex (ofLex (ofLex x).2).2).1) heq
  have hs : s = s' := congrArg (fun x => (ofLex (ofLex (ofLex x).2).2).2) heq
  subst hd hh hm hs
  rfl

instance : LinearOrder Moment := LinearOrder.lift' fields fields_injective

theorem le_def {a b : Moment} : a ≤ b ↔ a.date < b.date ∨ (a.date = b.date ∧ (a.hour < b.hour ∨
    (a.hour = b.hour ∧ (a.minute < b.minute ∨ (a.minute = b.minute ∧ a.second ≤ b.second))))) := by
  have hlift : a ≤ b ↔ fields a ≤ fields b := Iff.rfl
  rw [hlift, Prod.Lex.le_iff, Prod.Lex.le_iff, Prod.Lex.le_iff]
  rfl

/-- The first second of a day. -/
def dayStart {d : CivilDate} (h : d.Valid) : Moment :=
  ⟨d, 0, 0, 0, h, by decide, by decide, by decide⟩

/-- The last second of a day. -/
def dayEnd {d : CivilDate} (h : d.Valid) : Moment :=
  ⟨d, 23, 59, 59, h, by decide, by decide, by decide⟩

variable {d : CivilDate} {t : Moment}

theorem dayStart_le (h : d.Valid) : dayStart h ≤ t ↔ d ≤ t.date := by
  rw [le_def, le_iff_lt_or_eq (a := d)]
  refine or_congr Iff.rfl (and_iff_left ?_)
  dsimp only [dayStart]
  omega

theorem le_dayEnd (h : d.Valid) : t ≤ dayEnd h ↔ t.date ≤ d := by
  have hh := t.hour_lt
  have hm := t.minute_lt
  have hs := t.second_lt
  rw [le_def, le_iff_lt_or_eq (b := d)]
  refine or_congr Iff.rfl (and_iff_left ?_)
  dsimp only [dayEnd]
  omega

/-! ## The text -/

/-- `datetime.isoformat()` of a moment in UTC. -/
def iso (t : Moment) : String :=
  t.date.iso ++ "T" ++ pad 2 t.hour ++ ":" ++ pad 2 t.minute ++ ":" ++ pad 2 t.second ++ "+00:00"

theorem iso_dayStart (h : d.Valid) : (dayStart h).iso = d.dayStart := by
  have hzero : pad 2 0 = "00" := by decide
  unfold iso dayStart CivilDate.dayStart
  dsimp only
  rw [hzero]
  simp only [String.append_assoc]
  rfl

theorem iso_dayEnd (h : d.Valid) : (dayEnd h).iso = d.dayEnd := by
  have hours : pad 2 23 = "23" := by decide
  have minutes : pad 2 59 = "59" := by decide
  unfold iso dayEnd CivilDate.dayEnd
  dsimp only
  rw [hours, minutes]
  simp only [String.append_assoc]
  rfl

theorem iso_toList (t : Moment) : t.iso.toList = t.date.iso.toList ++ ('T' :: ((pad 2 t.hour).toList ++
    (':' :: ((pad 2 t.minute).toList ++ (':' :: ((pad 2 t.second).toList ++ "+00:00".toList)))))) := by
  unfold iso
  simp [String.toList_append]

/-- **A moment is determined by its text.** -/
theorem iso_inj {t t' : Moment} (h : t.iso = t'.iso) : t = t' := by
  have hlist : t.iso.toList = t'.iso.toList := congrArg String.toList h
  have hwidth : ∀ {n m : ℕ}, n < 100 → m < 100 →
      (pad 2 n).toList.length = (pad 2 m).toList.length := by
    intro n m hn hm
    rw [pad_length (w := 2) (by decide) hn, pad_length (w := 2) (by decide) hm]
  have hhour := t.hour_lt
  have hhour' := t'.hour_lt
  have hminute := t.minute_lt
  have hminute' := t'.minute_lt
  have hfits := t.date_valid.fits
  have hfits' := t'.date_valid.fits
  rw [iso_toList, iso_toList] at hlist
  obtain ⟨hdate, hrest⟩ := List.append_inj hlist
    ((CivilDate.iso_length hfits).trans (CivilDate.iso_length hfits').symm)
  obtain ⟨hh, hrest⟩ := List.append_inj (List.cons.inj hrest).2 (hwidth (by omega) (by omega))
  obtain ⟨hm, hrest⟩ := List.append_inj (List.cons.inj hrest).2 (hwidth (by omega) (by omega))
  have hs := List.append_cancel_right (List.cons.inj hrest).2
  apply fields_injective
  unfold fields
  rw [(CivilDate.iso_inj hfits hfits').1 hdate, pad_inj.1 hh, pad_inj.1 hm, pad_inj.1 hs]

/-- The day of a moment is that of its text. -/
theorem date_of_iso {a : Moment} {d : CivilDate} (hd : d.Fits) {rest : String}
    (h : a.iso = d.iso ++ rest) : a.date = d := by
  have hlist : a.iso.toList = d.iso.toList ++ rest.toList := by rw [h, String.toList_append]
  rw [iso_toList] at hlist
  obtain ⟨hdate, -⟩ := List.append_inj hlist
    ((CivilDate.iso_length a.date_valid.fits).trans (CivilDate.iso_length hd).symm)
  exact (CivilDate.iso_inj a.date_valid.fits hd).1 hdate

end Moment

/-! ## Whole days -/

variable {t : Moment}

/-- **From the first second of a day to the last second of a day.** -/
theorem inScope_days {a b : CivilDate} (ha : a.Valid) (hb : b.Valid) :
    InScope (some (Moment.dayStart ha)) (some (Moment.dayEnd hb)) t ↔ a ≤ t.date ∧ t.date ≤ b := by
  unfold InScope
  simp only [Option.mem_def, Option.some.injEq, forall_eq', Moment.dayStart_le, Moment.le_dayEnd]

/-- The days of a month. -/
theorem month_iff {d : CivilDate} (hd : d.Valid) (year month : ℕ) :
    ((⟨year, month, 1⟩ : CivilDate) ≤ d ∧ d ≤ ⟨year, month, lastDayOfMonth year month⟩) ↔
      d.year = year ∧ d.month = month := by
  obtain ⟨-, -, hday, hday'⟩ := hd
  rw [CivilDate.le_def, CivilDate.le_def]
  dsimp only
  constructor
  · intro h
    omega
  · rintro ⟨rfl, rfl⟩
    omega

/-- The days of a year. -/
theorem year_iff {d : CivilDate} (hd : d.Valid) (year : ℕ) :
    ((⟨year, 1, 1⟩ : CivilDate) ≤ d ∧ d ≤ ⟨year, 12, 31⟩) ↔ d.year = year := by
  obtain ⟨-, ⟨hm, hm'⟩, hday, hday'⟩ := hd
  have hlen := CivilDate.lastDayOfMonth_le d.year d.month
  rw [CivilDate.le_def, CivilDate.le_def]
  dsimp only
  omega

end CivicProof
