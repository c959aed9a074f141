import CivicProof.Calendar.Moment
import CivicProof.Proof.TimeReadings

/-!
# The shape of time scopes

The bounds of a scope are texts put together from digits. Months and years pass through a calendar of
their own, terms come from a table, but the day of an ISO date is written as it is read, and so is the
year before the reference year.

* `WellFormed`: bounds that exist, in order, and that cover what the phrase names.
* `wellFormed_iff`: scopes are well formed unless the phrase is the text of a day that does not exist
  (or "last year" is the year zero).
-/

namespace CivicProof

open Regex TimeSpan

variable {U : Unicode} {ref : CivilDate} {text : List Char}

/-! ## What a text names -/

/-- The text is an ISO date with the fields of `d`. -/
def NamesDay (text : List Char) (d : CivilDate) : Prop :=
  ∃ y mo dd, IsoShaped text y mo dd ∧ d = ⟨decimalValue y, decimalValue mo, decimalValue dd⟩

/-- A month's name stands before a year in the text. -/
def NamesMonth (text : List Char) (year month : ℕ) : Prop :=
  ∃ u name sp ds v, text = u ++ (name.toList ++ (sp ++ ds) ++ v) ∧ name ∈ heMonths ∧
    Run isSpace 1 none sp ∧ YearDigits ds ∧ month = heMonths.idxOf name + 1 ∧ year = decimalValue ds

/-- The year stands in the text, or it is the year before the reference date and the text says so. -/
def NamesYear (U : Unicode) (ref : CivilDate) (text : List Char) (year : ℕ) : Prop :=
  (∃ ds, DigitRun text ds ∧ year = decimalValue ds) ∨ (HasLastYear U text ∧ year + 1 = ref.year)

/-! ## Well-formed scopes -/

/-- A moment is between the bounds of a scope. -/
def TimeScope.Covers (s : TimeScope) (t : Moment) : Prop :=
  (∀ a : Moment, s.start = some a.iso → a ≤ t) ∧ ∀ b : Moment, s.stop = some b.iso → t ≤ b

/-- **A well-formed scope** of a text. -/
structure WellFormed (U : Unicode) (ref : CivilDate) (text : List Char) (s : TimeScope) : Prop where
  /-- Only the unknown scope has no bounds. -/
  unknown : s.granularity = .unknown ↔ s.start = none ∧ s.stop = none
  /-- Bounds are the texts of existing moments. -/
  start : ∀ t ∈ s.start, ∃ a : Moment, a.iso = t
  stop : ∀ t ∈ s.stop, ∃ b : Moment, b.iso = t
  ordered : ∀ a b : Moment, s.start = some a.iso → s.stop = some b.iso → a ≤ b
  /-- Days, months and years are covered exactly. -/
  day : s.granularity = .day → ∃ d, NamesDay text d ∧ ∀ t, s.Covers t ↔ t.date = d
  month : s.granularity = .month → ∃ year month, NamesMonth text year month ∧
    ∀ t, s.Covers t ↔ t.date.year = year ∧ t.date.month = month
  year : s.granularity = .year → ∃ year, NamesYear U ref text year ∧
    ∀ t, s.Covers t ↔ t.date.year = year

section Closed

variable {a b : CivilDate} {s : TimeScope}

/-- Scopes from the first second of a day to the last second of a day. -/
structure Closed (a b : CivilDate) (s : TimeScope) : Prop where
  start : s.start = some a.dayStart
  stop : s.stop = some b.dayEnd
  valid : a.Valid ∧ b.Valid
  ordered : a ≤ b
  known : s.granularity ≠ .unknown

theorem Closed.covers_iff (h : Closed a b s) (t : Moment) :
    s.Covers t ↔ a ≤ t.date ∧ t.date ≤ b := by
  rw [← inScope_days h.valid.1 h.valid.2]
  unfold TimeScope.Covers InScope
  rw [h.start, h.stop, ← Moment.iso_dayStart h.valid.1, ← Moment.iso_dayEnd h.valid.2]
  constructor
  · rintro ⟨hlo, hhi⟩
    exact ⟨fun x hx => Option.some.inj hx ▸ hlo _ rfl, fun x hx => Option.some.inj hx ▸ hhi _ rfl⟩
  · rintro ⟨hlo, hhi⟩
    refine ⟨fun x hx => ?_, fun x hx => ?_⟩
    · rw [← Moment.iso_inj (Option.some.inj hx)]
      exact hlo _ rfl
    · rw [← Moment.iso_inj (Option.some.inj hx)]
      exact hhi _ rfl

theorem Closed.wellFormed (h : Closed a b s)
    (hday : s.granularity = .day → ∃ d, NamesDay text d ∧ ∀ t, s.Covers t ↔ t.date = d)
    (hmonth : s.granularity = .month → ∃ year month, NamesMonth text year month ∧
      ∀ t, s.Covers t ↔ t.date.year = year ∧ t.date.month = month)
    (hyear : s.granularity = .year → ∃ year, NamesYear U ref text year ∧
      ∀ t, s.Covers t ↔ t.date.year = year) : WellFormed U ref text s := by
  refine ⟨?_, ?_, ?_, ?_, hday, hmonth, hyear⟩
  · rw [h.start]
    exact ⟨fun hg => absurd hg h.known, fun hnone => by cases hnone.1⟩
  · rw [h.start]
    intro t ht
    exact ⟨Moment.dayStart h.valid.1, (Moment.iso_dayStart _).trans (Option.some.inj ht)⟩
  · rw [h.stop]
    intro t ht
    exact ⟨Moment.dayEnd h.valid.2, (Moment.iso_dayEnd _).trans (Option.some.inj ht)⟩
  · rw [h.start, h.stop, ← Moment.iso_dayStart h.valid.1, ← Moment.iso_dayEnd h.valid.2]
    intro x y hx hy
    rw [← Moment.iso_inj (Option.some.inj hx), ← Moment.iso_inj (Option.some.inj hy)]
    exact (Moment.dayStart_le _).2 h.ordered

end Closed

/-! ## The branches -/

theorem unknown_wellFormed : WellFormed U ref text unknownScope where
  unknown := ⟨fun _ => ⟨rfl, rfl⟩, fun _ => rfl⟩
  start _ ht := by cases ht
  stop _ ht := by cases ht
  ordered _ _ ht := by cases ht
  day hg := by cases hg
  month hg := by cases hg
  year hg := by cases hg

/-- The bounds of a term are those of the table, which exist and stand in order. -/
theorem termScope_bounds_valid {n : ℕ} {s : TimeScope} (h : termScope n = some s) :
    ∃ t : KnessetTerm, s = ⟨some t.start.dayStart, t.stop.map CivilDate.dayEnd, .term⟩ ∧
      t.start.Valid ∧ ∀ e ∈ t.stop, e.Valid ∧ t.start ≤ e := by
  have htable : ∀ t ∈ knessetTerms, t.start.Valid ∧ ∀ e ∈ t.stop, e.Valid ∧ t.start ≤ e := by
    simp only [CivilDate.le_def]
    decide
  obtain ⟨t, ht, hs⟩ := Option.map_eq_some_iff.1 h
  exact ⟨t, hs.symm, htable t (List.mem_of_find?_eq_some ht)⟩

/-- A term of the table has a well-formed scope. -/
theorem term_wellFormed {n : ℕ} {s : TimeScope} (h : termScope n = some s) :
    WellFormed U ref text s := by
  obtain ⟨t, hs, hstart, hstop⟩ := termScope_bounds_valid h
  have hterm : s.granularity = .term := congrArg TimeScope.granularity hs
  have hlo : s.start = some t.start.dayStart := congrArg TimeScope.start hs
  have hhi : s.stop = t.stop.map CivilDate.dayEnd := congrArg TimeScope.stop hs
  have hday : s.granularity ≠ .day := by rw [hterm]; decide
  have hmonth : s.granularity ≠ .month := by rw [hterm]; decide
  have hyear : s.granularity ≠ .year := by rw [hterm]; decide
  have hknown : s.granularity ≠ .unknown := by rw [hterm]; decide
  cases he : t.stop with
  | some e =>
    obtain ⟨hvalid, hle⟩ := hstop e he
    rw [he] at hhi
    have hclosed : Closed t.start e s := ⟨hlo, hhi, ⟨hstart, hvalid⟩, hle, hknown⟩
    exact hclosed.wellFormed (fun hg => absurd hg hday) (fun hg => absurd hg hmonth)
      fun hg => absurd hg hyear
  | none =>
    rw [he] at hhi
    refine ⟨⟨fun hg => absurd hg hknown, fun hnone => ?_⟩, ?_, ?_, ?_, fun hg => absurd hg hday,
      fun hg => absurd hg hmonth, fun hg => absurd hg hyear⟩
    · rw [hlo] at hnone
      cases hnone.1
    · rw [hlo]
      intro x hx
      exact ⟨Moment.dayStart hstart, (Moment.iso_dayStart _).trans (Option.some.inj hx)⟩
    · rw [hhi]
      intro x hx
      cases hx
    · rw [hhi]
      intro x y _ hy
      cases hy

theorem lastTerm_wellFormed {s : TimeScope} (h : lastTermScope ref = some s) :
    WellFormed U ref text s := by
  unfold lastTermScope at h
  split at h
  · split at h
    · exact term_wellFormed h
    · cases h
  · cases h

theorem valid_of_le {year month day : ℕ} (hy : 1 ≤ year ∧ year ≤ 9999) (hm : 1 ≤ month ∧ month ≤ 12)
    (hd : 1 ≤ day ∧ day ≤ lastDayOfMonth year month) : CivilDate.Valid ⟨year, month, day⟩ :=
  ⟨hy, hm, hd⟩

theorem le_lastDayOfMonth (year month : ℕ) : 28 ≤ lastDayOfMonth year month := by
  unfold lastDayOfMonth
  split_ifs <;> omega

theorem year_closed {year : ℕ} (hy : 1 ≤ year ∧ year ≤ 9999) :
    Closed ⟨year, 1, 1⟩ ⟨year, 12, 31⟩ (yearBounds year) := by
  have hfirst := le_lastDayOfMonth year 1
  have hlast : lastDayOfMonth year 12 = 31 := by simp [lastDayOfMonth]
  refine ⟨rfl, rfl, ⟨valid_of_le hy ⟨?_, ?_⟩ ⟨?_, ?_⟩, valid_of_le hy ⟨?_, ?_⟩ ⟨?_, ?_⟩⟩, ?_,
    Granularity.noConfusion⟩
  rotate_right
  · rw [CivilDate.le_def]
    dsimp only
    omega
  all_goals omega

theorem year_wellFormed {year : ℕ} (hy : 1 ≤ year ∧ year ≤ 9999)
    (hnames : NamesYear U ref text year) : WellFormed U ref text (yearBounds year) := by
  have hclosed := year_closed hy
  refine hclosed.wellFormed nofun nofun fun _ => ⟨year, hnames, fun t => ?_⟩
  rw [hclosed.covers_iff, year_iff t.date_valid]

/-- The day before the first day of the next month is the last day of the month. -/
theorem monthBounds_stop {year month : ℕ} (hm : 1 ≤ month) :
    (monthBounds year month).stop =
      some (CivilDate.dayEnd ⟨year, month, lastDayOfMonth year month⟩) := by
  unfold monthBounds CivilDate.prevDay
  dsimp only
  by_cases hlast : month = 12
  · subst hlast
    simp [lastDayOfMonth]
  · rw [if_neg hlast]
    dsimp only
    rw [if_neg (Nat.lt_irrefl 1), if_pos (by omega), Nat.add_sub_cancel]

theorem month_closed {year month : ℕ} (hy : 1 ≤ year ∧ year ≤ 9999) (hm : 1 ≤ month ∧ month ≤ 12) :
    Closed ⟨year, month, 1⟩ ⟨year, month, lastDayOfMonth year month⟩ (monthBounds year month) := by
  have hlen := le_lastDayOfMonth year month
  refine ⟨rfl, monthBounds_stop hm.1, ⟨valid_of_le hy hm ⟨?_, ?_⟩, valid_of_le hy hm ⟨?_, le_rfl⟩⟩,
    ?_, Granularity.noConfusion⟩
  rotate_right
  · rw [CivilDate.le_def]
    dsimp only
    omega
  all_goals omega

theorem month_wellFormed {year month : ℕ} (hy : 1 ≤ year ∧ year ≤ 9999)
    (hm : 1 ≤ month ∧ month ≤ 12) (hnames : NamesMonth text year month) :
    WellFormed U ref text (monthBounds year month) := by
  have hclosed := month_closed hy hm
  refine hclosed.wellFormed nofun (fun _ => ⟨year, month, hnames, fun t => ?_⟩) nofun
  rw [hclosed.covers_iff, month_iff t.date_valid]

theorem day_closed {d : CivilDate} (hd : d.Valid) : Closed d d (dayScope d.year d.month d.day) :=
  ⟨rfl, rfl, ⟨hd, hd⟩, le_rfl, Granularity.noConfusion⟩

theorem day_wellFormed {d : CivilDate} (hd : d.Valid) (hnames : NamesDay text d) :
    WellFormed U ref text (dayScope d.year d.month d.day) := by
  have hclosed := day_closed hd
  refine hclosed.wellFormed (fun _ => ⟨d, hnames, fun t => ?_⟩) nofun nofun
  rw [hclosed.covers_iff, le_antisymm_iff, and_comm]

/-- A scope that starts on a day that does not exist is not well formed. -/
theorem not_wellFormed_of_start {d : CivilDate} {s : TimeScope} (hfits : d.Fits) (hd : ¬d.Valid)
    (h : s.start = some d.dayStart) : ¬WellFormed U ref text s := by
  intro hform
  obtain ⟨a, ha⟩ := hform.start _ h
  exact hd (Moment.date_of_iso hfits ha ▸ a.date_valid)

/-! ## All phrases -/

/-- The text has the shape of an ISO date, of a day that does not exist. -/
def ImpossibleDay (text : List Char) : Prop := ∃ d, NamesDay text d ∧ ¬d.Valid

/-- "Last year" before the year two. -/
def YearZero (U : Unicode) (ref : CivilDate) (text : List Char) : Prop :=
  NoAbsolute text ∧ HasLastYear U text ∧ ref.year = 1

theorem NamesDay.unique {d d' : CivilDate} (h : NamesDay text d) (h' : NamesDay text d') : d = d' := by
  have hshape : ∀ {y mo dd : List Char}, IsoShaped text y mo dd →
      ∃ rest, text = y ++ '-' :: (mo ++ '-' :: (dd ++ rest)) := by
    intro y mo dd h
    rcases h.text_eq with h | h
    · exact ⟨[], by rw [h, List.append_nil]⟩
    · exact ⟨_, h⟩
  obtain ⟨y, mo, dd, hd, rfl⟩ := h
  obtain ⟨y', mo', dd', hd', rfl⟩ := h'
  obtain ⟨rest, htext⟩ := hshape hd
  obtain ⟨rest', htext'⟩ := hshape hd'
  rw [htext] at htext'
  obtain ⟨hy, hafter⟩ := List.append_inj htext' (by rw [run_exact hd.year, run_exact hd'.year])
  obtain ⟨hmo, hafter⟩ := List.append_inj (List.cons.inj hafter).2
    (by rw [run_exact hd.month, run_exact hd'.month])
  obtain ⟨hdd, -⟩ := List.append_inj (List.cons.inj hafter).2
    (by rw [run_exact hd.day, run_exact hd'.day])
  rw [hy, hmo, hdd]

theorem NamesDay.fits {d : CivilDate} (h : NamesDay text d) : d.Fits := by
  obtain ⟨y, mo, dd, h, rfl⟩ := h
  have hy := decimalValue_lt y
  have hm := decimalValue_lt mo
  have hd := decimalValue_lt dd
  rw [run_exact h.year] at hy
  rw [run_exact h.month] at hm
  rw [run_exact h.day] at hd
  exact ⟨hy, hm, hd⟩

/-- A text in the shape of an ISO date is read as the day it names. -/
theorem scopeOfText_names {d : CivilDate} (h : NamesDay text d) :
    scopeOfText U ref text = dayScope d.year d.month d.day := by
  obtain ⟨y, mo, dd, hshape, -⟩ := id h
  obtain ⟨m, hm⟩ := Option.isSome_iff_exists.1 hshape.isSome
  obtain ⟨y', mo', dd', hshape', hy, hmo, hdd⟩ := isoDate_reading hm
  obtain rfl := h.unique ⟨y', mo', dd', hshape', rfl⟩
  rw [scopeOfText_day hm, hy, hmo, hdd]

/-- **When time scopes are well formed**: unless the phrase is the ISO text of a day that does not exist,
or "last year" is the year zero. -/
theorem wellFormed_iff (U : Unicode) (ref : CivilDate) (href : ref.Valid) (phrase : Option String) :
    WellFormed U ref (phraseText phrase) (normalizeTimeScope U ref phrase) ↔
      ¬ImpossibleDay (phraseText phrase) ∧ ¬YearZero U ref (phraseText phrase) := by
  rw [normalizeTimeScope_eq]
  generalize phraseText phrase = text
  constructor
  · intro hform
    refine ⟨fun ⟨d, hnames, hd⟩ => ?_, fun ⟨habs, hcue, hyear⟩ => ?_⟩
    · rw [scopeOfText_names hnames] at hform
      exact not_wellFormed_of_start hnames.fits hd rfl hform
    · rw [scopeOfText_lastYear habs hcue, hyear] at hform
      exact not_wellFormed_of_start (d := ⟨0, 1, 1⟩) ⟨by decide, by decide, by decide⟩ (by decide) rfl
        hform
  · rintro ⟨hday, hzero⟩
    have hreading := scopeOfText_reading U ref text
    generalize scopeOfText U ref text = s at hreading
    cases hreading with
    | day h =>
      obtain ⟨y, mo, dd, hshape, hy, hmo, hdd⟩ := isoDate_reading h
      rw [hy, hmo, hdd]
      have hnames : NamesDay text ⟨decimalValue y, decimalValue mo, decimalValue dd⟩ :=
        ⟨y, mo, dd, hshape, rfl⟩
      have hvalid := by_contra fun hd => hday ⟨_, hnames, hd⟩
      exact day_wellFormed (d := ⟨decimalValue y, decimalValue mo, decimalValue dd⟩) hvalid hnames
    | month _ h =>
      obtain ⟨u, name, sp, ds, v, htext, hname, hsp, hds, hmo, hy⟩ := heMonth_reading h
      have hvalue := hds.value
      have hlt : heMonths.idxOf name < 12 := List.idxOf_lt_length_iff.2 hname
      rw [hmo, hy]
      exact month_wellFormed ⟨by omega, by omega⟩ ⟨by omega, hlt⟩
        ⟨u, name, sp, ds, v, htext, hname, hsp, hds, rfl, rfl⟩
    | heTerm _ _ _ h => exact term_wellFormed h
    | enTerm _ _ _ _ h => exact term_wellFormed h
    | lastYear habs hcue =>
      have hpos : 2 ≤ ref.year := by
        by_contra hlt
        have hone := href.1.1
        exact hzero ⟨habs, hcue, by omega⟩
      have hmax := href.1.2
      exact year_wellFormed ⟨by omega, by omega⟩ (Or.inr ⟨hcue, by omega⟩)
    | lastTerm _ h => exact lastTerm_wellFormed h
    | year _ _ h =>
      obtain ⟨ds, hrun, hds, hy⟩ := yearPattern_reading h
      have hvalue := hds.value
      rw [hy]
      exact year_wellFormed ⟨by omega, by omega⟩ (Or.inl ⟨ds, hrun, rfl⟩)
    | unknown => exact unknown_wellFormed

theorem wellFormed_iff_2024 : WellFormed asciiWords ⟨2024, 1, 1⟩ (phraseText (some "2024"))
      (normalizeTimeScope asciiWords ⟨2024, 1, 1⟩ (some "2024")) ↔
    ¬ImpossibleDay (phraseText (some "2024")) ∧
      ¬YearZero asciiWords ⟨2024, 1, 1⟩ (phraseText (some "2024")) :=
  wellFormed_iff asciiWords ⟨2024, 1, 1⟩ (by decide) (some "2024")

theorem impossible_names : NamesDay (phraseText (some "2021-13-45")) ⟨2021, 13, 45⟩ :=
  ⟨"2021".toList, "13".toList, "45".toList, ⟨by decide, by decide, by decide, Or.inl (by decide)⟩,
    by decide⟩

/-- **The forty-fifth day of a thirteenth month** is read as a day. -/
theorem impossible_day_read : ¬WellFormed asciiWords ⟨2024, 1, 1⟩ (phraseText (some "2021-13-45"))
    (normalizeTimeScope asciiWords ⟨2024, 1, 1⟩ (some "2021-13-45")) := by
  rw [normalizeTimeScope_eq, scopeOfText_names impossible_names]
  exact not_wellFormed_of_start impossible_names.fits (by decide) rfl

end CivicProof
