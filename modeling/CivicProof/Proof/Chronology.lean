import CivicProof.Calendar.Stamp
import CivicProof.Proof.ScopeShape
import CivicProof.Spec.Evidence

/-!
# Temporal scores and instants

`temporalScore` compares the texts of a timestamp and of the bounds of a scope. The texts stand in the
order of what the clock shows but for a few spellings at the bounds, and the clock is ahead of the
instant by the offset.

* `dayBounds_or_nowhere`: the bounds of a scope are days, or lie on no day at all.
* `textOutside_iff`: the texts compare as the clock does, or are misread.
* `chronological_iff`: when an item is scored by its instant.
-/

namespace CivicProof

variable {U : Unicode} {ref d : CivilDate} {s : TimeScope} {t : Stamp} {lo hi : Option CivilDate}

/-! ## Items and instants -/

/-- The instant of a moment, in seconds. -/
def Moment.instant (a : Moment) : ℚ :=
  86400 * a.date.ordinal + (3600 * a.hour + 60 * a.minute + a.second)

theorem Moment.instant_dayStart (h : d.Valid) : (Moment.dayStart h).instant = 86400 * d.ordinal := by
  simp [Moment.instant, Moment.dayStart]

theorem Moment.instant_dayEnd (h : d.Valid) :
    (Moment.dayEnd h).instant = 86400 * d.ordinal + 86399 := by
  simp only [Moment.instant, Moment.dayEnd]
  norm_num

/-- The item carries the date that the reranker reads. -/
def Dated (e : Evidence) (text : String) : Prop :=
  match e with
  | .graph g => g.properties.prop "occurred_at" = .str text
  | .lexical l => l.properties.prop "captured_at" = .str text

/-- The item is scored as out of range. -/
def OutOfRange (e : Evidence) (s : TimeScope) : Prop :=
  temporalScore e (some s) = match e with
    | .graph _ => 2 / 10
    | .lexical _ => 4 / 10

namespace TimeScope

/-- A point in time before the start or after the end of a scope. -/
def Outside (s : TimeScope) (x : ℚ) : Prop :=
  (∃ a : Moment, s.start = some a.iso ∧ x < a.instant) ∨
    ∃ b : Moment, s.stop = some b.iso ∧ b.instant < x

/-- The bounds are those of existing days. -/
def BoundsExist (s : TimeScope) : Prop :=
  (∀ x ∈ s.start, ∃ a : Moment, a.iso = x) ∧ ∀ x ∈ s.stop, ∃ b : Moment, b.iso = x

/-- The offset carries the clock over a bound of the scope. -/
def Shifted (s : TimeScope) (t : Stamp) : Prop := ¬(s.Outside t.wall ↔ s.Outside t.instant)

/-- The timestamp is spelled so that it stands outside of the scope while its clock is within. -/
def Misread (s : TimeScope) (t : Stamp) : Prop :=
  (s.start = some t.date.dayStart ∧ t.ReadsEarly) ∨ (s.stop = some t.date.dayEnd ∧ t.ReadsLate)

end TimeScope

/-- The score compares the text with both bounds. -/
theorem outOfRange_iff {e : Evidence} {text : String} (h : Dated e text) (hne : text ≠ "") :
    OutOfRange e s ↔ (∃ a, orNone s.start = some a ∧ text < a) ∨
      ∃ b, orNone s.stop = some b ∧ b < text := by
  have htext : timestampText (.str text) = text := by
    unfold timestampText Value.truthy Value.pyStr
    simp [hne]
  have hany : ∀ (o : Option String) (p : String → Bool),
      o.any p = true ↔ ∃ a, o = some a ∧ p a = true := by
    intro o p
    cases o <;> simp
  have hbefore : beforeBound text s.start = true ↔ ∃ a, orNone s.start = some a ∧ text < a := by
    unfold beforeBound
    simp only [hany, decide_eq_true_eq]
  have hafter : afterBound text s.stop = true ↔ ∃ b, orNone s.stop = some b ∧ b < text := by
    unfold afterBound
    simp only [hany, decide_eq_true_eq]
  rw [← hbefore, ← hafter, ← Bool.or_eq_true]
  unfold OutOfRange temporalScore
  cases e with
  | graph g =>
    have hprop : g.properties.prop "occurred_at" = .str text := h
    simp only [hprop, htext, hne, if_false]
    split_ifs with hout
    · exact iff_of_true rfl hout
    · exact iff_of_false (by norm_num) hout
  | lexical l =>
    have hprop : l.properties.prop "captured_at" = .str text := h
    simp only [hprop, htext, hne, if_false]
    split_ifs with hout
    · exact iff_of_true rfl hout
    · exact iff_of_false (by norm_num) hout

/-! ## Bounds -/

/-- The scope runs from the first second of a day to the last second of a day, either of which may be
missing. -/
structure DayBounds (s : TimeScope) (lo hi : Option CivilDate) : Prop where
  start : s.start = lo.map CivilDate.dayStart
  stop : s.stop = hi.map CivilDate.dayEnd
  start_valid : ∀ a ∈ lo, a.Valid
  stop_valid : ∀ b ∈ hi, b.Valid
  ordered : ∀ a ∈ lo, ∀ b ∈ hi, a ≤ b

/-- The bounds are texts of days that do not exist, with no day between. -/
structure Nowhere (s : TimeScope) (a b : CivilDate) : Prop where
  start : s.start = some a.dayStart
  stop : s.stop = some b.dayEnd
  fits : a.Fits ∧ b.Fits
  start_invalid : ¬a.Valid
  stop_invalid : ¬b.Valid
  outside : ∀ d : CivilDate, d.Valid → d < a ∨ b < d

theorem Closed.dayBounds {a b : CivilDate} (h : Closed a b s) : DayBounds s (some a) (some b) where
  start := h.start
  stop := h.stop
  start_valid _ hx := Option.some.inj hx ▸ h.valid.1
  stop_valid _ hx := Option.some.inj hx ▸ h.valid.2
  ordered _ hx _ hy := Option.some.inj hx ▸ Option.some.inj hy ▸ h.ordered

theorem unknown_dayBounds : DayBounds unknownScope none none where
  start := rfl
  stop := rfl
  start_valid _ hx := by cases hx
  stop_valid _ hx := by cases hx
  ordered _ hx := by cases hx

theorem termScope_dayBounds {n : ℕ} (h : termScope n = some s) : ∃ lo hi, DayBounds s lo hi := by
  obtain ⟨term, rfl, hstart, hstop⟩ := termScope_bounds_valid h
  exact ⟨some term.start, term.stop,
    { start := rfl
      stop := rfl
      start_valid := fun _ hx => Option.some.inj hx ▸ hstart
      stop_valid := fun b hb => (hstop b hb).1
      ordered := fun _ hx b hb => Option.some.inj hx ▸ (hstop b hb).2 }⟩

/-- **The bounds of a scope** are days, or lie on no day at all. -/
theorem dayBounds_or_nowhere (U : Unicode) (href : ref.Valid) (phrase : Option String) :
    (∃ lo hi, DayBounds (normalizeTimeScope U ref phrase) lo hi) ∨
      ∃ a b, Nowhere (normalizeTimeScope U ref phrase) a b := by
  have hyears := href.1
  rw [normalizeTimeScope_eq]
  generalize phraseText phrase = text
  have hreading := scopeOfText_reading U ref text
  generalize scopeOfText U ref text = s at hreading
  cases hreading with
  | day h =>
    obtain ⟨y, mo, dd, hshape, hy, hmo, hdd⟩ := isoDate_reading h
    rw [hy, hmo, hdd]
    have hnames : NamesDay text ⟨decimalValue y, decimalValue mo, decimalValue dd⟩ :=
      ⟨y, mo, dd, hshape, rfl⟩
    by_cases hvalid : CivilDate.Valid ⟨decimalValue y, decimalValue mo, decimalValue dd⟩
    · exact Or.inl ⟨_, _, (day_closed hvalid).dayBounds⟩
    · refine Or.inr ⟨_, _, rfl, rfl, ⟨hnames.fits, hnames.fits⟩, hvalid, hvalid, fun d hd => ?_⟩
      refine lt_or_gt_of_ne fun heq => ?_
      rw [heq] at hd
      exact hvalid hd
  | month _ h =>
    obtain ⟨u, name, sp, ds, v, -, hname, -, hds, hmo, hy⟩ := heMonth_reading h
    have hvalue := hds.value
    have hlt : heMonths.idxOf name < 12 := List.idxOf_lt_length_iff.2 hname
    rw [hmo, hy]
    exact Or.inl ⟨_, _, (month_closed ⟨by omega, by omega⟩ ⟨by omega, hlt⟩).dayBounds⟩
  | heTerm _ _ _ h => exact Or.inl (termScope_dayBounds h)
  | enTerm _ _ _ _ h => exact Or.inl (termScope_dayBounds h)
  | lastYear _ _ =>
    by_cases hone : ref.year = 1
    · rw [hone]
      refine Or.inr ⟨⟨0, 1, 1⟩, ⟨0, 12, 31⟩, rfl, rfl, ⟨⟨by decide, by decide, by decide⟩,
        ⟨by decide, by decide, by decide⟩⟩, by decide, by decide, fun d hd => Or.inr ?_⟩
      have hpos := hd.1.1
      exact CivilDate.lt_def.2 (Or.inl hpos)
    · exact Or.inl ⟨_, _, (year_closed ⟨by omega, by omega⟩).dayBounds⟩
  | lastTerm _ h =>
    unfold lastTermScope at h
    split at h
    · split at h
      · exact Or.inl (termScope_dayBounds h)
      · cases h
    · cases h
  | year _ _ h =>
    obtain ⟨ds, -, hds, hy⟩ := yearPattern_reading h
    have hvalue := hds.value
    rw [hy]
    exact Or.inl ⟨_, _, (year_closed ⟨by omega, by omega⟩).dayBounds⟩
  | unknown => exact Or.inl ⟨none, none, unknown_dayBounds⟩

/-! ## Texts, clocks and instants -/

theorem orNone_dayStart (d : CivilDate) : orNone (some d.dayStart) = some d.dayStart :=
  orNone_isSome fun h => by simpa [CivilDate.dayStart, CivilDate.iso] using congrArg String.length h

theorem orNone_dayEnd (d : CivilDate) : orNone (some d.dayEnd) = some d.dayEnd :=
  orNone_isSome fun h => by simpa [CivilDate.dayEnd, CivilDate.iso] using congrArg String.length h

namespace DayBounds

variable (h : DayBounds s lo hi)
include h

theorem boundsExist : s.BoundsExist := by
  refine ⟨fun x hx => ?_, fun x hx => ?_⟩
  · rw [h.start] at hx
    obtain ⟨a, ha, rfl⟩ := Option.map_eq_some_iff.1 hx
    exact ⟨_, Moment.iso_dayStart (h.start_valid a ha)⟩
  · rw [h.stop] at hx
    obtain ⟨b, hb, rfl⟩ := Option.map_eq_some_iff.1 hx
    exact ⟨_, Moment.iso_dayEnd (h.stop_valid b hb)⟩

theorem outside_iff (x : ℚ) : s.Outside x ↔
    (∃ a ∈ lo, x < 86400 * a.ordinal) ∨ ∃ b ∈ hi, 86400 * (b.ordinal : ℚ) + 86399 < x := by
  unfold TimeScope.Outside
  rw [h.start, h.stop]
  refine or_congr ?_ ?_
  · constructor
    · rintro ⟨a, ha, hlt⟩
      obtain ⟨d, hd, heq⟩ := Option.map_eq_some_iff.1 ha
      have hvalid := h.start_valid d hd
      rw [← Moment.iso_dayStart hvalid] at heq
      rw [← Moment.iso_inj heq, Moment.instant_dayStart] at hlt
      exact ⟨d, hd, hlt⟩
    · rintro ⟨d, hd, hlt⟩
      have hvalid := h.start_valid d hd
      refine ⟨Moment.dayStart hvalid, ?_, by rwa [Moment.instant_dayStart]⟩
      rw [Option.mem_def.1 hd, Moment.iso_dayStart]
      rfl
  · constructor
    · rintro ⟨b, hb, hlt⟩
      obtain ⟨d, hd, heq⟩ := Option.map_eq_some_iff.1 hb
      have hvalid := h.stop_valid d hd
      rw [← Moment.iso_dayEnd hvalid] at heq
      rw [← Moment.iso_inj heq, Moment.instant_dayEnd] at hlt
      exact ⟨d, hd, hlt⟩
    · rintro ⟨d, hd, hlt⟩
      have hvalid := h.stop_valid d hd
      refine ⟨Moment.dayEnd hvalid, ?_, by rwa [Moment.instant_dayEnd]⟩
      rw [Option.mem_def.1 hd, Moment.iso_dayEnd]
      rfl

/-- **The clock is outside of the scope** by its day, or past the last second. -/
theorem wall_outside_iff : s.Outside t.wall ↔ (∃ a ∈ lo, t.date < a) ∨
    ∃ b ∈ hi, b < t.date ∨ (t.date = b ∧ t.PastLast) := by
  rw [h.outside_iff]
  refine or_congr (exists_congr fun a => and_congr_right fun ha => ?_)
    (exists_congr fun b => and_congr_right fun hb => ?_)
  · exact Stamp.wall_lt_dayStart (h.start_valid a ha)
  · exact Stamp.dayEnd_lt_wall (h.stop_valid b hb)

theorem misread_iff : s.Misread t ↔ (∃ a ∈ lo, t.date = a ∧ t.ReadsEarly) ∨
    ∃ b ∈ hi, t.date = b ∧ t.ReadsLate := by
  unfold TimeScope.Misread
  rw [h.start, h.stop]
  refine or_congr ?_ ?_
  · constructor
    · rintro ⟨hstart, hearly⟩
      obtain ⟨a, ha, heq⟩ := Option.map_eq_some_iff.1 hstart
      have hdate := Moment.date_of_iso t.date_valid.fits
        ((Moment.iso_dayStart (h.start_valid a ha)).trans heq)
      exact ⟨a, ha, hdate.symm, hearly⟩
    · rintro ⟨a, ha, rfl, hearly⟩
      exact ⟨by rw [Option.mem_def.1 ha]; rfl, hearly⟩
  · constructor
    · rintro ⟨hstop, hlate⟩
      obtain ⟨b, hb, heq⟩ := Option.map_eq_some_iff.1 hstop
      have hdate := Moment.date_of_iso t.date_valid.fits
        ((Moment.iso_dayEnd (h.stop_valid b hb)).trans heq)
      exact ⟨b, hb, hdate.symm, hlate⟩
    · rintro ⟨b, hb, rfl, hlate⟩
      exact ⟨by rw [Option.mem_def.1 hb]; rfl, hlate⟩

/-- **The texts compare as the clock does**, or are misread. -/
theorem textOutside_iff {e : Evidence} (he : Dated e t.text) :
    OutOfRange e s ↔ s.Outside t.wall ∨ s.Misread t := by
  have hstart : (∃ a, orNone s.start = some a ∧ t.text < a) ↔
      ∃ a ∈ lo, t.date < a ∨ (t.date = a ∧ t.ReadsEarly) := by
    rw [h.start]
    cases hlo : lo with
    | none => simp [orNone]
    | some a =>
      have hvalid := h.start_valid a hlo
      rw [Option.map_some, orNone_dayStart]
      simp only [Option.some.injEq, exists_eq_left', Option.mem_def]
      exact Stamp.text_lt_dayStart hvalid.fits
  have hstop : (∃ b, orNone s.stop = some b ∧ b < t.text) ↔
      ∃ b ∈ hi, b < t.date ∨ (t.date = b ∧ (t.PastLast ∨ t.ReadsLate)) := by
    rw [h.stop]
    cases hhi : hi with
    | none => simp [orNone]
    | some b =>
      have hvalid := h.stop_valid b hhi
      rw [Option.map_some, orNone_dayEnd]
      simp only [Option.some.injEq, exists_eq_left', Option.mem_def]
      exact Stamp.dayEnd_lt_text hvalid.fits
  rw [outOfRange_iff he t.text_ne_empty, hstart, hstop, h.wall_outside_iff, h.misread_iff]
  constructor
  · rintro (⟨a, ha, hlt | hearly⟩ | ⟨b, hb, hlt | ⟨heq, hlast | hlate⟩⟩)
    · exact Or.inl (Or.inl ⟨a, ha, hlt⟩)
    · exact Or.inr (Or.inl ⟨a, ha, hearly⟩)
    · exact Or.inl (Or.inr ⟨b, hb, Or.inl hlt⟩)
    · exact Or.inl (Or.inr ⟨b, hb, Or.inr ⟨heq, hlast⟩⟩)
    · exact Or.inr (Or.inr ⟨b, hb, heq, hlate⟩)
  · rintro ((⟨a, ha, hlt⟩ | ⟨b, hb, hlt | ⟨heq, hlast⟩⟩) | ⟨a, ha, hearly⟩ | ⟨b, hb, heq, hlate⟩)
    · exact Or.inl ⟨a, ha, Or.inl hlt⟩
    · exact Or.inr ⟨b, hb, Or.inl hlt⟩
    · exact Or.inr ⟨b, hb, Or.inr ⟨heq, Or.inl hlast⟩⟩
    · exact Or.inl ⟨a, ha, Or.inr hearly⟩
    · exact Or.inr ⟨b, hb, Or.inr ⟨heq, Or.inr hlate⟩⟩

/-- A misread timestamp has its clock within the scope. -/
theorem not_outside_of_misread (hm : s.Misread t) : ¬s.Outside t.wall := by
  rw [h.misread_iff] at hm
  rw [h.wall_outside_iff]
  rintro (⟨a, ha, hlt⟩ | ⟨b, hb, hafter⟩)
  · rcases hm with ⟨a', ha', heq, -⟩ | ⟨b, hb, heq, -⟩
    · rw [Option.mem_unique ha ha', heq] at hlt
      exact lt_irrefl _ hlt
    · rw [heq] at hlt
      exact absurd hlt (not_lt.2 (h.ordered a ha b hb))
  · rcases hm with ⟨a, ha, heq, hearly⟩ | ⟨b', hb', heq, hlate⟩
    · have hle := h.ordered a ha b hb
      rw [← heq] at hle
      rcases hafter with hlt | ⟨-, hlast⟩
      · exact absurd hlt (not_lt.2 hle)
      · have hhour := hearly.1.symm.trans hlast.1
        exact absurd hhour (by decide)
    · obtain rfl := Option.mem_unique hb hb'
      rcases hafter with hlt | ⟨-, hlast⟩
      · rw [heq] at hlt
        exact lt_irrefl _ hlt
      · exact t.not_pastLast_of_readsLate hlate hlast

end DayBounds

/-- No instant is outside of bounds that are none, and every text is. -/
theorem Nowhere.astray {a b : CivilDate} (h : Nowhere s a b) {e : Evidence} (he : Dated e t.text) :
    OutOfRange e s ∧ ¬s.BoundsExist ∧ ∀ x, ¬s.Outside x := by
  refine ⟨?_, fun hex => ?_, fun x hout => ?_⟩
  · rw [outOfRange_iff he t.text_ne_empty, h.start, h.stop, orNone_dayStart, orNone_dayEnd]
    rcases h.outside t.date t.date_valid with hlt | hlt
    · exact Or.inl ⟨_, rfl, (Stamp.text_lt_dayStart h.fits.1).2 (Or.inl hlt)⟩
    · exact Or.inr ⟨_, rfl, (Stamp.dayEnd_lt_text h.fits.2).2 (Or.inl hlt)⟩
  · obtain ⟨m, hm⟩ := hex.1 _ h.start
    exact h.start_invalid (Moment.date_of_iso h.fits.1 hm ▸ m.date_valid)
  · rcases hout with ⟨m, hm, -⟩ | ⟨m, hm, -⟩
    · have hiso := Option.some.inj (hm.symm.trans h.start)
      exact h.start_invalid (Moment.date_of_iso h.fits.1 hiso ▸ m.date_valid)
    · have hiso := Option.some.inj (hm.symm.trans h.stop)
      exact h.stop_invalid (Moment.date_of_iso h.fits.2 hiso ▸ m.date_valid)

/-- **When an item is scored by its instant**: the bounds exist, and its offset carries the clock over
one of them exactly if the timestamp is misread there. -/
theorem chronological_iff (U : Unicode) (href : ref.Valid) (phrase : Option String) {e : Evidence}
    (t : Stamp) (he : Dated e t.text) :
    (OutOfRange e (normalizeTimeScope U ref phrase) ↔
        (normalizeTimeScope U ref phrase).Outside t.instant) ↔
      (normalizeTimeScope U ref phrase).BoundsExist ∧
        ((normalizeTimeScope U ref phrase).Shifted t ↔
          (normalizeTimeScope U ref phrase).Misread t) := by
  rcases dayBounds_or_nowhere U href phrase with ⟨lo, hi, h⟩ | ⟨a, b, h⟩
  · have hmisread := h.not_outside_of_misread (t := t)
    rw [and_iff_right h.boundsExist, h.textOutside_iff he]
    unfold TimeScope.Shifted
    by_cases hm : (normalizeTimeScope U ref phrase).Misread t
    · have hwall := hmisread hm
      simp only [hm, hwall, or_true, true_iff, false_iff, not_not, iff_true]
    · simp only [hm, or_false, iff_false, not_not]
  · obtain ⟨hout, hnone, hnever⟩ := h.astray he
    exact iff_of_false (fun hiff => hnever _ (hiff.1 hout)) fun hcond => hnone hcond.1

/-! ## The last second of a year -/

theorem newYearsEve_valid : (⟨2021, 12, 31⟩ : CivilDate).Valid := by decide

theorem lastHour_lt : 23 < 24 := by decide

theorem lastMinute_lt : 59 < 60 := by decide

/-- The last second of 2021 on a clock of this zone. -/
def lastSecond (z : Zone) : Stamp where
  date := ⟨2021, 12, 31⟩
  hour := 23
  minute := 59
  seconds := .whole 59
  zone := z
  date_valid := newYearsEve_valid
  hour_lt := lastHour_lt
  minute_lt := lastMinute_lt
  seconds_wf := lastMinute_lt

theorem noHours_lt : 0 < 24 := by decide

theorem noMinutes_lt : 0 < 60 := by decide

theorem noMinutes_written : OffsetStyle.extended = .hours → 0 = 0 := fun _ => rfl

/-- The offset `+00:00`. -/
def noOffset : Offset := ⟨false, 0, 0, .extended, noHours_lt, noMinutes_lt, noMinutes_written⟩

/-- A vote with this date. -/
def datedVote (text : String) : Evidence :=
  .graph ⟨.voteCast, ∅, Dict.ofList [("occurred_at", .str text)], [], 1⟩

theorem dated_datedVote (text : String) : Dated (datedVote text) text := rfl

theorem year_2021 : normalizeTimeScope asciiWords ⟨2024, 1, 1⟩ (some "2021") = yearBounds 2021 := by
  decide

theorem chronological_iff_2021 :
    (OutOfRange (datedVote (lastSecond .utc).text)
        (normalizeTimeScope asciiWords ⟨2024, 1, 1⟩ (some "2021")) ↔
      (normalizeTimeScope asciiWords ⟨2024, 1, 1⟩ (some "2021")).Outside (lastSecond .utc).instant) ↔
      (normalizeTimeScope asciiWords ⟨2024, 1, 1⟩ (some "2021")).BoundsExist ∧
        ((normalizeTimeScope asciiWords ⟨2024, 1, 1⟩ (some "2021")).Shifted (lastSecond .utc) ↔
          (normalizeTimeScope asciiWords ⟨2024, 1, 1⟩ (some "2021")).Misread (lastSecond .utc)) :=
  chronological_iff asciiWords (by decide) (some "2021") (lastSecond .utc) (dated_datedVote _)

/-- **`Z` and `+00:00`**: the last second of the year is out of range in one spelling. -/
theorem zulu_out_of_range :
    (lastSecond .utc).instant = (lastSecond (.offset noOffset)).instant ∧
      ¬(normalizeTimeScope asciiWords ⟨2024, 1, 1⟩ (some "2021")).Outside (lastSecond .utc).instant ∧
      OutOfRange (datedVote (lastSecond .utc).text)
        (normalizeTimeScope asciiWords ⟨2024, 1, 1⟩ (some "2021")) ∧
      ¬OutOfRange (datedVote (lastSecond (.offset noOffset)).text)
        (normalizeTimeScope asciiWords ⟨2024, 1, 1⟩ (some "2021")) := by
  rw [year_2021]
  have hbounds : DayBounds (yearBounds 2021) (some ⟨2021, 1, 1⟩) (some ⟨2021, 12, 31⟩) :=
    (year_closed ⟨by decide, by decide⟩).dayBounds
  have hahead : Offset.ahead noOffset = 0 := by decide
  have hinstant : (lastSecond .utc).instant = (lastSecond .utc).wall := by
    unfold Stamp.instant Zone.ahead lastSecond
    simp
  have hsame : (lastSecond .utc).instant = (lastSecond (.offset noOffset)).instant := by
    rw [hinstant]
    unfold Stamp.instant Stamp.wall Zone.ahead lastSecond
    simp [hahead]
  have hlast : ¬(lastSecond .utc).PastLast := by
    refine Stamp.not_pastLast_of_readsLate _ ⟨rfl, rfl, Or.inr (Or.inl ⟨rfl, ?_⟩)⟩
    decide
  have hwithin : ¬(yearBounds 2021).Outside (lastSecond .utc).wall := by
    rw [hbounds.wall_outside_iff]
    rintro (⟨a, ha, hlt⟩ | ⟨b, hb, hlt | ⟨-, hpast⟩⟩)
    · rw [← Option.some.inj ha] at hlt
      exact absurd hlt (by decide)
    · rw [← Option.some.inj hb] at hlt
      exact absurd hlt (by decide)
    · exact hlast hpast
  refine ⟨hsame, hinstant ▸ hwithin, ?_, ?_⟩
  · rw [outOfRange_iff (dated_datedVote _) (Stamp.text_ne_empty _)]
    exact Or.inr ⟨_, rfl, by decide⟩
  · rw [outOfRange_iff (dated_datedVote _) (Stamp.text_ne_empty _)]
    rintro (⟨a, ha, hlt⟩ | ⟨b, hb, hlt⟩)
    · cases ha
      exact absurd hlt (by decide)
    · cases hb
      exact absurd hlt (by decide)

end CivicProof
