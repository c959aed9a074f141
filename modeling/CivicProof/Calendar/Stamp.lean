import CivicProof.Calendar.Moment
import Mathlib.Data.Rat.Floor
import Mathlib.Tactic.Linarith
import Mathlib.Tactic.Positivity

/-!
# Timestamps

ISO 8601 timestamps with or without seconds and their fraction, in UTC or with a numeric offset: what
their clock shows, the instant they mean, and where their texts stand among the texts of the first and
the last second of a day.

* `CivilDate.ordinal_lt_iff`: the days are numbered in their order.
* `Stamp.wall_lt_dayStart`, `Stamp.dayEnd_lt_wall`: the clock before and after a day.
* `Stamp.text_lt_dayStart`, `Stamp.dayEnd_lt_text`: the text before and after a day.
-/

namespace CivicProof

/-! ## Day numbers -/

/-- The days of the years before. -/
def daysBeforeYear (year : ℕ) : ℕ :=
  365 * (year - 1) + ((year - 1) / 4 - (year - 1) / 100) + (year - 1) / 400

/-- The days of the months before. -/
def daysBeforeMonth (year : ℕ) : ℕ → ℕ
  | 0 => 0
  | 1 => 0
  | month + 2 => daysBeforeMonth year (month + 1) + lastDayOfMonth year (month + 1)

theorem daysBeforeMonth_mono (year : ℕ) : Monotone (daysBeforeMonth year) := by
  refine monotone_nat_of_le_succ fun month => ?_
  cases month with
  | zero => exact le_rfl
  | succ month => exact Nat.le_add_right _ _

theorem daysBeforeMonth_end (year : ℕ) :
    daysBeforeMonth year 13 = 337 + lastDayOfMonth year 2 := by
  have hsum : daysBeforeMonth year 13 = 0 + 31 + lastDayOfMonth year 2 + 31 + 30 + 31 + 30 + 31 + 31 +
      30 + 31 + 30 + 31 := rfl
  omega

theorem daysBeforeYear_succ {year : ℕ} (hy : 1 ≤ year) :
    daysBeforeYear (year + 1) = daysBeforeYear year + daysBeforeMonth year 13 := by
  have hfeb : lastDayOfMonth year 2 =
      if year % 4 = 0 ∧ (year % 100 ≠ 0 ∨ year % 400 = 0) then 29 else 28 := rfl
  obtain ⟨n, rfl⟩ : ∃ n, year = n + 1 := ⟨year - 1, by omega⟩
  rw [daysBeforeMonth_end, hfeb]
  unfold daysBeforeYear
  simp only [Nat.add_sub_cancel, Nat.succ_div, Nat.dvd_iff_mod_eq_zero]
  have hcentury : n / 100 ≤ n / 4 := Nat.div_le_div_left (by decide) (by decide)
  have hmod : (n + 1) % 400 = 0 → (n + 1) % 100 = 0 := by omega
  have hmod' : (n + 1) % 100 = 0 → (n + 1) % 4 = 0 := by omega
  generalize n / 100 = a, n / 4 = b, n / 400 = c at *
  split_ifs <;> omega

theorem daysBeforeYear_mono {a b : ℕ} (ha : 1 ≤ a) (hab : a ≤ b) :
    daysBeforeYear a ≤ daysBeforeYear b := by
  induction b, hab using Nat.le_induction with
  | base => exact le_rfl
  | succ b hb ih =>
    have hsucc := daysBeforeYear_succ (ha.trans hb)
    omega

namespace CivilDate

/-- `date.toordinal()`. -/
def ordinal (d : CivilDate) : ℕ := daysBeforeYear d.year + daysBeforeMonth d.year d.month + d.day

theorem ordinal_lt {a b : CivilDate} (ha : a.Valid) (hb : b.Valid) (h : a < b) :
    a.ordinal < b.ordinal := by
  obtain ⟨⟨hy, -⟩, ⟨hm, hm'⟩, -, hd⟩ := ha
  obtain ⟨-, ⟨hbm, -⟩, hbd, -⟩ := hb
  -- the month of `a` ends by the month after it
  have hmonth : daysBeforeMonth a.year a.month + a.day ≤ daysBeforeMonth a.year (a.month + 1) := by
    obtain ⟨n, hn⟩ : ∃ n, a.month = n + 1 := ⟨a.month - 1, by omega⟩
    rw [hn] at hd ⊢
    exact Nat.add_le_add_left hd _
  unfold ordinal
  rcases lt_def.1 h with hyear | ⟨hyear, hlt⟩
  · have hend := daysBeforeMonth_mono a.year (show a.month + 1 ≤ 13 by omega)
    have hnext := daysBeforeYear_succ hy
    have hle := daysBeforeYear_mono (show 1 ≤ a.year + 1 by omega) hyear
    omega
  · rw [hyear] at hmonth ⊢
    rcases hlt with hlt | ⟨heq, hlt⟩
    · have hle := daysBeforeMonth_mono b.year (show a.month + 1 ≤ b.month from hlt)
      omega
    · rw [heq]
      omega

/-- **Days are numbered in their order.** -/
theorem ordinal_lt_iff {a b : CivilDate} (ha : a.Valid) (hb : b.Valid) :
    a.ordinal < b.ordinal ↔ a < b := by
  refine ⟨fun h => ?_, ordinal_lt ha hb⟩
  rcases lt_trichotomy a b with hlt | rfl | hgt
  · exact hlt
  · exact absurd h (lt_irrefl _)
  · exact absurd h (ordinal_lt hb ha hgt).asymm

end CivilDate

/-! ## Timestamps -/

/-- How an offset is written: `+02:00`, `+0200` or `+02`. -/
inductive OffsetStyle where
  | extended
  | basic
  | hours
  deriving DecidableEq, Repr

/-- A numeric offset from UTC. -/
structure Offset where
  west : Bool
  hours : ℕ
  minutes : ℕ
  style : OffsetStyle
  hours_lt : hours < 24
  minutes_lt : minutes < 60
  written : style = .hours → minutes = 0

/-- The text of an offset. -/
def Offset.text (o : Offset) : String :=
  (if o.west then "-" else "+") ++ pad 2 o.hours ++ match o.style with
    | .extended => ":" ++ pad 2 o.minutes
    | .basic => pad 2 o.minutes
    | .hours => ""

/-- The seconds that a clock with the offset is ahead of UTC. -/
def Offset.ahead (o : Offset) : ℤ :=
  (if o.west then -1 else 1) * (3600 * o.hours + 60 * o.minutes)

/-- The end of a timestamp: `Z` or an offset. -/
inductive Zone where
  | utc
  | offset (o : Offset)

/-- The text of a zone. -/
def Zone.text : Zone → String
  | .utc => "Z"
  | .offset o => o.text

/-- The seconds that a clock of the zone is ahead of UTC. -/
def Zone.ahead : Zone → ℤ
  | .utc => 0
  | .offset o => o.ahead

/-- The seconds of a timestamp: left out, whole, or with the digits of a fraction. -/
inductive Seconds where
  | omitted
  | whole (s : ℕ)
  | split (s : ℕ) (digits : List Char)

namespace Seconds

/-- The text after the minutes. -/
def text : Seconds → String
  | .omitted => ""
  | .whole s => ":" ++ pad 2 s
  | .split s digits => ":" ++ pad 2 s ++ "." ++ String.ofList digits

/-- The value of a fraction's digits. -/
def fraction (digits : List Char) : ℚ := Nat.ofDigitChars 10 digits 0 / 10 ^ digits.length

/-- The number of seconds. -/
def value : Seconds → ℚ
  | .omitted => 0
  | .whole s => s
  | .split s digits => s + fraction digits

/-- Seconds below a minute, a fraction of decimal digits. -/
def WellFormed : Seconds → Prop
  | .omitted => True
  | .whole s => s < 60
  | .split s digits => s < 60 ∧ ∀ c ∈ digits, c.isDigit = true

theorem fraction_nonneg (digits : List Char) : 0 ≤ fraction digits := by
  unfold fraction
  positivity

theorem fraction_lt_one {digits : List Char} (h : ∀ c ∈ digits, c.isDigit = true) :
    fraction digits < 1 := by
  have hlt := ofDigitChars_lt h 0
  rw [Nat.zero_add, Nat.one_mul] at hlt
  unfold fraction
  rw [div_lt_one (by positivity)]
  exact_mod_cast hlt

theorem value_nonneg (s : Seconds) : 0 ≤ s.value := by
  cases s with
  | omitted => exact le_rfl
  | whole s => exact Nat.cast_nonneg s
  | split s digits => exact add_nonneg (Nat.cast_nonneg s) (fraction_nonneg digits)

theorem value_lt {s : Seconds} (h : s.WellFormed) : s.value < 60 := by
  cases s with
  | omitted => norm_num [value]
  | whole s =>
    have hs : s < 60 := h
    have hcast : (s : ℚ) < 60 := by exact_mod_cast hs
    exact hcast
  | split s digits =>
    obtain ⟨hs, hdigits⟩ := h
    have hfrac := fraction_lt_one hdigits
    have hcast : (s : ℚ) ≤ 59 := by exact_mod_cast Nat.le_of_lt_succ hs
    unfold value
    linarith

end Seconds

/-- An ISO 8601 timestamp. -/
structure Stamp where
  date : CivilDate
  hour : ℕ
  minute : ℕ
  seconds : Seconds
  zone : Zone
  date_valid : date.Valid
  hour_lt : hour < 24
  minute_lt : minute < 60
  seconds_wf : seconds.WellFormed

namespace Stamp

/-- What the clock shows, in seconds. -/
def wall (t : Stamp) : ℚ :=
  86400 * t.date.ordinal + (3600 * t.hour + 60 * t.minute + t.seconds.value)

/-- The instant, in seconds. -/
def instant (t : Stamp) : ℚ := t.wall - t.zone.ahead

/-- The text of a timestamp. -/
def text (t : Stamp) : String :=
  t.date.iso ++ "T" ++ pad 2 t.hour ++ ":" ++ pad 2 t.minute ++ t.seconds.text ++ t.zone.text

/-! ## The clock -/

/-- The clock is in the last second of its day, past its beginning. -/
def PastLast (t : Stamp) : Prop := t.hour = 23 ∧ t.minute = 59 ∧ 59 < t.seconds.value

variable {t : Stamp} {d : CivilDate}

theorem time_range (t : Stamp) : 0 ≤ 3600 * (t.hour : ℚ) + 60 * t.minute + t.seconds.value ∧
    3600 * (t.hour : ℚ) + 60 * t.minute + t.seconds.value < 86400 := by
  have hhour : (t.hour : ℚ) ≤ 23 := by exact_mod_cast Nat.le_of_lt_succ t.hour_lt
  have hminute : (t.minute : ℚ) ≤ 59 := by exact_mod_cast Nat.le_of_lt_succ t.minute_lt
  have hpos := t.seconds.value_nonneg
  have hlt := Seconds.value_lt t.seconds_wf
  refine ⟨by positivity, by linarith⟩

/-- The clock shows a time before a day. -/
theorem wall_lt_dayStart (hd : d.Valid) : t.wall < 86400 * d.ordinal ↔ t.date < d := by
  obtain ⟨hpos, hlt⟩ := t.time_range
  unfold wall
  constructor
  · intro h
    by_contra hle
    have hord : d.ordinal ≤ t.date.ordinal :=
      not_lt.1 fun hlt => hle ((CivilDate.ordinal_lt_iff t.date_valid hd).1 hlt)
    have hcast : (d.ordinal : ℚ) ≤ t.date.ordinal := by exact_mod_cast hord
    linarith
  · intro h
    have hcast : (t.date.ordinal : ℚ) + 1 ≤ d.ordinal := by
      exact_mod_cast CivilDate.ordinal_lt t.date_valid hd h
    linarith

theorem past_last_iff : 86399 < 3600 * (t.hour : ℚ) + 60 * t.minute + t.seconds.value ↔
    t.PastLast := by
  have hlt := Seconds.value_lt t.seconds_wf
  unfold PastLast
  constructor
  · intro h
    have hhour : t.hour = 23 := by
      by_contra hne
      have hle : (t.hour : ℚ) ≤ 22 := by
        have := t.hour_lt
        exact_mod_cast (show t.hour ≤ 22 by omega)
      have hminute : (t.minute : ℚ) ≤ 59 := by exact_mod_cast Nat.le_of_lt_succ t.minute_lt
      linarith
    have hminute : t.minute = 59 := by
      by_contra hne
      have hle : (t.minute : ℚ) ≤ 58 := by
        have := t.minute_lt
        exact_mod_cast (show t.minute ≤ 58 by omega)
      rw [hhour] at h
      norm_num at h
      linarith
    rw [hhour, hminute] at h
    norm_num at h
    exact ⟨hhour, hminute, by linarith⟩
  · rintro ⟨hhour, hminute, hsec⟩
    rw [hhour, hminute]
    norm_num
    linarith

/-- The clock shows a time after the last second of a day has begun. -/
theorem dayEnd_lt_wall (hd : d.Valid) : 86400 * (d.ordinal : ℚ) + 86399 < t.wall ↔
    d < t.date ∨ (t.date = d ∧ t.PastLast) := by
  obtain ⟨hpos, hlt⟩ := t.time_range
  unfold wall
  constructor
  · intro h
    rcases lt_trichotomy t.date d with hbefore | heq | hafter
    · have hcast : (t.date.ordinal : ℚ) + 1 ≤ d.ordinal := by
        exact_mod_cast CivilDate.ordinal_lt t.date_valid hd hbefore
      linarith
    · rw [heq] at h
      exact Or.inr ⟨heq, past_last_iff.1 (by linarith)⟩
    · exact Or.inl hafter
  · rintro (hafter | ⟨heq, hlast⟩)
    · have hcast : (d.ordinal : ℚ) + 1 ≤ t.date.ordinal := by
        exact_mod_cast CivilDate.ordinal_lt hd t.date_valid hafter
      linarith
    · have htime := past_last_iff.2 hlast
      rw [heq]
      linarith

/-! ## The text -/

/-- The characters of a day, an hour, a minute and what follows. -/
def clockText (d : CivilDate) (hour minute : ℕ) (rest : List Char) : List Char :=
  d.iso.toList ++ ('T' :: ((pad 2 hour).toList ++ (':' :: ((pad 2 minute).toList ++ rest))))

/-- **Texts of days and times** stand in the order of their parts. -/
theorem clockText_lt {a b : CivilDate} (ha : a.Fits) (hb : b.Fits) {h h' m m' : ℕ}
    (hh : h < 24) (hh' : h' < 24) (hm : m < 60) (hm' : m' < 60) {r r' : List Char} :
    clockText a h m r < clockText b h' m' r' ↔
      a < b ∨ (a = b ∧ (h < h' ∨ (h = h' ∧ (m < m' ∨ (m = m' ∧ r < r'))))) := by
  have hwidth : ∀ {n k : ℕ}, n < 100 → k < 100 →
      (pad 2 n).toList.length = (pad 2 k).toList.length := by
    intro n k hn hk
    rw [pad_length (w := 2) (by decide) hn, pad_length (w := 2) (by decide) hk]
  have hlt : ∀ {n k : ℕ}, n < 100 → k < 100 → ((pad 2 n).toList < (pad 2 k).toList ↔ n < k) :=
    fun hn hk => pad_lt_pad (w := 2) (by decide) hn hk
  have hT : ¬('T' < 'T') := by decide
  have hcolon : ¬(':' < ':') := by decide
  unfold clockText
  rw [append_lt_append ((CivilDate.iso_length ha).trans (CivilDate.iso_length hb).symm),
    CivilDate.iso_lt_iso ha hb, CivilDate.iso_inj ha hb, List.cons_lt_cons_iff,
    append_lt_append (hwidth (by omega) (by omega)), hlt (by omega) (by omega), pad_inj,
    List.cons_lt_cons_iff, append_lt_append (hwidth (by omega) (by omega)),
    hlt (by omega) (by omega), pad_inj]
  simp only [hT, hcolon, false_or, true_and]

theorem text_toList (t : Stamp) : t.text.toList =
    clockText t.date t.hour t.minute (t.seconds.text.toList ++ t.zone.text.toList) := by
  unfold text clockText
  simp [String.toList_append]

end Stamp

/-- The text of the first second of a day. -/
theorem CivilDate.dayStart_toList (d : CivilDate) :
    d.dayStart.toList = Stamp.clockText d 0 0 (':' :: ((pad 2 0).toList ++ "+00:00".toList)) := by
  have hzero : (pad 2 0).toList = ['0', '0'] := by decide
  unfold CivilDate.dayStart Stamp.clockText
  rw [hzero, String.toList_append]
  rfl

/-- The text of the last second of a day. -/
theorem CivilDate.dayEnd_toList (d : CivilDate) :
    d.dayEnd.toList = Stamp.clockText d 23 59 (':' :: ((pad 2 59).toList ++ "+00:00".toList)) := by
  have hours : (pad 2 23).toList = ['2', '3'] := by decide
  have minutes : (pad 2 59).toList = ['5', '9'] := by decide
  unfold CivilDate.dayEnd Stamp.clockText
  rw [hours, minutes, String.toList_append]
  rfl

namespace Stamp

variable {t : Stamp} {d : CivilDate}

/-- The text stands before that of the first second of its day: the seconds are left out before an
offset, or the offset is spelled lower. -/
def ReadsEarly (t : Stamp) : Prop :=
  t.hour = 0 ∧ t.minute = 0 ∧ ((t.seconds = .omitted ∧ t.zone ≠ .utc) ∨
    (t.seconds = .whole 0 ∧ t.zone.text < "+00:00"))

/-- The text stands after that of the last second of its day, though the clock is not past it: the
seconds are left out before a `Z`, the zone is spelled higher, or the fraction is zero. -/
def ReadsLate (t : Stamp) : Prop :=
  t.hour = 23 ∧ t.minute = 59 ∧ ((t.seconds = .omitted ∧ t.zone = .utc) ∨
    (t.seconds = .whole 59 ∧ "+00:00" < t.zone.text) ∨
    ∃ digits, t.seconds = .split 59 digits ∧ Seconds.fraction digits = 0)

theorem zone_text (z : Zone) : (z = .utc ∧ z.text.toList = ['Z']) ∨
    (z ≠ .utc ∧ ∃ c rest, z.text.toList = c :: rest ∧ (c = '+' ∨ c = '-')) := by
  cases z with
  | utc => exact Or.inl ⟨rfl, rfl⟩
  | offset o =>
    refine Or.inr ⟨Zone.noConfusion, ?_⟩
    unfold Zone.text Offset.text
    simp only [String.toList_append, List.append_assoc]
    cases o.west with
    | true => exact ⟨'-', _, rfl, Or.inr rfl⟩
    | false => exact ⟨'+', _, rfl, Or.inl rfl⟩

/-- A zone stands before a colon unless it is `Z`. -/
theorem zone_lt_colon (z : Zone) (r : List Char) : z.text.toList < ':' :: r ↔ z ≠ .utc := by
  rcases zone_text z with ⟨hz, htext⟩ | ⟨hz, c, rest, htext, hc⟩
  · rw [htext, List.cons_lt_cons_iff]
    refine iff_of_false ?_ (not_not.2 hz)
    rintro (h | ⟨h, -⟩)
    · exact absurd h (by decide)
    · exact absurd h (by decide)
  · rw [htext, List.cons_lt_cons_iff]
    refine iff_of_true (Or.inl ?_) hz
    rcases hc with rfl | rfl <;> decide

theorem colon_lt_zone (z : Zone) (r : List Char) : ':' :: r < z.text.toList ↔ z = .utc := by
  rcases zone_text z with ⟨hz, htext⟩ | ⟨hz, c, rest, htext, hc⟩
  · rw [htext, List.cons_lt_cons_iff]
    exact iff_of_true (Or.inl (by decide)) hz
  · rw [htext, List.cons_lt_cons_iff]
    refine iff_of_false ?_ hz
    rintro (h | ⟨h, -⟩)
    · rcases hc with rfl | rfl <;> exact absurd h (by decide)
    · rcases hc with rfl | rfl <;> exact absurd h (by decide)

theorem colon_pad_lt {s k : ℕ} (hs : s < 60) (hk : k < 60) {r r' : List Char} :
    ':' :: ((pad 2 s).toList ++ r) < ':' :: ((pad 2 k).toList ++ r') ↔ s < k ∨ (s = k ∧ r < r') := by
  have hcolon : ¬(':' < ':') := by decide
  have hlen : (pad 2 s).toList.length = (pad 2 k).toList.length := by
    rw [pad_length (w := 2) (by decide) (by omega), pad_length (w := 2) (by decide) (by omega)]
  rw [List.cons_lt_cons_iff, append_lt_append hlen,
    pad_lt_pad (w := 2) (by decide) (by omega) (by omega), pad_inj]
  simp only [hcolon, false_or, true_and]

theorem whole_toList (s : ℕ) (z : Zone) : (Seconds.whole s).text.toList ++ z.text.toList =
    ':' :: ((pad 2 s).toList ++ z.text.toList) := by
  unfold Seconds.text
  simp [String.toList_append]

theorem split_toList (s : ℕ) (digits : List Char) (z : Zone) :
    (Seconds.split s digits).text.toList ++ z.text.toList =
      ':' :: ((pad 2 s).toList ++ ('.' :: (digits ++ z.text.toList))) := by
  unfold Seconds.text
  simp [String.toList_append]

/-- The seconds and the zone before those of a bound at `k` seconds. -/
theorem tail_lt_iff {k : ℕ} (hk : k < 60) (t : Stamp) :
    t.seconds.text.toList ++ t.zone.text.toList < ':' :: ((pad 2 k).toList ++ "+00:00".toList) ↔
      (t.seconds = .omitted ∧ t.zone ≠ .utc) ∨
        (∃ s, t.seconds = .whole s ∧ (s < k ∨ (s = k ∧ t.zone.text < "+00:00"))) ∨
        ∃ s digits, t.seconds = .split s digits ∧ s < k := by
  have hwf := t.seconds_wf
  cases hs : t.seconds with
  | omitted =>
    have htext : Seconds.omitted.text.toList ++ t.zone.text.toList = t.zone.text.toList := rfl
    rw [htext, zone_lt_colon]
    simp
  | whole s =>
    rw [hs] at hwf
    rw [whole_toList, colon_pad_lt hwf hk, String.lt_iff]
    simp
  | split s digits =>
    rw [hs] at hwf
    -- a point stands after a plus sign
    have hpoint : ¬('.' :: (digits ++ t.zone.text.toList) < "+00:00".toList) := by
      intro h
      rcases List.cons_lt_cons_iff.1 h with h | ⟨h, -⟩
      · exact absurd h (by decide)
      · exact absurd h (by decide)
    rw [split_toList, colon_pad_lt hwf.1 hk, or_iff_left fun h => hpoint h.2]
    simp

/-- The seconds and the zone after those of a bound at `k` seconds. -/
theorem lt_tail_iff {k : ℕ} (hk : k < 60) (t : Stamp) :
    ':' :: ((pad 2 k).toList ++ "+00:00".toList) < t.seconds.text.toList ++ t.zone.text.toList ↔
      (t.seconds = .omitted ∧ t.zone = .utc) ∨
        (∃ s, t.seconds = .whole s ∧ (k < s ∨ (k = s ∧ "+00:00" < t.zone.text))) ∨
        ∃ s digits, t.seconds = .split s digits ∧ k ≤ s := by
  have hwf := t.seconds_wf
  cases hs : t.seconds with
  | omitted =>
    have htext : Seconds.omitted.text.toList ++ t.zone.text.toList = t.zone.text.toList := rfl
    rw [htext, colon_lt_zone]
    simp
  | whole s =>
    rw [hs] at hwf
    rw [whole_toList, colon_pad_lt hk hwf, String.lt_iff]
    simp
  | split s digits =>
    rw [hs] at hwf
    have hpoint : "+00:00".toList < '.' :: (digits ++ t.zone.text.toList) :=
      List.cons_lt_cons_iff.2 (Or.inl (by decide))
    rw [split_toList, colon_pad_lt hk hwf.1, and_iff_left hpoint, ← le_iff_lt_or_eq]
    simp

/-- **The text before a day.** -/
theorem text_lt_dayStart (hd : d.Fits) : t.text < d.dayStart ↔
    t.date < d ∨ (t.date = d ∧ t.ReadsEarly) := by
  rw [String.lt_iff, text_toList, CivilDate.dayStart_toList,
    clockText_lt t.date_valid.fits hd t.hour_lt (by decide) t.minute_lt (by decide),
    tail_lt_iff (by decide)]
  unfold ReadsEarly
  simp

/-- In the last minute the seconds and the zone stand after the bound if the clock is past it, or if
they are spelled so. -/
theorem last_tail_iff (t : Stamp) :
    ':' :: ((pad 2 59).toList ++ "+00:00".toList) < t.seconds.text.toList ++ t.zone.text.toList ↔
      59 < t.seconds.value ∨ (t.seconds = .omitted ∧ t.zone = .utc) ∨
        (t.seconds = .whole 59 ∧ "+00:00" < t.zone.text) ∨
        ∃ digits, t.seconds = .split 59 digits ∧ Seconds.fraction digits = 0 := by
  have hwf := t.seconds_wf
  rw [lt_tail_iff (by decide)]
  cases hs : t.seconds with
  | omitted =>
    have hvalue : ¬(59 : ℚ) < Seconds.omitted.value := by norm_num [Seconds.value]
    simp [hvalue]
  | whole s =>
    rw [hs] at hwf
    have hle : s ≤ 59 := Nat.le_of_lt_succ hwf
    have hvalue : ¬(59 : ℚ) < (Seconds.whole s).value := by
      refine not_lt.2 ?_
      change (s : ℚ) ≤ 59
      exact_mod_cast hle
    constructor
    · rintro (⟨h, -⟩ | ⟨s', h, hlt | ⟨rfl, hzone⟩⟩ | ⟨s', digits, h, -⟩)
      · cases h
      · cases h
        omega
      · exact Or.inr (Or.inr (Or.inl ⟨h, hzone⟩))
      · cases h
    · rintro (h | ⟨h, -⟩ | ⟨h, hzone⟩ | ⟨digits, h, -⟩)
      · exact absurd h hvalue
      · cases h
      · exact Or.inr (Or.inl ⟨59, h, Or.inr ⟨rfl, hzone⟩⟩)
      · cases h
  | split s digits =>
    rw [hs] at hwf
    obtain ⟨hlt, hdigits⟩ := hwf
    have hpos := Seconds.fraction_nonneg digits
    have hone := Seconds.fraction_lt_one hdigits
    have hvalue : (Seconds.split s digits).value = s + Seconds.fraction digits := rfl
    rw [hvalue]
    constructor
    · rintro (⟨h, -⟩ | ⟨s', h, -⟩ | ⟨s', digits', h, hle⟩)
      · cases h
      · cases h
      · cases h
        obtain rfl : s = 59 := by omega
        rcases hpos.eq_or_lt with hzero | hsome
        · exact Or.inr (Or.inr (Or.inr ⟨digits, rfl, hzero.symm⟩))
        · refine Or.inl ?_
          push_cast
          linarith
    · rintro (h | ⟨h, -⟩ | ⟨h, -⟩ | ⟨digits', h, -⟩)
      · refine Or.inr (Or.inr ⟨s, digits, rfl, ?_⟩)
        by_contra hnot
        have hcast : (s : ℚ) ≤ 58 := by exact_mod_cast (show s ≤ 58 by omega)
        linarith
      · cases h
      · cases h
      · cases h
        exact Or.inr (Or.inr ⟨59, digits, rfl, le_rfl⟩)

/-- **The text after a day.** -/
theorem dayEnd_lt_text (hd : d.Fits) : d.dayEnd < t.text ↔
    d < t.date ∨ (t.date = d ∧ (t.PastLast ∨ t.ReadsLate)) := by
  have hhour := t.hour_lt
  have hminute := t.minute_lt
  have hhour' : ¬23 < t.hour := by omega
  have hminute' : ¬59 < t.minute := by omega
  rw [String.lt_iff, text_toList, CivilDate.dayEnd_toList,
    clockText_lt hd t.date_valid.fits (by decide) t.hour_lt (by decide) t.minute_lt, last_tail_iff]
  unfold PastLast ReadsLate
  simp only [hhour', hminute', false_or, eq_comm (a := d), eq_comm (a := 23), eq_comm (a := 59)]
  tauto

theorem text_ne_empty (t : Stamp) : t.text ≠ "" := by
  intro h
  have hlist := congrArg String.toList h
  rw [text_toList] at hlist
  have hlen := CivilDate.iso_length t.date_valid.fits
  rw [(List.append_eq_nil_iff.1 hlist).1] at hlen
  cases hlen

/-- A timestamp that is only spelled late is not past the last second. -/
theorem not_pastLast_of_readsLate (t : Stamp) (h : t.ReadsLate) : ¬t.PastLast := by
  rintro ⟨-, -, hvalue⟩
  obtain ⟨-, -, ⟨hs, -⟩ | ⟨hs, -⟩ | ⟨digits, hs, hzero⟩⟩ := h
  · rw [hs] at hvalue
    norm_num [Seconds.value] at hvalue
  · rw [hs] at hvalue
    norm_num [Seconds.value] at hvalue
  · have hval : (Seconds.split 59 digits).value = (59 : ℕ) + Seconds.fraction digits := rfl
    rw [hs, hval, hzero] at hvalue
    norm_num at hvalue

end Stamp

end CivicProof
