import CivicProof.Calendar.IsoText
import CivicProof.Spec.Rules

/-!
# Temporal normalization

`normalizeTimeScope`: a time phrase to a `TimeScope`, relative to a reference date, with
the table of Knesset terms (`KNESSET_TERMS`).

* `normalizeTimeScope_bounds`: what scopes look like: unknown with neither bound, bounded
  on both sides, or the open-ended current term.
-/

namespace CivicProof

open Regex Re

/-- The functions of the Unicode database the program calls. -/
structure Unicode where
  /-- `unicodedata.normalize("NFC", ·)`. -/
  nfc : String → String
  /-- `str.lower()` on arbitrary text. -/
  lower : String → String
  /-- The class `\w`. -/
  isWord : Char → Bool

/-! ## Knesset terms -/

/-- `KnessetTerm`. -/
structure KnessetTerm where
  number : ℕ
  start : CivilDate
  stop : Option CivilDate
  deriving DecidableEq, Repr

/-- `KNESSET_TERMS`. -/
def knessetTerms : List KnessetTerm :=
  [⟨1, ⟨1949, 2, 14⟩, some ⟨1951, 8, 20⟩⟩, ⟨2, ⟨1951, 8, 20⟩, some ⟨1955, 8, 15⟩⟩,
    ⟨3, ⟨1955, 8, 15⟩, some ⟨1959, 12, 4⟩⟩, ⟨4, ⟨1959, 12, 4⟩, some ⟨1961, 9, 4⟩⟩,
    ⟨5, ⟨1961, 9, 4⟩, some ⟨1965, 11, 22⟩⟩, ⟨6, ⟨1965, 11, 22⟩, some ⟨1969, 11, 17⟩⟩,
    ⟨7, ⟨1969, 11, 17⟩, some ⟨1974, 1, 21⟩⟩, ⟨8, ⟨1974, 1, 21⟩, some ⟨1977, 6, 13⟩⟩,
    ⟨9, ⟨1977, 6, 13⟩, some ⟨1981, 7, 20⟩⟩, ⟨10, ⟨1981, 7, 20⟩, some ⟨1984, 8, 13⟩⟩,
    ⟨11, ⟨1984, 8, 13⟩, some ⟨1988, 11, 21⟩⟩, ⟨12, ⟨1988, 11, 21⟩, some ⟨1992, 7, 13⟩⟩,
    ⟨13, ⟨1992, 7, 13⟩, some ⟨1996, 6, 17⟩⟩, ⟨14, ⟨1996, 6, 17⟩, some ⟨1999, 6, 7⟩⟩,
    ⟨15, ⟨1999, 6, 7⟩, some ⟨2003, 2, 17⟩⟩, ⟨16, ⟨2003, 2, 17⟩, some ⟨2006, 4, 17⟩⟩,
    ⟨17, ⟨2006, 4, 17⟩, some ⟨2009, 2, 24⟩⟩, ⟨18, ⟨2009, 2, 24⟩, some ⟨2013, 2, 5⟩⟩,
    ⟨19, ⟨2013, 2, 5⟩, some ⟨2015, 3, 31⟩⟩, ⟨20, ⟨2015, 3, 31⟩, some ⟨2019, 4, 30⟩⟩,
    ⟨21, ⟨2019, 4, 30⟩, some ⟨2019, 10, 3⟩⟩, ⟨22, ⟨2019, 10, 3⟩, some ⟨2020, 3, 16⟩⟩,
    ⟨23, ⟨2020, 3, 16⟩, some ⟨2020, 12, 22⟩⟩, ⟨24, ⟨2020, 12, 22⟩, some ⟨2022, 11, 15⟩⟩,
    ⟨25, ⟨2022, 11, 15⟩, none⟩]

/-- `term_by_number`. -/
def termByNumber (n : ℕ) : Option KnessetTerm := knessetTerms.find? (·.number = n)

/-! ## Scope constructors -/

/-- `_unknown`. -/
def unknownScope : TimeScope := ⟨none, none, .unknown⟩

/-- `_year_bounds`. -/
def yearBounds (year : ℕ) : TimeScope :=
  ⟨some (CivilDate.dayStart ⟨year, 1, 1⟩), some (CivilDate.dayEnd ⟨year, 12, 31⟩), .year⟩

/-- `_month_bounds`. -/
def monthBounds (year month : ℕ) : TimeScope :=
  let nextStart : CivilDate := if month = 12 then ⟨year + 1, 1, 1⟩ else ⟨year, month + 1, 1⟩
  ⟨some (CivilDate.dayStart ⟨year, month, 1⟩), some nextStart.prevDay.dayEnd, .month⟩

/-- `_day`. -/
def dayScope (year month day : ℕ) : TimeScope :=
  ⟨some (CivilDate.dayStart ⟨year, month, day⟩), some (CivilDate.dayEnd ⟨year, month, day⟩), .day⟩

/-- `_term_scope`. -/
def termScope (n : ℕ) : Option TimeScope :=
  (termByNumber n).map fun term => ⟨some term.start.dayStart, term.stop.map CivilDate.dayEnd, .term⟩

/-! ## The patterns -/

/-- The groups of the normalizer's patterns. -/
inductive TimeGroup where
  | y
  | m
  | d
  | n
  deriving DecidableEq, Repr

/-- `$`: the end of the text, or before a final newline. -/
def dollar : Re TimeGroup := .assert fun _ post => post == [] || post == ['\n']

/-- `\s+`. -/
def ws : Re TimeGroup := .rep isSpace 1 none true

/-- `\d{n}`. -/
def digits (n : ℕ) : Re TimeGroup := .rep isDigit n (some n) true

/-- A case-sensitive literal. -/
def word (s : String) : Re TimeGroup := lit (charEq false) s

/-- `_ISO_DATE`. -/
def isoDate : Re TimeGroup :=
  cat [.group .y (digits 4), word "-", .group .m (digits 2), word "-", .group .d (digits 2), dollar]

/-- `(?:19|20)\d{2}`. -/
def yearDigits : Re TimeGroup := cat [any [word "19", word "20"], digits 2]

/-- `_YEAR`. -/
def yearPattern : Re TimeGroup :=
  cat [.assert fun pre _ => !(pre.head?.any isDigit), .group .y yearDigits,
    .assert fun _ post => !(post.head?.any isDigit)]

/-- `_HE_TERM`. -/
def heTerm : Re TimeGroup :=
  cat [word "כנסת", opt (cat [ws, word "ה", opt (word "-")]), .rep isSpace 0 none true,
    .group .n (.rep isDigit 1 (some 2) true)]

/-- `_EN_TERM`. -/
def enTerm : Re TimeGroup :=
  cat [.group .n (.rep isDigit 1 (some 2) true),
    opt (any [word "st", word "nd", word "rd", word "th"]), ws,
    .set fun c => c == 'K' || c == 'k', word "nesset"]

/-- `_HE_MONTHS`, in order. -/
def heMonths : List String :=
  ["ינואר", "פברואר", "מרץ", "אפריל", "מאי", "יוני", "יולי", "אוגוסט", "ספטמבר", "אוקטובר",
    "נובמבר", "דצמבר"]

/-- `_HE_MONTH`. -/
def heMonth : Re TimeGroup := cat [.group .m (any (heMonths.map word)), ws, .group .y yearDigits]

/-- `_HE_LAST_YEAR`. -/
def heLastYear : Re TimeGroup := cat [word "בשנה", ws, word "שעברה"]

/-- `_HE_LAST_TERM`. -/
def heLastTerm : Re TimeGroup := cat [opt (word "ה"), word "קדנציה", ws, word "הקודמת"]

/-- `\b`: exactly one side is a word character. -/
def wordBoundary (U : Unicode) : Re TimeGroup :=
  .assert fun pre post => pre.head?.any U.isWord != post.head?.any U.isWord

/-- `\blast\s+<w>\b`, ignoring case. -/
def enLast (U : Unicode) (w : String) : Re TimeGroup :=
  cat [wordBoundary U, lit (charEq true) "last", ws, lit (charEq true) w, wordBoundary U]

/-- `_EN_LAST_YEAR`. -/
def enLastYear (U : Unicode) : Re TimeGroup := enLast U "year"

/-- `_EN_LAST_TERM`. -/
def enLastTerm (U : Unicode) : Re TimeGroup := enLast U "term"

/-! ## The normalizer -/

/-- `int(m[g])`. -/
def groupNat (m : Match TimeGroup) (g : TimeGroup) : ℕ :=
  ((m.groups g).bind (digitsToNat 0 false)).getD 0

/-- The number of the Hebrew month a match names (`_HE_MONTHS[m["m"]]`). -/
def monthNumber (m : Match TimeGroup) : ℕ :=
  heMonths.idxOf (String.ofList ((m.groups .m).getD [])) + 1

/-- The scope of the term before the one in force at `ref`, the first table entry that
contains it. -/
def lastTermScope (ref : CivilDate) : Option TimeScope :=
  match knessetTerms.find? fun t => t.start.le ref && ref.le (t.stop.getD ref) with
  | some t => if 1 < t.number then termScope (t.number - 1) else none
  | none => none

/-- The patterns of `normalize_time_scope`, tried in order on a stripped phrase. -/
def scopeOfText (U : Unicode) (ref : CivilDate) (text : List Char) : TimeScope :=
  match isoDate.matchAt [] text with
  | some m => dayScope (groupNat m .y) (groupNat m .m) (groupNat m .d)
  | none =>
  match heMonth.search text with
  | some m => monthBounds (groupNat m .y) (monthNumber m)
  | none =>
  -- a number that is no term of the table falls through to the next pattern
  match (heTerm.search text).bind fun m => termScope (groupNat m .n) with
  | some scope => scope
  | none =>
  match (enTerm.search text).bind fun m => termScope (groupNat m .n) with
  | some scope => scope
  | none =>
  if (heLastYear.search text).isSome || ((enLastYear U).search text).isSome then
    yearBounds (ref.year - 1)
  else
  match (if (heLastTerm.search text).isSome || ((enLastTerm U).search text).isSome then
      lastTermScope ref else none) with
  | some scope => scope
  | none =>
  match yearPattern.search text with
  | some m => yearBounds (groupNat m .y)
  | none => unknownScope

/-- `normalize_time_scope`. The reference date is explicit (the source defaults it to
today); its `language` argument is never read. -/
def normalizeTimeScope (U : Unicode) (ref : CivilDate) (phrase : Option String) : TimeScope :=
  match orNone phrase with
  | none => unknownScope
  | some p =>
    let text := (strip p).toList
    if text = [] then unknownScope else scopeOfText U ref text

/-- The scope of the current term, open-ended. -/
def currentTermScope : TimeScope := ⟨some (CivilDate.dayStart ⟨2022, 11, 15⟩), none, .term⟩

/-- A scope is unknown without bounds, runs from the first second of a day to the last second
of a day, or is the open current term. -/
def BoundsOK (s : TimeScope) : Prop :=
  s = unknownScope ∨
    (∃ a b : CivilDate, s.start = some a.dayStart ∧ s.stop = some b.dayEnd ∧
      s.granularity ≠ .unknown) ∨
    s = currentTermScope

theorem termScope_bounds {n : ℕ} {s : TimeScope} (h : termScope n = some s) : BoundsOK s := by
  unfold termScope at h
  rw [Option.map_eq_some_iff] at h
  obtain ⟨t, ht, rfl⟩ := h
  have hopen : ∀ t ∈ knessetTerms, t.stop = none → t.start = ⟨2022, 11, 15⟩ := by decide
  have hmem := List.mem_of_find?_eq_some ht
  cases hs : t.stop with
  | none => exact Or.inr (Or.inr (by rw [hopen t hmem hs]; rfl))
  | some d => exact Or.inr (Or.inl ⟨t.start, d, rfl, rfl, by simp⟩)

theorem lastTermScope_bounds {ref : CivilDate} {s : TimeScope} (h : lastTermScope ref = some s) :
    BoundsOK s := by
  unfold lastTermScope at h
  split at h
  · split at h
    · exact termScope_bounds h
    · cases h
  · cases h

/-- **What the normalizer returns**, for every phrase and reference date. -/
theorem normalizeTimeScope_bounds (U : Unicode) (ref : CivilDate) (phrase : Option String) :
    BoundsOK (normalizeTimeScope U ref phrase) := by
  -- year, month and day scopes are closed; term scopes come from the table
  have closed : ∀ (a b : CivilDate) (g : Granularity), g ≠ .unknown →
      BoundsOK ⟨some a.dayStart, some b.dayEnd, g⟩ :=
    fun a b _ hg => Or.inr (Or.inl ⟨a, b, rfl, rfl, hg⟩)
  have hterm : ∀ (o : Option (Match TimeGroup)) (s : TimeScope),
      (o.bind fun m => termScope (groupNat m .n)) = some s → BoundsOK s := by
    intro o s h
    obtain ⟨m, -, h⟩ := Option.bind_eq_some_iff.1 h
    exact termScope_bounds h
  unfold normalizeTimeScope
  split
  · exact Or.inl rfl
  dsimp only
  split
  · exact Or.inl rfl
  unfold scopeOfText
  split
  · exact closed _ _ _ (by decide)
  split
  · exact closed _ _ _ (by decide)
  split
  · rename_i h
    exact hterm _ _ h
  split
  · rename_i h
    exact hterm _ _ h
  split
  · exact closed _ _ _ (by decide)
  split
  · rename_i h
    split at h
    · exact lastTermScope_bounds h
    · cases h
  split
  · exact closed _ _ _ (by decide)
  · exact Or.inl rfl

end CivicProof
