import CivicProof.Spec.ArchiveUri

/-!
# The archive URI codec

* `UriText.parse_ok_iff`: which texts `parse_archive_uri` accepts, part by part.
* `chars_inj`: a text has one reading.
* `archiveUri_codec`: what is built is read back; what was read is written back exactly if its
  text is canonical (ASCII, and no newline at its end).
-/

namespace CivicProof

open Regex Re

/-! ## Decimal digits -/

theorem strip_of_all {cs : List Char} (h : ∀ c ∈ cs, isSpace c = false) :
    strip (String.ofList cs) = String.ofList cs := by
  have hdrop : ∀ l : List Char, (∀ c ∈ l, isSpace c = false) → l.dropWhile isSpace = l := by
    intro l hl
    cases l with
    | nil => rfl
    | cons c l => rw [List.dropWhile_cons, hl c List.mem_cons_self]; rfl
  unfold strip
  rw [String.toList_ofList, hdrop cs h, hdrop _ fun c hc => h c (List.mem_reverse.1 hc),
    List.reverse_reverse]

/-- `int` of digits is the number they stand for. -/
theorem parseInt_digits {ds : List Char} (hne : ds ≠ []) (h : ∀ c ∈ ds, isDigit c = true) :
    parseInt (String.ofList ds) = some (decimalValue ds : ℤ) := by
  obtain ⟨c, cs, rfl⟩ := List.exists_cons_of_ne_nil hne
  have hplain := isDigit_plain (h c List.mem_cons_self)
  obtain ⟨i, hi⟩ := Option.isSome_iff_exists.1 (h c List.mem_cons_self)
  have hval : digitsToNat 0 false (c :: cs) = some (decimalValue (c :: cs)) := by
    rw [digitsToNat, if_neg hplain.2.1]
    simp only [hi, digitsToNat_digits fun x hx => h x (List.mem_cons_of_mem _ hx), decimalValue,
      List.foldl_cons, Option.getD_some]
  unfold parseInt
  rw [strip_of_all fun x hx => (isDigit_plain (h x hx)).1, String.toList_ofList]
  split
  · exact absurd (List.cons.inj ‹_›).1 hplain.2.2.1
  · exact absurd (List.cons.inj ‹_›).1 hplain.2.2.2
  · rw [hval]
    rfl

/-! ## ASCII digits -/

theorem digitValue_ascii {c : Char} (h : c.isDigit = true) :
    digitValue c = some (c.toNat - 48) := by
  have hc := ascii_range h
  have hz : (0x30 ≤ c.toNat && c.toNat < 0x30 + 10) = true := by
    rw [Bool.and_eq_true, decide_eq_true_iff, decide_eq_true_iff]
    omega
  rw [digitValue, decimalZeros, List.find?_cons, hz]
  rfl

theorem isDigit_of_ascii {c : Char} (h : c.isDigit = true) : isDigit c = true := by
  rw [isDigit, digitValue_ascii h]
  rfl

theorem decimalValue_ascii {ds : List Char} (h : ∀ c ∈ ds, c.isDigit = true) :
    decimalValue ds = Nat.ofDigitChars 10 ds 0 := by
  rw [Nat.ofDigitChars_eq_foldl, decimalValue]
  refine List.foldl_ext _ _ 0 fun n c hc => ?_
  rw [digitValue_ascii (h c hc), Nat.mul_comm]
  rfl

/-! ## Zero padding -/

/-- Padding to its width gives a run of digits back exactly if they are ASCII. -/
theorem pad_eq_iff {ds : List Char} {w : ℕ} (hw : 0 < w) (hds : Run isDigit w (some w) ds) :
    (pad w (decimalValue ds)).toList = ds ↔ ∀ c ∈ ds, c.isDigit = true := by
  constructor
  · exact fun h => h ▸ pad_ascii
  · intro h
    have hlen : ds.length = w := Nat.le_antisymm (hds.2.2 w rfl) hds.2.1
    have hlt := ofDigitChars_lt h 0
    rw [hlen, Nat.one_mul, ← decimalValue_ascii h] at hlt
    refine (ofDigitChars_inj ?_ pad_ascii h (a := 0) (b := 0) ?_).2
    · rw [pad_length hw hlt, hlen]
    · rw [pad_value, decimalValue_ascii h]

/-! ## The grammar -/

/-- The parts of a URI, as they stand in the text. -/
structure UriText where
  bucket : List Char
  sourceFamily : List Char
  year : List Char
  month : List Char
  day : List Char
  sha256 : List Char
  extension : List Char

/-- `[a-z0-9][a-z0-9.\-]{1,62}`, the rule for buckets. -/
def BucketName (w : List Char) : Prop :=
  ∃ c u, w = c :: u ∧ isLowerAlnum c = true ∧ Run isBucketChar 1 (some 62) u

/-- Each part is of its class and its length. -/
structure UriText.OK (p : UriText) : Prop where
  bucket : BucketName p.bucket
  sourceFamily : Run isFamilyChar 1 none p.sourceFamily
  year : Run isDigit 4 (some 4) p.year
  month : Run isDigit 2 (some 2) p.month
  day : Run isDigit 2 (some 2) p.day
  sha256 : Run isLowerHex 64 (some 64) p.sha256
  extension : Run isLowerAlnum 1 none p.extension

/-- The text of a URI, up to its end. -/
def UriText.chars (p : UriText) : List Char :=
  "s3://".toList ++ (p.bucket ++ ("/".toList ++ (p.sourceFamily ++ ("/".toList ++ (p.year ++
    ("/".toList ++ (p.month ++ ("/".toList ++ (p.day ++ ("/".toList ++ (p.sha256 ++
      (".".toList ++ p.extension))))))))))))

/-- The part that a group captures. -/
def UriText.part (p : UriText) : UriGroup → List Char
  | .bucket => p.bucket
  | .sourceFamily => p.sourceFamily
  | .year => p.year
  | .month => p.month
  | .day => p.day
  | .sha256 => p.sha256
  | .extension => p.extension

/-- **What the pattern matches**: the text of well-formed parts, up to the end or a last
newline. -/
theorem matches_uri {w post : List Char} {g : Caps UriGroup} :
    uriPattern.Matches (fun _ => none) [] w post g ↔ ∃ p : UriText, p.OK ∧ w = p.chars ∧
      g = (fun n => some (p.part n)) ∧ atEnd post = true := by
  have lit : ∀ s, (uriLit s).Plain (· = s.toList) := Plain_lit charEq_iff
  have run : ∀ {p : Char → Bool} {lo : ℕ} {hi : Option ℕ},
      (.rep p lo hi true : Re UriGroup).Plain (Run p lo hi) := Plain_rep
  have bucket : bucketPattern.Plain BucketName := Plain_set_rep
  have caps : ∀ p : UriText, Function.update (Function.update (Function.update (Function.update
      (Function.update (Function.update (Function.update (fun _ => none) UriGroup.bucket
        (some p.bucket)) .sourceFamily (some p.sourceFamily)) .year (some p.year)) .month
          (some p.month)) .day (some p.day)) .sha256 (some p.sha256)) .extension
            (some p.extension) = fun n => some (p.part n) :=
    fun p => funext fun n => by cases n <;> rfl
  constructor
  · intro h
    obtain ⟨_, _, rfl, rfl, h⟩ := (lit _).cat_iff.1 h
    obtain ⟨b, _, rfl, hb, h⟩ := bucket.group_iff.1 h
    obtain ⟨_, _, rfl, rfl, h⟩ := (lit _).cat_iff.1 h
    obtain ⟨f, _, rfl, hf, h⟩ := run.group_iff.1 h
    obtain ⟨_, _, rfl, rfl, h⟩ := (lit _).cat_iff.1 h
    obtain ⟨y, _, rfl, hy, h⟩ := run.group_iff.1 h
    obtain ⟨_, _, rfl, rfl, h⟩ := (lit _).cat_iff.1 h
    obtain ⟨m, _, rfl, hm, h⟩ := run.group_iff.1 h
    obtain ⟨_, _, rfl, rfl, h⟩ := (lit _).cat_iff.1 h
    obtain ⟨d, _, rfl, hd, h⟩ := run.group_iff.1 h
    obtain ⟨_, _, rfl, rfl, h⟩ := (lit _).cat_iff.1 h
    obtain ⟨s, _, rfl, hs, h⟩ := run.group_iff.1 h
    obtain ⟨_, _, rfl, rfl, h⟩ := (lit _).cat_iff.1 h
    obtain ⟨e, _, rfl, he, hend, rfl, rfl⟩ := run.group_iff.1 h
    refine ⟨⟨b, f, y, m, d, s, e⟩, ⟨hb, hf, hy, hm, hd, hs, he⟩, ?_, caps ⟨b, f, y, m, d, s, e⟩, hend⟩
    rw [List.append_nil]
    rfl
  · rintro ⟨p, hp, rfl, rfl, hend⟩
    rw [← caps p]
    refine (lit _).cat_iff.2 ⟨_, _, rfl, rfl, ?_⟩
    refine bucket.group_iff.2 ⟨_, _, rfl, hp.bucket, ?_⟩
    refine (lit _).cat_iff.2 ⟨_, _, rfl, rfl, ?_⟩
    refine run.group_iff.2 ⟨_, _, rfl, hp.sourceFamily, ?_⟩
    refine (lit _).cat_iff.2 ⟨_, _, rfl, rfl, ?_⟩
    refine run.group_iff.2 ⟨_, _, rfl, hp.year, ?_⟩
    refine (lit _).cat_iff.2 ⟨_, _, rfl, rfl, ?_⟩
    refine run.group_iff.2 ⟨_, _, rfl, hp.month, ?_⟩
    refine (lit _).cat_iff.2 ⟨_, _, rfl, rfl, ?_⟩
    refine run.group_iff.2 ⟨_, _, rfl, hp.day, ?_⟩
    refine (lit _).cat_iff.2 ⟨_, _, rfl, rfl, ?_⟩
    refine run.group_iff.2 ⟨_, _, rfl, hp.sha256, ?_⟩
    refine (lit _).cat_iff.2 ⟨_, _, rfl, rfl, ?_⟩
    refine run.group_iff.2 ⟨_, _, (List.append_nil _).symm, hp.extension, ?_⟩
    exact ⟨hend, rfl, rfl⟩

/-! ## One reading of each text -/

theorem BucketName.notMem {w : List Char} (h : BucketName w) {x : Char}
    (hx : isBucketChar x = false) : x ∉ w := by
  obtain ⟨c, u, rfl, hc, hu⟩ := h
  rw [List.mem_cons, not_or]
  refine ⟨?_, hu.notMem hx⟩
  rintro rfl
  simp [isBucketChar, hc] at hx

/-- Two texts that are cut at a separator, which neither first part has, are cut alike. -/
theorem sep_inj {x : Char} {s : String} (hs : s.toList = [x]) {u v u' v' : List Char}
    (hu : x ∉ u) (hu' : x ∉ u') (h : u ++ (s.toList ++ v) = u' ++ (s.toList ++ v')) :
    u = u' ∧ v = v' := by
  rw [hs, List.singleton_append, List.singleton_append] at h
  induction u generalizing u' with
  | nil =>
    cases u' with
    | nil => exact ⟨rfl, (List.cons.inj h).2⟩
    | cons c u' => exact absurd ((List.cons.inj h).1 ▸ List.mem_cons_self) hu'
  | cons c u ih =>
    cases u' with
    | nil => exact absurd ((List.cons.inj h).1 ▸ List.mem_cons_self) hu
    | cons c' u' =>
      obtain ⟨rfl, htail⟩ := List.cons.inj h
      rw [List.mem_cons, not_or] at hu hu'
      obtain ⟨rfl, rfl⟩ := ih hu.2 hu'.2 htail
      exact ⟨rfl, rfl⟩

theorem end_inj {u u' e e' : List Char} (hu : '\n' ∉ u) (hu' : '\n' ∉ u') (he : atEnd e = true)
    (he' : atEnd e' = true) (h : u ++ e = u' ++ e') : u = u' ∧ e = e' := by
  have cases : ∀ e : List Char, atEnd e = true → e = [] ∨ e = ['\n'] := fun e he => by
    simpa [atEnd] using he
  rcases cases e he with rfl | rfl <;> rcases cases e' he' with rfl | rfl
  · exact ⟨by simpa using h, rfl⟩
  · rw [List.append_nil] at h
    exact absurd (h ▸ List.mem_append_right _ (List.mem_singleton_self _)) hu
  · rw [List.append_nil] at h
    exact absurd (h ▸ List.mem_append_right _ (List.mem_singleton_self _)) hu'
  · exact ⟨List.append_cancel_right h, rfl⟩

/-- **A text has one reading**: its parts, and whether a newline ends it. -/
theorem chars_inj {p q : UriText} (hp : p.OK) (hq : q.OK) {e f : List Char}
    (he : atEnd e = true) (hf : atEnd f = true) (h : p.chars ++ e = q.chars ++ f) :
    p = q ∧ e = f := by
  simp only [UriText.chars, List.append_assoc] at h
  have h := List.append_cancel_left h
  obtain ⟨hbucket, h⟩ := sep_inj rfl (hp.bucket.notMem rfl) (hq.bucket.notMem rfl) h
  obtain ⟨hfamily, h⟩ := sep_inj rfl (hp.sourceFamily.notMem rfl) (hq.sourceFamily.notMem rfl) h
  have slash : isDigit '/' = false := by decide
  obtain ⟨hyear, h⟩ := sep_inj rfl (hp.year.notMem slash) (hq.year.notMem slash) h
  obtain ⟨hmonth, h⟩ := sep_inj rfl (hp.month.notMem slash) (hq.month.notMem slash) h
  obtain ⟨hday, h⟩ := sep_inj rfl (hp.day.notMem slash) (hq.day.notMem slash) h
  obtain ⟨hsha, h⟩ := sep_inj rfl (hp.sha256.notMem rfl) (hq.sha256.notMem rfl) h
  obtain ⟨hext, hend⟩ := end_inj (hp.extension.notMem rfl) (hq.extension.notMem rfl) he hf h
  cases p
  cases q
  simp_all

/-! ## The parser -/

namespace UriText

variable {p : UriText} {e : List Char}

/-- The date of a URI. -/
def date (p : UriText) : CivilDate := ⟨decimalValue p.year, decimalValue p.month, decimalValue p.day⟩

/-- The coordinates of a URI. -/
def coord (p : UriText) : ArchiveCoord :=
  ⟨String.ofList p.bucket, String.ofList p.sourceFamily, p.date, String.ofList p.sha256,
    String.ofList p.extension⟩

/-- The checks that follow the match. -/
def Checked (p : UriText) : Prop := String.ofList p.sourceFamily ∈ sourceFamilies ∧ p.date.Valid

theorem uriNat_part {m : Match UriGroup} {g : UriGroup} {n : ℕ} (hn : 0 < n)
    (hm : m.groups = fun g => some (p.part g)) (hrun : Run isDigit n (some n) (p.part g)) :
    uriNat m g = .ok (decimalValue (p.part g)) := by
  have hne : p.part g ≠ [] := fun h => by
    have := hrun.2.1
    rw [h, List.length_nil] at this
    omega
  unfold uriNat uriGroup
  rw [hm, Option.getD_some, parseInt_digits hne hrun.1]
  rfl

/-- The parser on the text of well-formed parts. -/
theorem parse_eq (hp : p.OK) (he : atEnd e = true) {u : String} (hu : u.toList = p.chars ++ e)
    {c : ArchiveCoord} : parseArchiveUri u = .ok c ↔ p.Checked ∧ c = p.coord := by
  obtain ⟨m, hm⟩ := Option.isSome_iff_exists.1 (matchAt_complete (matches_uri.2 ⟨p, hp, rfl, rfl, he⟩))
  rw [← hu] at hm
  obtain ⟨w, post, g, huw, hw, hmg⟩ := matchAt_sound hm
  obtain ⟨q, hq, rfl, hg, hpost⟩ := matches_uri.1 hw
  obtain ⟨rfl, rfl⟩ := chars_inj hp hq he hpost (hu.symm.trans huw)
  have hgroups : m.groups = fun n => some (p.part n) := by rw [hmg, ← hg]
  have hgroup : ∀ n, uriGroup m n = String.ofList (p.part n) := fun n => by
    rw [uriGroup, hgroups, Option.getD_some]
  have hyear : uriNat m .year = .ok (decimalValue p.year) :=
    uriNat_part (g := .year) (by decide) hgroups hp.year
  have hmonth : uriNat m .month = .ok (decimalValue p.month) :=
    uriNat_part (g := .month) (by decide) hgroups hp.month
  have hday : uriNat m .day = .ok (decimalValue p.day) :=
    uriNat_part (g := .day) (by decide) hgroups hp.day
  unfold parseArchiveUri
  rw [hm]
  simp only [hgroup, hyear, hmonth, hday]
  change (if String.ofList p.sourceFamily ∉ sourceFamilies then Except.error PyError.valueError
    else if ¬p.date.Valid then Except.error PyError.valueError else Except.ok p.coord) = .ok c ↔ _
  unfold Checked
  by_cases hfamily : String.ofList p.sourceFamily ∈ sourceFamilies
  · by_cases hvalid : p.date.Valid
    · simp [hfamily, hvalid, eq_comm]
    · simp [hfamily, hvalid]
  · simp [hfamily]

/-- **What the parser accepts**: the text of well-formed parts that pass the checks, up to the
end or a last newline. -/
theorem parse_ok_iff {u : String} {c : ArchiveCoord} : parseArchiveUri u = .ok c ↔
    ∃ p : UriText, ∃ e, p.OK ∧ atEnd e = true ∧ u.toList = p.chars ++ e ∧ p.Checked ∧
      c = p.coord := by
  constructor
  · intro h
    obtain ⟨m, hm⟩ : ∃ m, uriPattern.matchAt [] u.toList = some m := by
      unfold parseArchiveUri at h
      split at h
      · cases h
      · exact ⟨_, ‹_›⟩
    obtain ⟨w, post, g, huw, hw, -⟩ := matchAt_sound hm
    obtain ⟨p, hp, rfl, -, hpost⟩ := matches_uri.1 hw
    exact ⟨p, post, hp, hpost, huw, (parse_eq hp hpost huw).1 h⟩
  · rintro ⟨p, e, hp, he, hu, hc⟩
    exact (parse_eq hp he hu).2 hc

end UriText

/-! ## Coordinates that can be written -/

/-- `hexdigest()` of SHA-256: 64 lower-case hexadecimal digits. -/
def HexDigest (s : String) : Prop := Run isLowerHex 64 (some 64) s.toList

namespace ArchiveCoord

/-- The coordinates that a URI can have. -/
structure OK (c : ArchiveCoord) : Prop where
  bucket : BucketName c.bucket.toList
  sourceFamily : c.sourceFamily ∈ sourceFamilies
  day : c.day.Valid
  sha256 : HexDigest c.sha256
  extension : Run isLowerAlnum 1 none c.extension.toList

/-- The parts of the text of a URI. -/
def parts (c : ArchiveCoord) : UriText :=
  ⟨c.bucket.toList, c.sourceFamily.toList, (pad 4 c.day.year).toList, (pad 2 c.day.month).toList,
    (pad 2 c.day.day).toList, c.sha256.toList, c.extension.toList⟩

variable {c : ArchiveCoord}

theorem parts_year (c : ArchiveCoord) : c.parts.year = (pad 4 c.day.year).toList := by rw [parts]

theorem parts_month (c : ArchiveCoord) : c.parts.month = (pad 2 c.day.month).toList := by rw [parts]

theorem parts_day (c : ArchiveCoord) : c.parts.day = (pad 2 c.day.day).toList := by rw [parts]

theorem text_toList (c : ArchiveCoord) : c.text.toList = c.parts.chars := by
  simp only [text, objectName, UriText.chars, parts, String.toList_append, List.append_assoc]

theorem sourceFamily_run {s : String} (h : s ∈ sourceFamilies) : Run isFamilyChar 1 none s.toList := by
  have hall : ∀ s ∈ sourceFamilies, Run isFamilyChar 1 none s.toList := by decide
  exact hall s h

theorem pad_run {w n : ℕ} (hw : 0 < w) (hn : n < 10 ^ w) : Run isDigit w (some w) (pad w n).toList := by
  refine ⟨fun c hc => isDigit_of_ascii (pad_ascii c hc), (pad_length hw hn).ge, fun m hm => ?_⟩
  rw [← Option.some.inj hm]
  exact (pad_length hw hn).le

theorem decimalValue_pad (w n : ℕ) : decimalValue (pad w n).toList = n := by
  rw [decimalValue_ascii pad_ascii, pad_value]

theorem OK.parts (h : c.OK) : c.parts.OK := by
  have hyear : c.day.year < 10 ^ 4 := by
    have := h.day.1.2
    omega
  have hmonth : c.day.month < 10 ^ 2 := by
    have := h.day.2.1.2
    omega
  have hday : c.day.day < 10 ^ 2 := by
    have := h.day.2.2.2
    have := CivilDate.lastDayOfMonth_le c.day.year c.day.month
    omega
  exact
    { bucket := h.bucket
      sourceFamily := sourceFamily_run h.sourceFamily
      year := parts_year c ▸ pad_run (by decide) hyear
      month := parts_month c ▸ pad_run (by decide) hmonth
      day := parts_day c ▸ pad_run (by decide) hday
      sha256 := h.sha256
      extension := h.extension }

theorem parts_date (c : ArchiveCoord) : c.parts.date = c.day := by
  simp only [UriText.date, parts, decimalValue_pad]

theorem parts_coord (c : ArchiveCoord) : c.parts.coord = c := by
  rw [UriText.coord, parts_date]
  simp only [parts, String.ofList_toList]

/-- **What is written is read back**. -/
theorem OK.parse_text (h : c.OK) : parseArchiveUri c.text = .ok c := by
  refine (UriText.parse_eq (e := []) h.parts rfl ?_).2 ⟨⟨?_, ?_⟩, c.parts_coord.symm⟩
  · rw [text_toList, List.append_nil]
  · rw [ArchiveCoord.parts, String.ofList_toList]
    exact h.sourceFamily
  · rw [parts_date]
    exact h.day

end ArchiveCoord

/-! ## Canonical text -/

/-- No character outside ASCII, and no newline at the end. -/
def CanonicalText (u : String) : Prop :=
  (∀ c ∈ u.toList, c.toNat < 128) ∧ u.toList.getLast? ≠ some '\n'

/-- The parsers' digits that are ASCII are the ASCII digits. -/
theorem isDigit_ascii {c : Char} (h : isDigit c = true) (hc : c.toNat < 128) : c.isDigit = true := by
  have hall : ∀ z ∈ decimalZeros, ∀ i < 10, (Char.ofNat (z + i)).toNat < 128 →
      (Char.ofNat (z + i)).isDigit = true := by decide
  obtain ⟨z, hz, i, hi, rfl, -⟩ := digitValue_spec h
  exact hall z hz i hi hc

theorem isLowerAlnum_ascii {c : Char} (h : isLowerAlnum c = true) : c.toNat < 128 := by
  simp only [isLowerAlnum, Bool.or_eq_true, Bool.and_eq_true, decide_eq_true_iff, Char.le_def,
    UInt32.le_iff_toNat_le] at h
  change c.val.toNat < 128
  have hz : 'z'.val.toNat = 122 := rfl
  have h9 : '9'.val.toNat = 57 := rfl
  omega

theorem isFamilyChar_ascii {c : Char} (h : isFamilyChar c = true) : c.toNat < 128 := by
  simp only [isFamilyChar, Bool.or_eq_true, Bool.and_eq_true, decide_eq_true_iff, Char.le_def,
    UInt32.le_iff_toNat_le, beq_iff_eq] at h
  rcases h with h | rfl
  · change c.val.toNat < 128
    have hz : 'z'.val.toNat = 122 := rfl
    omega
  · decide

theorem isLowerHex_ascii {c : Char} (h : isLowerHex c = true) : c.toNat < 128 := by
  simp only [isLowerHex, Bool.or_eq_true, Bool.and_eq_true, decide_eq_true_iff, Char.le_def,
    UInt32.le_iff_toNat_le] at h
  change c.val.toNat < 128
  have hf : 'f'.val.toNat = 102 := rfl
  have h9 : '9'.val.toNat = 57 := rfl
  omega

theorem BucketName.ascii {w : List Char} (h : BucketName w) : ∀ c ∈ w, c.toNat < 128 := by
  obtain ⟨c, u, rfl, hc, hu⟩ := h
  intro x hx
  rcases List.mem_cons.1 hx with rfl | hx
  · exact isLowerAlnum_ascii hc
  · have hx := hu.1 x hx
    simp only [isBucketChar, Bool.or_eq_true, beq_iff_eq] at hx
    rcases hx with (hx | rfl) | rfl
    · exact isLowerAlnum_ascii hx
    · decide
    · decide

namespace UriText

variable {p : UriText} {e : List Char}

/-- The digits of the date are ASCII. -/
def AsciiDate (p : UriText) : Prop :=
  (∀ c ∈ p.year, c.isDigit = true) ∧ (∀ c ∈ p.month, c.isDigit = true) ∧
    ∀ c ∈ p.day, c.isDigit = true

theorem ascii_of_all {w : List Char} (h : (w.all fun c => decide (c.toNat < 128)) = true) :
    ∀ c ∈ w, c.toNat < 128 := fun c hc => of_decide_eq_true (List.all_eq_true.1 h c hc)

theorem chars_ascii_iff (hp : p.OK) : (∀ c ∈ p.chars, c.toNat < 128) ↔ p.AsciiDate := by
  have digits : ∀ {n : ℕ} {w : List Char}, Run isDigit n (some n) w →
      ((∀ c ∈ w, c.toNat < 128) ↔ ∀ c ∈ w, c.isDigit = true) := fun hw =>
    ⟨fun h c hc => isDigit_ascii (hw.1 c hc) (h c hc), fun h c hc => by
      have := ascii_range (h c hc)
      omega⟩
  have hfamily : ∀ c ∈ p.sourceFamily, c.toNat < 128 :=
    fun c hc => isFamilyChar_ascii (hp.sourceFamily.1 c hc)
  have hsha : ∀ c ∈ p.sha256, c.toNat < 128 := fun c hc => isLowerHex_ascii (hp.sha256.1 c hc)
  have hext : ∀ c ∈ p.extension, c.toNat < 128 :=
    fun c hc => isLowerAlnum_ascii (hp.extension.1 c hc)
  have hlit : (∀ c ∈ "s3://".toList, c.toNat < 128) ∧ (∀ c ∈ "/".toList, c.toNat < 128) ∧
      ∀ c ∈ ".".toList, c.toNat < 128 :=
    ⟨ascii_of_all (by decide), ascii_of_all (by decide), ascii_of_all (by decide)⟩
  unfold AsciiDate
  rw [← digits hp.year, ← digits hp.month, ← digits hp.day]
  simp only [chars, List.forall_mem_append]
  constructor
  · rintro ⟨-, -, -, -, -, hyear, -, hmonth, -, hday, -⟩
    exact ⟨hyear, hmonth, hday⟩
  · rintro ⟨hyear, hmonth, hday⟩
    exact ⟨hlit.1, hp.bucket.ascii, hlit.2.1, hfamily, hlit.2.1, hyear, hlit.2.1, hmonth, hlit.2.1,
      hday, hlit.2.1, hsha, hlit.2.2, hext⟩

/-- No newline stands before the end. -/
theorem newline_notMem (hp : p.OK) : '\n' ∉ p.chars := by
  have hdigit : isDigit '\n' = false := by decide
  have hlit : '\n' ∉ "s3://".toList ∧ '\n' ∉ "/".toList ∧ '\n' ∉ ".".toList := by decide
  simp only [chars, List.mem_append, not_or]
  exact ⟨hlit.1, hp.bucket.notMem rfl, hlit.2.1, hp.sourceFamily.notMem rfl, hlit.2.1,
    hp.year.notMem hdigit, hlit.2.1, hp.month.notMem hdigit, hlit.2.1, hp.day.notMem hdigit,
    hlit.2.1, hp.sha256.notMem rfl, hlit.2.2, hp.extension.notMem rfl⟩

theorem canonical_iff (hp : p.OK) (he : atEnd e = true) {u : String}
    (hu : u.toList = p.chars ++ e) : CanonicalText u ↔ p.AsciiDate ∧ e = [] := by
  have hcases : e = [] ∨ e = ['\n'] := by simpa [atEnd] using he
  unfold CanonicalText
  rw [hu, ← chars_ascii_iff hp]
  rcases hcases with rfl | rfl
  · have hlast : p.chars.getLast? ≠ some '\n' := fun h =>
      newline_notMem hp (List.mem_of_getLast? h)
    rw [List.append_nil]
    exact ⟨fun h => ⟨h.1, rfl⟩, fun h => ⟨h.1, hlast⟩⟩
  · constructor
    · exact fun h => absurd List.getLast?_concat h.2
    · rintro ⟨-, h⟩
      cases h

/-- The coordinates of an accepted text can be written. -/
theorem coord_ok (hp : p.OK) (hc : p.Checked) : p.coord.OK where
  bucket := by
    rw [coord, String.toList_ofList]
    exact hp.bucket
  sourceFamily := hc.1
  day := hc.2
  sha256 := by
    rw [coord, HexDigest, String.toList_ofList]
    exact hp.sha256
  extension := by
    rw [coord, String.toList_ofList]
    exact hp.extension

/-- Writing the coordinates gives a text back exactly if its digits are ASCII and no newline
ends it. -/
theorem text_eq_iff (hp : p.OK) (hc : p.Checked) (he : atEnd e = true) {u : String}
    (hu : u.toList = p.chars ++ e) : p.coord.text = u ↔ p.AsciiDate ∧ e = [] := by
  rw [← String.toList_inj, ArchiveCoord.text_toList, hu]
  constructor
  · intro h
    rw [← List.append_nil p.coord.parts.chars] at h
    obtain ⟨hparts, rfl⟩ := chars_inj (coord_ok hp hc).parts hp rfl he h
    refine ⟨⟨?_, ?_, ?_⟩, rfl⟩
    · rw [← hparts, ArchiveCoord.parts_year]
      exact pad_ascii
    · rw [← hparts, ArchiveCoord.parts_month]
      exact pad_ascii
    · rw [← hparts, ArchiveCoord.parts_day]
      exact pad_ascii
  · rintro ⟨⟨hy, hm, hd⟩, rfl⟩
    have hparts : p.coord.parts = p := by
      simp only [ArchiveCoord.parts, coord, date, String.toList_ofList,
        (pad_eq_iff (by decide) hp.year).2 hy, (pad_eq_iff (by decide) hp.month).2 hm,
        (pad_eq_iff (by decide) hp.day).2 hd]
    rw [hparts, List.append_nil]

end UriText

/-! ## The codec -/

theorem normalizeExtension_run {E : ArchiveEnv} {extension ext : String}
    (h : normalizeExtension E extension = .ok ext) : Run isLowerAlnum 1 none ext.toList := by
  unfold normalizeExtension at h
  dsimp only at h
  split at h
  · cases h
  · split at h
    · rename_i hne hall
      rw [← Except.ok.inj h]
      refine ⟨List.all_eq_true.1 hall, ?_, fun _ hn => absurd hn (Option.not_mem_none _)⟩
      exact List.length_pos_iff.2 fun hnil => hne (String.toList_inj.1 hnil)
    · cases h

/-- What `build_archive_uri` accepts, and the coordinates it gives it. -/
theorem buildArchiveUri_ok {E : ArchiveEnv} {sourceFamily : String} {capturedAt : Option CivilDate}
    {content : List UInt8} {extension : String} {c : ArchiveCoord}
    (h : buildArchiveUri E sourceFamily capturedAt content extension = .ok c) :
    sourceFamily ∈ sourceFamilies ∧ ∃ day ext, capturedAt = some day ∧
      normalizeExtension E extension = .ok ext ∧
      c = ⟨E.bucket, sourceFamily, day, E.sha256 content, ext⟩ := by
  unfold buildArchiveUri at h
  split at h
  · cases h
  · rename_i hfamily
    cases capturedAt with
    | none => cases h
    | some day =>
      cases hext : normalizeExtension E extension with
      | error e =>
        rw [hext] at h
        cases h
      | ok ext =>
        rw [hext] at h
        exact ⟨not_not.1 hfamily, day, ext, rfl, rfl, (Except.ok.inj h).symm⟩

/-- What is accepted has coordinates that can be written. -/
theorem parse_ok {u : String} {c : ArchiveCoord} (h : parseArchiveUri u = .ok c) : c.OK := by
  obtain ⟨p, e, hp, -, -, hc, rfl⟩ := UriText.parse_ok_iff.1 h
  exact UriText.coord_ok hp hc

/-- **Writing what was read gives the text back exactly if the text is canonical.** -/
theorem text_eq_iff {u : String} {c : ArchiveCoord} (h : parseArchiveUri u = .ok c) :
    c.text = u ↔ CanonicalText u := by
  obtain ⟨p, e, hp, he, hu, hc, rfl⟩ := UriText.parse_ok_iff.1 h
  rw [UriText.text_eq_iff hp hc he hu, UriText.canonical_iff hp he hu]

/-- Content put under an accepted text goes where its canonical text says. -/
theorem putArchiveObject_text {E : ArchiveEnv} {u : String} {c : ArchiveCoord}
    (h : parseArchiveUri u = .ok c) : putArchiveObject E u = putArchiveObject E c.text := by
  rw [putArchiveObject, putArchiveObject, h, (parse_ok h).parse_text]

/-- **The archive URI codec.** What is built is read back as the bucket, the family, the day, the
digest and the normalized extension. Of the strings that are accepted, writing the coordinates
gives exactly the canonical ones back; only these are determined by their coordinates. -/
theorem archiveUri_codec (E : ArchiveEnv) :
    (BucketName E.bucket.toList → (∀ content, HexDigest (E.sha256 content)) →
      ∀ sourceFamily day content extension uri, day.Valid →
        buildArchiveUri E sourceFamily (some day) content extension = .ok uri →
        ∃ ext, normalizeExtension E extension = .ok ext ∧
          parseArchiveUri uri.text = .ok ⟨E.bucket, sourceFamily, day, E.sha256 content, ext⟩) ∧
    (∀ u c, parseArchiveUri u = .ok c →
      (c.text = u ↔ CanonicalText u) ∧ parseArchiveUri c.text = .ok c) ∧
    ∀ u v c, parseArchiveUri u = .ok c → parseArchiveUri v = .ok c → CanonicalText u →
      CanonicalText v → u = v := by
  refine ⟨?_, ?_, ?_⟩
  · intro hbucket hsha sourceFamily day content extension uri hday h
    obtain ⟨hfamily, d, ext, hd, hext, rfl⟩ := buildArchiveUri_ok h
    obtain rfl := Option.some.inj hd
    refine ⟨ext, hext, ArchiveCoord.OK.parse_text ⟨hbucket, hfamily, hday, hsha content, ?_⟩⟩
    exact normalizeExtension_run hext
  · exact fun u c h => ⟨text_eq_iff h, (parse_ok h).parse_text⟩
  · intro u v c hu hv hcu hcv
    rw [← (text_eq_iff hu).2 hcu, ← (text_eq_iff hv).2 hcv]

/-- The surroundings of the worked example of the convention, with the digest of `hello`. -/
def helloEnv : ArchiveEnv where
  unicode := ⟨id, lower, fun c => c.isAlphanum || c == '_'⟩
  sha256 _ := "2cf24dba5fb0a30e26e83b2ac5b9e29e1b161e5c1fa7425e73043362938b9824"
  bucket := "civic-archive"

/-- The coordinates of the worked example. -/
def helloUri : ArchiveCoord :=
  ⟨"civic-archive", "knesset", ⟨2024, 1, 15⟩, helloEnv.sha256 [], "html"⟩

theorem helloUri_ok : helloUri.OK where
  bucket := ⟨'c', "ivic-archive".toList, rfl, rfl, by decide⟩
  sourceFamily := by decide
  day := by decide
  sha256 := by
    unfold HexDigest
    decide
  extension := by decide

theorem archiveUri_codec_hello : ∃ ext, normalizeExtension helloEnv ".HTML" = .ok ext ∧
    parseArchiveUri helloUri.text =
      .ok ⟨"civic-archive", "knesset", ⟨2024, 1, 15⟩, helloEnv.sha256 [0x68], ext⟩ :=
  (archiveUri_codec helloEnv).1 helloUri_ok.bucket (fun _ => helloUri_ok.sha256) "knesset"
    ⟨2024, 1, 15⟩ [0x68] ".HTML" helloUri helloUri_ok.day (by decide)

/-- A newline after the URI is accepted, and lost. -/
theorem archiveUri_newline : ∃ u c, parseArchiveUri u = .ok c ∧ c.text ≠ u ∧
    u = helloUri.text ++ "\n" ∧ parseArchiveUri helloUri.text = .ok c := by
  refine ⟨_, helloUri, ?_, ?_, rfl, helloUri_ok.parse_text⟩
  · refine (UriText.parse_eq (e := ['\n']) helloUri_ok.parts rfl ?_).2
      ⟨⟨?_, ?_⟩, helloUri.parts_coord.symm⟩
    · rw [String.toList_append, ArchiveCoord.text_toList]
      rfl
    · decide
    · rw [ArchiveCoord.parts_date]
      exact helloUri_ok.day
  · intro h
    have := congrArg String.length h
    rw [String.length_append] at this
    simp at this

end CivicProof
