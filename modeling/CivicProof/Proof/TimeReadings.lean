import CivicProof.Regex.Ways
import CivicProof.Spec.Temporal

/-!
# How a time phrase is read

Which branch of the normalizer gave a scope, and what the pattern of that branch saw in the text.

* `scopeOfText_reading`: the branches, as an inductive relation.
* `isoDate_reading`, `heMonth_reading`, `heTerm_reading`, `enTerm_reading`, `yearPattern_reading`: the
  text around a match, with the digits read.
-/

namespace CivicProof

open Regex Re

variable {U : Unicode} {ref : CivilDate} {text : List Char} {m : Match TimeGroup}

/-- A Unicode database whose word characters are the ASCII letters and digits. -/
def asciiWords : Unicode := ⟨id, lower, Char.isAlphanum⟩

/-! ## Branches -/

/-- The Knesset term the Hebrew pattern reads, if its number is one of the table. -/
def heTermScope (text : List Char) : Option TimeScope :=
  (heTerm.search text).bind fun m => termScope (groupNat m .n)

/-- The Knesset term the English pattern reads. -/
def enTermScope (text : List Char) : Option TimeScope :=
  (enTerm.search text).bind fun m => termScope (groupNat m .n)

/-- The text has a "last year" expression. -/
def HasLastYear (U : Unicode) (text : List Char) : Prop :=
  (heLastYear.search text).isSome ∨ ((enLastYear U).search text).isSome

/-- The text has a "last term" expression. -/
def HasLastTerm (U : Unicode) (text : List Char) : Prop :=
  (heLastTerm.search text).isSome ∨ ((enLastTerm U).search text).isSome

/-- No date, month or Knesset term is read from the text. -/
structure NoAbsolute (text : List Char) : Prop where
  day : isoDate.matchAt [] text = none
  month : heMonth.search text = none
  heTerm : heTermScope text = none
  enTerm : enTermScope text = none

/-- The scope that a text gets, by the branch it comes from. -/
inductive Reading (U : Unicode) (ref : CivilDate) (text : List Char) : TimeScope → Prop
  | day {m : Match TimeGroup} : isoDate.matchAt [] text = some m →
      Reading U ref text (dayScope (groupNat m .y) (groupNat m .m) (groupNat m .d))
  | month {m : Match TimeGroup} : isoDate.matchAt [] text = none → heMonth.search text = some m →
      Reading U ref text (monthBounds (groupNat m .y) (monthNumber m))
  | heTerm {m : Match TimeGroup} {scope : TimeScope} : isoDate.matchAt [] text = none →
      heMonth.search text = none → heTerm.search text = some m →
      termScope (groupNat m .n) = some scope → Reading U ref text scope
  | enTerm {m : Match TimeGroup} {scope : TimeScope} : isoDate.matchAt [] text = none →
      heMonth.search text = none → heTermScope text = none → enTerm.search text = some m →
      termScope (groupNat m .n) = some scope → Reading U ref text scope
  | lastYear : NoAbsolute text → HasLastYear U text →
      Reading U ref text (yearBounds (ref.year - 1))
  | lastTerm {scope : TimeScope} : HasLastTerm U text → lastTermScope ref = some scope →
      Reading U ref text scope
  | year {m : Match TimeGroup} : NoAbsolute text → ¬HasLastYear U text →
      yearPattern.search text = some m → Reading U ref text (yearBounds (groupNat m .y))
  | unknown : Reading U ref text unknownScope

/-- **Every scope comes from one of the branches.** -/
theorem scopeOfText_reading (U : Unicode) (ref : CivilDate) (text : List Char) :
    Reading U ref text (scopeOfText U ref text) := by
  unfold scopeOfText
  split
  · exact .day ‹_›
  rename_i hday
  split
  · exact .month hday ‹_›
  rename_i hmonth
  split
  · rename_i h
    obtain ⟨m, hm, hscope⟩ := Option.bind_eq_some_iff.1 h
    exact .heTerm hday hmonth hm hscope
  rename_i hhe
  split
  · rename_i h
    obtain ⟨m, hm, hscope⟩ := Option.bind_eq_some_iff.1 h
    exact .enTerm hday hmonth hhe hm hscope
  rename_i hen
  split
  · rename_i h
    exact .lastYear ⟨hday, hmonth, hhe, hen⟩ (Bool.or_eq_true_iff.1 h)
  rename_i hyear
  split
  · rename_i h
    split at h
    · rename_i hcue
      exact .lastTerm (Bool.or_eq_true_iff.1 hcue) h
    · cases h
  split
  · exact .year ⟨hday, hmonth, hhe, hen⟩ (fun h => hyear (Bool.or_eq_true_iff.2 h)) ‹_›
  · exact .unknown

theorem scopeOfText_day (h : isoDate.matchAt [] text = some m) :
    scopeOfText U ref text = dayScope (groupNat m .y) (groupNat m .m) (groupNat m .d) := by
  unfold scopeOfText
  rw [h]

theorem scopeOfText_heTerm {scope : TimeScope} (hday : isoDate.matchAt [] text = none)
    (hmonth : heMonth.search text = none) (hm : heTerm.search text = some m)
    (hscope : termScope (groupNat m .n) = some scope) : scopeOfText U ref text = scope := by
  unfold scopeOfText
  rw [hday, hmonth, hm]
  simp only [Option.bind_some, hscope]

theorem scopeOfText_enTerm {scope : TimeScope} (hday : isoDate.matchAt [] text = none)
    (hmonth : heMonth.search text = none) (hhe : heTermScope text = none)
    (hm : enTerm.search text = some m) (hscope : termScope (groupNat m .n) = some scope) :
    scopeOfText U ref text = scope := by
  unfold heTermScope at hhe
  unfold scopeOfText
  rw [hday, hmonth, hhe, hm]
  simp only [Option.bind_some, hscope]

theorem scopeOfText_lastYear (h : NoAbsolute text) (hcue : HasLastYear U text) :
    scopeOfText U ref text = yearBounds (ref.year - 1) := by
  have hhe := h.heTerm
  have hen := h.enTerm
  unfold heTermScope at hhe
  unfold enTermScope at hen
  unfold scopeOfText
  rw [h.day, h.month, hhe, hen]
  exact if_pos (Bool.or_eq_true_iff.2 hcue)

theorem scopeOfText_year (h : NoAbsolute text) (hyear : ¬HasLastYear U text)
    (hterm : ¬HasLastTerm U text) (hm : yearPattern.search text = some m) :
    scopeOfText U ref text = yearBounds (groupNat m .y) := by
  have hhe := h.heTerm
  have hen := h.enTerm
  unfold heTermScope at hhe
  unfold enTermScope at hen
  unfold scopeOfText
  rw [h.day, h.month, hhe, hen, hm]
  have hyear' : ¬((heLastYear.search text).isSome || ((enLastYear U).search text).isSome) = true :=
    fun hcue => hyear (Bool.or_eq_true_iff.1 hcue)
  have hterm' : ¬((heLastTerm.search text).isSome || ((enLastTerm U).search text).isSome) = true :=
    fun hcue => hterm (Bool.or_eq_true_iff.1 hcue)
  dsimp only
  rw [if_neg hyear', if_neg hterm']

/-! ## Digits -/

/-- The number that a group of digits stands for. -/
theorem groupNat_eq {g : TimeGroup} {ds : List Char} (h : m.groups g = some ds)
    (hne : ds ≠ []) (hd : ∀ c ∈ ds, isDigit c = true) : groupNat m g = decimalValue ds := by
  obtain ⟨c, cs, rfl⟩ := List.exists_cons_of_ne_nil hne
  obtain ⟨i, hi⟩ := Option.isSome_iff_exists.1 (hd c List.mem_cons_self)
  have hrest := digitsToNat_digits (fun x hx => hd x (List.mem_cons_of_mem _ hx)) (0 * 10 + i)
  unfold groupNat decimalValue
  rw [h, Option.bind_some, digitsToNat, if_neg (isDigit_plain (hd c List.mem_cons_self)).2.1,
    List.foldl_cons]
  simp only [hi, hrest, Option.getD_some]

theorem plain_word (s : String) : (word s).Plain (· = s.toList) := Plain_lit charEq_iff s

theorem plain_digits (n : ℕ) : (digits n).Plain (Run isDigit n (some n)) := Plain_rep

theorem plain_ws : ws.Plain (Run isSpace 1 none) := Plain_rep

/-- The digits of a year of the last or of this century. -/
def YearDigits (ds : List Char) : Prop :=
  ∃ century tail, ds = century ++ tail ∧ (century = "19".toList ∨ century = "20".toList) ∧
    Run isDigit 2 (some 2) tail

theorem plain_yearDigits : yearDigits.Plain YearDigits :=
  ((plain_word "19").alt (plain_word "20")).seq (plain_digits 2)

theorem run_exact {p : Char → Bool} {n : ℕ} {w : List Char} (h : Run p n (some n) w) :
    w.length = n := Nat.le_antisymm (h.2.2 n rfl) h.2.1

theorem YearDigits.digits {ds : List Char} (h : YearDigits ds) : Run isDigit 4 (some 4) ds := by
  obtain ⟨century, tail, rfl, hc, htail⟩ := h
  have hlen := run_exact htail
  have hcentury : (∀ c ∈ century, isDigit c = true) ∧ century.length = 2 := by
    rcases hc with rfl | rfl <;> decide
  refine ⟨fun c hmem => ?_, ?_, fun n hn => ?_⟩
  · rcases List.mem_append.1 hmem with hmem | hmem
    · exact hcentury.1 c hmem
    · exact htail.1 c hmem
  · rw [List.length_append]
    omega
  · obtain rfl := Option.some.inj hn
    rw [List.length_append]
    omega

theorem YearDigits.value {ds : List Char} (h : YearDigits ds) :
    1900 ≤ decimalValue ds ∧ decimalValue ds ≤ 2099 := by
  obtain ⟨century, tail, rfl, hc, htail⟩ := h
  obtain ⟨a, b, rfl⟩ := List.length_eq_two.1 (run_exact htail)
  have ha := htail.1 a (by simp)
  have hb := htail.1 b (by simp)
  obtain ⟨-, -, i, hi, -, hia⟩ := digitValue_spec ha
  obtain ⟨-, -, j, hj, -, hjb⟩ := digitValue_spec hb
  have hone : digitValue '1' = some 1 := by decide
  have hnine : digitValue '9' = some 9 := by decide
  have htwo : digitValue '2' = some 2 := by decide
  have hzero : digitValue '0' = some 0 := by decide
  rcases hc with rfl | rfl
  · have hval : decimalValue ("19".toList ++ [a, b]) = 1900 + i * 10 + j := by
      show decimalValue ['1', '9', a, b] = _
      simp only [decimalValue, List.foldl_cons, List.foldl_nil, hia, hjb, hone, hnine,
        Option.getD_some]
      omega
    omega
  · have hval : decimalValue ("20".toList ++ [a, b]) = 2000 + i * 10 + j := by
      show decimalValue ['2', '0', a, b] = _
      simp only [decimalValue, List.foldl_cons, List.foldl_nil, hia, hjb, htwo, hzero,
        Option.getD_some]
      omega
    omega

/-! ## Dates and months -/

/-- A text that is three numbers joined by hyphens, as an ISO date is. -/
structure IsoShaped (text y mo d : List Char) : Prop where
  year : Run isDigit 4 (some 4) y
  month : Run isDigit 2 (some 2) mo
  day : Run isDigit 2 (some 2) d
  text_eq : text = y ++ '-' :: (mo ++ '-' :: d) ∨ text = y ++ '-' :: (mo ++ '-' :: (d ++ ['\n']))

theorem ne_nil_of_run {p : Char → Bool} {lo : ℕ} {hi : Option ℕ} {w : List Char}
    (h : Run p lo hi w) (hlo : 0 < lo) : w ≠ [] := by
  rintro rfl
  exact absurd h.2.1 (Nat.not_le.2 hlo)

theorem groupNat_run {g : TimeGroup} {lo : ℕ} {hi : Option ℕ} {ds : List Char}
    (h : m.groups g = some ds) (hd : Run isDigit lo hi ds) (hlo : 0 < lo) :
    groupNat m g = decimalValue ds :=
  groupNat_eq h (ne_nil_of_run hd hlo) hd.1

theorem isoDate_matches {g g' : Caps TimeGroup} {pre w post : List Char} :
    isoDate.Matches g pre w post g' ↔ ∃ y mo d, Run isDigit 4 (some 4) y ∧
      Run isDigit 2 (some 2) mo ∧ Run isDigit 2 (some 2) d ∧ w = y ++ '-' :: (mo ++ '-' :: d) ∧
      (post = [] ∨ post = ['\n']) ∧ g' = Function.update (Function.update (Function.update g .y
        (some y)) .m (some mo)) .d (some d) := by
  unfold isoDate
  rw [(plain_digits 4).group_iff]
  constructor
  · rintro ⟨y, w₁, rfl, hy, h⟩
    obtain ⟨h₁, w₂, rfl, rfl, h⟩ := (plain_word "-").cat_iff.1 h
    obtain ⟨mo, w₃, rfl, hmo, h⟩ := (plain_digits 2).group_iff.1 h
    obtain ⟨h₂, w₄, rfl, rfl, h⟩ := (plain_word "-").cat_iff.1 h
    obtain ⟨d, w₅, rfl, hd, h⟩ := (plain_digits 2).group_iff.1 h
    obtain ⟨hend, rfl, rfl⟩ := h
    refine ⟨y, mo, d, hy, hmo, hd, by simp, ?_, rfl⟩
    simpa using hend
  · rintro ⟨y, mo, d, hy, hmo, hd, rfl, hend, rfl⟩
    refine ⟨y, _, rfl, hy, ?_⟩
    refine (plain_word "-").cat_iff.2 ⟨_, _, rfl, rfl, ?_⟩
    refine (plain_digits 2).group_iff.2 ⟨mo, _, rfl, hmo, ?_⟩
    refine (plain_word "-").cat_iff.2 ⟨_, _, rfl, rfl, ?_⟩
    refine (plain_digits 2).group_iff.2 ⟨d, [], (List.append_nil d).symm, hd, ?_⟩
    exact ⟨by simpa using hend, rfl, rfl⟩

/-- **A date is read** from a text of its shape. -/
theorem isoDate_reading (h : isoDate.matchAt [] text = some m) : ∃ y mo d, IsoShaped text y mo d ∧
    groupNat m .y = decimalValue y ∧ groupNat m .m = decimalValue mo ∧
    groupNat m .d = decimalValue d := by
  obtain ⟨w, post, g', rfl, hm, rfl⟩ := matchAt_sound h
  obtain ⟨y, mo, d, hy, hmo, hd, rfl, hpost, rfl⟩ := isoDate_matches.1 hm
  refine ⟨y, mo, d, ⟨hy, hmo, hd, ?_⟩, groupNat_run rfl hy (by decide),
    groupNat_run rfl hmo (by decide), groupNat_run rfl hd (by decide)⟩
  rcases hpost with rfl | rfl
  · exact Or.inl (List.append_nil _)
  · exact Or.inr (by simp)

theorem IsoShaped.isSome {y mo d : List Char} (h : IsoShaped text y mo d) :
    (isoDate.matchAt [] text).isSome := by
  have hmatch : ∀ post : List Char, post = [] ∨ post = ['\n'] →
      (isoDate.matchAt [] ((y ++ '-' :: (mo ++ '-' :: d)) ++ post)).isSome := fun post hpost =>
    matchAt_complete (isoDate_matches.2 ⟨y, mo, d, h.year, h.month, h.day, rfl, hpost, rfl⟩)
  rcases h.text_eq with rfl | rfl
  · simpa using hmatch [] (Or.inl rfl)
  · simpa using hmatch ['\n'] (Or.inr rfl)

/-- **A month is read** where its name stands before a year. -/
theorem heMonth_reading (h : heMonth.search text = some m) : ∃ u name sp ds v,
    text = u ++ (name.toList ++ (sp ++ ds) ++ v) ∧ name ∈ heMonths ∧ Run isSpace 1 none sp ∧
    YearDigits ds ∧ monthNumber m = heMonths.idxOf name + 1 ∧ groupNat m .y = decimalValue ds := by
  obtain ⟨u, v, rfl, hat, -⟩ := search_eq_some h
  obtain ⟨w, post, g', rfl, hm, rfl⟩ := matchAt_sound hat
  unfold heMonth at hm
  obtain ⟨nm, w₁, rfl, ⟨name, hname, rfl⟩, hm⟩ := (Plain_any plain_word).group_iff.1 hm
  obtain ⟨sp, w₂, rfl, hsp, hm⟩ := plain_ws.cat_iff.1 hm
  obtain ⟨g₁, hds, rfl⟩ := hm
  obtain ⟨hyear, rfl⟩ := (plain_yearDigits ..).1 hds
  refine ⟨u, name, sp, w₂, post, rfl, hname, hsp, hyear, ?_, groupNat_run rfl hyear.digits (by decide)⟩
  show heMonths.idxOf (String.ofList ((some name.toList).getD [])) + 1 = _
  rw [Option.getD_some, String.ofList_toList]

/-! ## Years -/

/-- A maximal run of digits of a text. -/
abbrev DigitRun (text ds : List Char) : Prop := MaxRun isDigit text ds

theorem fenced_of_not_any {l : List Char} (h : (!l.head?.any isDigit) = true) : Fenced isDigit l := by
  intro c hc
  rw [Option.mem_def.1 hc] at h
  simpa using h

/-- **A year is read** where four digits of one stand alone. -/
theorem yearPattern_reading (h : yearPattern.search text = some m) :
    ∃ ds, DigitRun text ds ∧ YearDigits ds ∧ groupNat m .y = decimalValue ds := by
  obtain ⟨u, v, rfl, hat, -⟩ := search_eq_some h
  obtain ⟨w, post, g', rfl, hm, rfl⟩ := matchAt_sound hat
  unfold yearPattern at hm
  obtain ⟨w₁, w₂, g₁, rfl, ⟨hbefore, rfl, rfl⟩, hm⟩ := Matches_cat_cons.1 hm
  obtain ⟨ds, w₃, rfl, hds, hafter, rfl, rfl⟩ := plain_yearDigits.group_iff.1 hm
  exact ⟨ds, ⟨u, post, by simp, ne_nil_of_run hds.digits (by decide), hds.digits.1,
    fenced_of_not_any hbefore, fenced_of_not_any hafter⟩, hds,
    groupNat_run rfl hds.digits (by decide)⟩

/-! ## Knesset terms -/

theorem word_within {s : String} (h : s.toList.all (fun c => !isDigit c) = true) :
    (word s).Within fun c => isDigit c = false := by
  refine Within_lit.2 fun a ha c hc => ?_
  rw [(charEq_iff a c).1 hc]
  simpa using List.all_eq_true.1 h a ha

theorem isSpace_not_digit {c : Char} (h : isSpace c = true) : isDigit c = false := by
  by_contra hd
  rw [Bool.not_eq_false] at hd
  rw [(isDigit_plain hd).1] at h
  cases h

theorem space_within {lo : ℕ} : (.rep isSpace lo none true : Re TimeGroup).Within
    fun c => isDigit c = false := fun _ => isSpace_not_digit

/-- **The number of a Hebrew term** stands behind a character that is no digit, and it ends before one
or with its second digit. -/
theorem heTerm_reading (h : heTerm.search text = some m) : ∃ u ds v, text = u ++ (ds ++ v) ∧
    Run isDigit 1 (some 2) ds ∧ Fenced isDigit u.reverse ∧ (ds.length = 2 ∨ Fenced isDigit v) ∧
    groupNat m .n = decimalValue ds ∧ m.stop = u.length + ds.length := by
  obtain ⟨u, v, rfl, hat, -⟩ := search_eq_some h
  rw [matchAt_eq_first] at hat
  obtain ⟨z, hz, rfl⟩ := Option.map_eq_some_iff.1 hat
  unfold heTerm at hz
  obtain ⟨x, hx, hz⟩ := first_cat_cons hz
  obtain ⟨y, hy, hz⟩ := first_cat_cons hz
  obtain ⟨s, hs, hz⟩ := first_cat_cons hz
  obtain ⟨e, he, rfl⟩ := first_group hz
  obtain ⟨ds, hpost, hpre, -, hds, hend⟩ := first_greedy he
  -- nothing before the number is a digit
  have hfx : Fenced isDigit x.pre := fenced_way_of_needs (word_within (by decide))
    (Needs_lit.2 ⟨'כ', by decide, fun _ _ => trivial⟩) hx
  have hfy : Fenced isDigit y.pre := by
    refine fenced_way ?_ hy hfx
    rw [Within_opt, Within_cat]
    simp only [List.mem_cons, List.not_mem_nil, or_false, forall_eq_or_imp, forall_eq, Within_opt]
    exact ⟨space_within, word_within (by decide), word_within (by decide)⟩
  have hfs := fenced_way space_within hs hfy
  obtain ⟨w₁, -, hv, hx', -⟩ := ways_sound hx fun _ => none
  obtain ⟨w₂, -, hx'', hy', -⟩ := ways_sound hy fun _ => none
  obtain ⟨w₃, -, hy'', hs', -⟩ := ways_sound hs fun _ => none
  have hbefore : s.pre.reverse = u ++ (w₁ ++ (w₂ ++ w₃)) := by
    rw [hs', hy', hx']
    simp
  refine ⟨s.pre.reverse, ds, e.post, ?_, hds, ?_, ?_, ?_, ?_⟩
  · rw [hbefore, hv, hx'', hy'', hpost]
    simp
  · rwa [List.reverse_reverse]
  · exact hend.imp_left fun hlen => (Option.some.inj hlen).symm
  · refine groupNat_run ?_ hds (by decide)
    dsimp only
    rw [Function.update_self, hpre, hpost]
    simp
  · dsimp only
    rw [hpre, List.length_append, List.length_reverse, List.length_reverse, Nat.add_comm]

/-- What follows the number of an English term. -/
def EnTermTail (w : List Char) : Prop :=
  ∃ suffix rest, w = suffix ++ rest ∧
    ((∃ s ∈ ["st", "nd", "rd", "th"], suffix = s.toList) ∨ suffix = []) ∧
    ∃ sp kn, rest = sp ++ kn ∧ Run isSpace 1 none sp ∧
      ∃ k nesset, kn = k ++ nesset ∧ (∃ c, (c == 'K' || c == 'k') = true ∧ k = [c]) ∧
        nesset = "nesset".toList

theorem plain_enTermTail : (cat [opt (any [word "st", word "nd", word "rd", word "th"]), ws,
    .set fun c => c == 'K' || c == 'k', word "nesset"]).Plain EnTermTail :=
  (Plain_any plain_word (l := ["st", "nd", "rd", "th"])).opt.seq
    (plain_ws.seq (Plain_set.seq (plain_word "nesset")))

/-- What follows the number begins with a letter or a space. -/
theorem EnTermTail.fenced {w v : List Char} (h : EnTermTail w) : Fenced isDigit (w ++ v) := by
  obtain ⟨suffix, rest, rfl, hsuffix, sp, kn, rfl, hsp, -⟩ := h
  obtain ⟨c, sp, rfl⟩ := List.exists_cons_of_ne_nil (ne_nil_of_run hsp (by decide))
  have hc : isDigit c = false := isSpace_not_digit (hsp.1 c List.mem_cons_self)
  intro d hd
  rcases hsuffix with ⟨s, hs, rfl⟩ | rfl
  · have hall : ∀ s ∈ ["st", "nd", "rd", "th"], ∀ c ∈ s.toList.head?, isDigit c = false := by decide
    have hne : ∀ s ∈ ["st", "nd", "rd", "th"], s.toList ≠ [] := by decide
    rw [List.append_assoc, List.head?_append_of_ne_nil _ (hne s hs)] at hd
    exact hall s hs d hd
  · obtain rfl := Option.some.inj hd
    exact hc

/-- **The number of an English term** ends before a character that is no digit, and it begins behind one
or has two digits. -/
theorem enTerm_reading (h : enTerm.search text = some m) : ∃ u ds tail v,
    text = u ++ (ds ++ (tail ++ v)) ∧ Run isDigit 1 (some 2) ds ∧
    (ds.length = 2 ∨ Fenced isDigit u.reverse) ∧ EnTermTail tail ∧
    groupNat m .n = decimalValue ds ∧ m.start = u.length := by
  obtain ⟨u, v, rfl, hat, hleft⟩ := search_eq_some h
  obtain ⟨w, post, g', rfl, hm, rfl⟩ := matchAt_sound hat
  obtain ⟨w₁, w₂, g₁, rfl, ⟨g₂, ⟨hds, rfl⟩, rfl⟩, hrest⟩ := Matches_cat_cons.1 hm
  obtain ⟨htail, rfl⟩ := (plain_enTermTail ..).1 hrest
  refine ⟨u, w₁, w₂, post, by simp, hds, ?_, htail, groupNat_run rfl hds (by decide),
    List.length_reverse⟩
  -- one digit behind another: the pattern matches one place earlier
  by_contra hnot
  obtain ⟨hlen, hfence⟩ := not_or.1 hnot
  rcases List.eq_nil_or_concat u with rfl | ⟨u, c, rfl⟩
  · exact hfence Fenced.nil
  have hc : isDigit c = true := by
    by_contra hc
    refine hfence fun d hd => ?_
    rw [List.concat_eq_append, List.reverse_append] at hd
    obtain rfl := Option.some.inj hd
    simpa using hc
  have hone : w₁.length = 1 := by
    have hlo := hds.2.1
    have hhi := hds.2.2 2 rfl
    omega
  have hearlier := hleft u (c :: ((w₁ ++ w₂) ++ post)) (by simp) (by simp)
  have hmatch : enTerm.Matches (fun _ => none) u.reverse ((c :: w₁) ++ w₂) post
      (Function.update (fun _ => none) .n (some (c :: w₁))) := by
    refine Matches_cat_cons.2 ⟨c :: w₁, w₂, _, rfl, ⟨_, ⟨⟨?_, ?_, ?_⟩, rfl⟩, rfl⟩,
      (plain_enTermTail ..).2 ⟨htail, rfl⟩⟩
    · intro d hd
      rcases List.mem_cons.1 hd with rfl | hd
      · exact hc
      · exact hds.1 d hd
    · rw [List.length_cons]
      omega
    · intro n hn
      obtain rfl := Option.some.inj hn
      rw [List.length_cons, hone]
  have hsome := matchAt_complete hmatch
  rw [List.cons_append, List.cons_append, hearlier] at hsome
  cases hsome

/-! ## The text of a phrase -/

/-- The text that the patterns search. -/
def phraseText (phrase : Option String) : List Char := (strip (phrase.getD "")).toList

theorem scopeOfText_nil (U : Unicode) (ref : CivilDate) : scopeOfText U ref [] = unknownScope := rfl

theorem normalizeTimeScope_eq (U : Unicode) (ref : CivilDate) (phrase : Option String) :
    normalizeTimeScope U ref phrase = scopeOfText U ref (phraseText phrase) := by
  have hnil : phraseText (orNone phrase) = phraseText phrase := by
    cases phrase with
    | none => rfl
    | some p =>
      by_cases hp : p = ""
      · rw [hp]
        rfl
      · rw [orNone_isSome hp]
  unfold normalizeTimeScope
  rw [← hnil]
  cases orNone phrase with
  | none => exact (scopeOfText_nil U ref).symm
  | some p =>
    dsimp only
    split
    · rename_i h
      have htext : phraseText (some p) = [] := h
      rw [htext, scopeOfText_nil]
    · rfl

end CivicProof
