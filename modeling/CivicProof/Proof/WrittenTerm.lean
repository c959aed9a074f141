import CivicProof.Proof.LastTerm

/-!
# The number a phrase writes

Years are read from runs of four digits, but the term patterns read two digits at most and do not look
at what stands around them: the Hebrew one takes the first two digits of a longer number, the English
one the last two.

* `ReadsPart`: the term number is read from a part of a longer number.
* `written_iff`: when the number of a scope is a number of the phrase.
-/

namespace CivicProof

open Regex

variable {U : Unicode} {ref : CivilDate} {text : List Char} {phrase : String}

/-! ## Digits -/

theorem decimalValue_append (ds es : List Char) :
    decimalValue (ds ++ es) = decimalValue ds * 10 ^ es.length + decimalValue es := by
  have hfold : ∀ (es : List Char) (a : ℕ),
      es.foldl (fun n c => n * 10 + (digitValue c).getD 0) a =
        a * 10 ^ es.length + es.foldl (fun n c => n * 10 + (digitValue c).getD 0) 0 := by
    intro es
    induction es with
    | nil =>
      intro a
      simp
    | cons c es ih =>
      intro a
      rw [List.foldl_cons, List.foldl_cons, ih, ih (0 * 10 + _), List.length_cons, Nat.pow_succ',
        Nat.zero_mul, Nat.zero_add, Nat.add_mul, Nat.mul_assoc, Nat.add_assoc]
  unfold decimalValue
  rw [List.foldl_append]
  exact hfold es _

/-- Stripping takes no digit away. -/
theorem DigitRun.of_strip {ds : List Char} (h : DigitRun (strip phrase).toList ds) :
    DigitRun phrase.toList ds := by
  obtain ⟨u, v, htext, hne, hds, hu, hv⟩ := h
  rw [strip_toList] at htext
  set l := phrase.toList with hl
  have hfront : l = l.takeWhile isSpace ++ l.dropWhile isSpace :=
    List.takeWhile_append_dropWhile.symm
  have hback : l.dropWhile isSpace = (l.dropWhile isSpace).rdropWhile isSpace ++
      (l.dropWhile isSpace).rtakeWhile isSpace := (rdropWhile_append_rtakeWhile _).symm
  refine ⟨l.takeWhile isSpace ++ u, v ++ (l.dropWhile isSpace).rtakeWhile isSpace, ?_, hne, hds,
    ?_, ?_⟩
  · rw [htext] at hback
    conv_lhs => rw [hfront, hback]
    simp only [List.append_assoc]
  · intro c hc
    rw [List.reverse_append, List.head?_append, Option.mem_def, Option.or_eq_some_iff] at hc
    rcases hc with hc | ⟨-, hc⟩
    · exact hu c hc
    · exact isSpace_not_digit (List.mem_takeWhile_imp (List.mem_reverse.1 (List.mem_of_head? hc)))
  · intro c hc
    rw [List.head?_append, Option.mem_def, Option.or_eq_some_iff] at hc
    rcases hc with hc | ⟨-, hc⟩
    · exact hv c hc
    · exact isSpace_not_digit (List.mem_rtakeWhile_imp (List.mem_of_head? hc))

/-! ## The law -/

/-- The number is written in the phrase, as a maximal run of digits. -/
def WrittenIn (phrase : String) (n : ℕ) : Prop := ∃ ds, DigitRun phrase.toList ds ∧ decimalValue ds = n

/-- **The number of a scope is a number of the phrase.** -/
structure WrittenLaw (U : Unicode) (ref : CivilDate) (phrase : String) : Prop where
  term : ¬HasLastTerm U (strip phrase).toList → ∀ n,
    termScope n = some (normalizeTimeScope U ref (some phrase)) → WrittenIn phrase n
  year : ¬HasLastYear U (strip phrase).toList → ∀ y,
    normalizeTimeScope U ref (some phrase) = yearBounds y → WrittenIn phrase y

/-- The text gives the scope of a term whose number is a part of a longer one: in Hebrew a digit
follows it, in English other digits than zeros stand before it. -/
inductive ReadsPart (text : List Char) : ℕ → Prop
  | he {m : Match TimeGroup} : isoDate.matchAt [] text = none → heMonth.search text = none →
      heTerm.search text = some m → (termScope (groupNat m .n)).isSome →
      (∃ c ∈ text[m.stop]?, isDigit c = true) → ReadsPart text (groupNat m .n)
  | en {m : Match TimeGroup} : isoDate.matchAt [] text = none → heMonth.search text = none →
      heTermScope text = none → enTerm.search text = some m → (termScope (groupNat m .n)).isSome →
      decimalValue ((text.take m.start).rtakeWhile isDigit) ≠ 0 → ReadsPart text (groupNat m .n)

/-- Part or not, the number is the one read. -/
theorem ReadsPart.scope {n : ℕ} (h : ReadsPart text n) :
    termScope n = some (scopeOfText U ref text) := by
  cases h with
  | he hday hmonth hm hterm _ =>
    obtain ⟨scope, hscope⟩ := Option.isSome_iff_exists.1 hterm
    rw [scopeOfText_heTerm hday hmonth hm hscope, hscope]
  | en hday hmonth hhe hm hterm _ =>
    obtain ⟨scope, hscope⟩ := Option.isSome_iff_exists.1 hterm
    rw [scopeOfText_enTerm hday hmonth hhe hm hscope, hscope]

theorem termScope_granularity {n : ℕ} {s : TimeScope} (h : termScope n = some s) :
    s.granularity = .term := by
  obtain ⟨t, -, rfl⟩ := Option.map_eq_some_iff.1 h
  rfl

/-- A number that the Hebrew pattern reads whole is a run of the text. -/
theorem heTerm_whole {m : Match TimeGroup} (h : heTerm.search text = some m)
    (hcut : ¬∃ c ∈ text[m.stop]?, isDigit c = true) :
    ∃ ds, DigitRun text ds ∧ decimalValue ds = groupNat m .n := by
  obtain ⟨u, ds, v, rfl, hds, hu, -, hn, hstop⟩ := heTerm_reading h
  refine ⟨ds, ⟨u, v, rfl, ne_nil_of_run hds (by decide), hds.1, hu, fun c hc => ?_⟩, hn.symm⟩
  by_contra hdigit
  refine hcut ⟨c, ?_, by simpa using hdigit⟩
  rw [hstop, ← List.append_assoc, ← List.length_append, List.getElem?_append_right (Nat.le_refl _),
    Nat.sub_self, ← List.head?_eq_getElem?]
  exact hc

/-- A number that the English pattern reads behind zeros is the value of a run of the text. -/
theorem enTerm_whole {m : Match TimeGroup} (h : enTerm.search text = some m)
    (hzero : decimalValue ((text.take m.start).rtakeWhile isDigit) = 0) :
    ∃ ds, DigitRun text ds ∧ decimalValue ds = groupNat m .n := by
  obtain ⟨u, ds, tail, v, rfl, hds, -, htail, hn, hstart⟩ := enTerm_reading h
  rw [hstart, List.take_left] at hzero
  refine ⟨_, maxRun_extend (ne_nil_of_run hds (by decide)) hds.1, ?_⟩
  rw [takeWhile_of_fenced htail.fenced, List.append_nil, decimalValue_append, hzero, Nat.zero_mul,
    Nat.zero_add, hn]

theorem yearBounds_inj {y y' : ℕ} (h : yearBounds y = yearBounds y') : y = y' := by
  have hstart := congrArg String.toList (Option.some.inj (congrArg TimeScope.start h))
  unfold CivilDate.dayStart at hstart
  rw [String.toList_append, String.toList_append] at hstart
  have hiso := List.append_cancel_right hstart
  rw [CivilDate.iso_toList, CivilDate.iso_toList] at hiso
  exact pad_inj.1 (List.append_cancel_right hiso)

/-- A scope of a year that is not the last one is read from four digits. -/
theorem year_reading (hyear : ¬HasLastYear U text) {y : ℕ}
    (h : scopeOfText U ref text = yearBounds y) :
    ∃ m, yearPattern.search text = some m ∧ groupNat m .y = y := by
  have hreading := scopeOfText_reading U ref text
  have hgran : (scopeOfText U ref text).granularity = .year := by
    rw [h]
    rfl
  generalize scopeOfText U ref text = s at h hreading hgran
  have hterm : ∀ {n : ℕ}, termScope n ≠ some s := by
    intro n hn
    rw [termScope_granularity hn] at hgran
    cases hgran
  cases hreading with
  | day _ => cases hgran
  | month _ _ => cases hgran
  | heTerm _ _ _ hs => exact absurd hs hterm
  | enTerm _ _ _ _ hs => exact absurd hs hterm
  | lastYear _ hcue => exact absurd hcue hyear
  | lastTerm _ hs =>
    unfold lastTermScope at hs
    split at hs
    · split at hs
      · exact absurd hs hterm
      · cases hs
    · cases hs
  | year _ _ hm => exact ⟨_, hm, yearBounds_inj h⟩
  | unknown => cases hgran

/-- A scope of a term is read from a Hebrew or an English number, or it is the last term. -/
theorem term_reading {n : ℕ} (h : termScope n = some (scopeOfText U ref text)) :
    (∃ m, heTerm.search text = some m ∧ groupNat m .n = n) ∨
      (∃ m, enTerm.search text = some m ∧ groupNat m .n = n) ∨ HasLastTerm U text := by
  have hgran := termScope_granularity h
  have hreading := scopeOfText_reading U ref text
  generalize scopeOfText U ref text = s at h hgran hreading
  cases hreading with
  | day _ => cases hgran
  | month _ _ => cases hgran
  | heTerm _ _ hm hs => exact Or.inl ⟨_, hm, termScope_number hs h⟩
  | enTerm _ _ _ hm hs => exact Or.inr (Or.inl ⟨_, hm, termScope_number hs h⟩)
  | lastYear _ _ => cases hgran
  | lastTerm hcue _ => exact Or.inr (Or.inr hcue)
  | year _ _ _ => cases hgran
  | unknown => cases hgran

/-- Years are never read from a part of a number. -/
theorem written_year (hyear : ¬HasLastYear U (strip phrase).toList) {y : ℕ}
    (h : normalizeTimeScope U ref (some phrase) = yearBounds y) : WrittenIn phrase y := by
  rw [normalizeTimeScope_eq] at h
  obtain ⟨m, hm, rfl⟩ := year_reading hyear h
  obtain ⟨ds, hrun, -, hds⟩ := yearPattern_reading hm
  exact ⟨ds, hrun.of_strip, hds.symm⟩

/-- **When the number of a scope is a number of the phrase**: always for years, and for terms unless the
number is read from a part of a longer one and stands nowhere else. -/
theorem written_iff (U : Unicode) (ref : CivilDate) (phrase : String) :
    WrittenLaw U ref phrase ↔ (¬HasLastTerm U (strip phrase).toList → ∀ n,
      ReadsPart (strip phrase).toList n → WrittenIn phrase n) := by
  constructor
  · intro hlaw hcue n hpart
    refine hlaw.term hcue n ?_
    rw [normalizeTimeScope_eq]
    exact hpart.scope
  · refine fun hparts => ⟨fun hcue n hn => ?_, fun hcue y hy => written_year hcue hy⟩
    rw [normalizeTimeScope_eq] at hn
    have hgran := termScope_granularity hn
    have hreading := scopeOfText_reading U ref (phraseText (some phrase))
    generalize scopeOfText U ref (phraseText (some phrase)) = s at hn hgran hreading
    cases hreading with
    | day _ => cases hgran
    | month _ _ => cases hgran
    | @heTerm m _ hday hmonth hm hs =>
      obtain rfl := termScope_number hn hs
      by_cases hcut : ∃ c ∈ (strip phrase).toList[m.stop]?, isDigit c = true
      · exact hparts hcue _ (.he hday hmonth hm (Option.isSome_iff_exists.2 ⟨s, hs⟩) hcut)
      · obtain ⟨ds, hrun, hds⟩ := heTerm_whole hm hcut
        exact ⟨ds, hrun.of_strip, hds⟩
    | @enTerm m _ hday hmonth hhe hm hs =>
      obtain rfl := termScope_number hn hs
      by_cases hzero : decimalValue (((strip phrase).toList.take m.start).rtakeWhile isDigit) = 0
      · obtain ⟨ds, hrun, hds⟩ := enTerm_whole hm hzero
        exact ⟨ds, hrun.of_strip, hds⟩
      · exact hparts hcue _ (.en hday hmonth hhe hm (Option.isSome_iff_exists.2 ⟨s, hs⟩) hzero)
    | lastYear _ _ => cases hgran
    | lastTerm hterm _ => exact absurd hterm hcue
    | year _ _ _ => cases hgran
    | unknown => cases hgran

/-! ## A longer number -/

/-- **The 251st Knesset** is read as the 25th. -/
theorem longer_number_read : ¬WrittenLaw asciiWords ⟨2024, 1, 1⟩ "כנסת 251" := by
  intro hlaw
  have hcue : ¬HasLastTerm asciiWords (strip "כנסת 251").toList := by
    unfold HasLastTerm
    decide +kernel
  have hread : termScope 25 = some (normalizeTimeScope asciiWords ⟨2024, 1, 1⟩ (some "כנסת 251")) := by
    decide +kernel
  obtain ⟨ds, ⟨u, v, htext, -, hds, -, hv⟩, hvalue⟩ := hlaw.term hcue 25 hread
  -- behind digits of the value 25 there is a digit
  have hparts : ∀ i < 9, ∀ j < 9, (("כנסת 251".toList.drop i).take j).all isDigit = true →
      decimalValue (("כנסת 251".toList.drop i).take j) = 25 →
        (("כנסת 251".toList.drop i).drop j).head?.any isDigit = true := by
    decide +kernel
  have hlen : u.length + (ds.length + v.length) = 8 := by
    rw [← List.length_append, ← List.length_append, ← htext]
    decide
  have hpart := hparts u.length (by omega) ds.length (by omega)
  rw [htext, List.drop_left, List.take_left, List.drop_left] at hpart
  have hnext := hpart (List.all_eq_true.2 hds) hvalue
  cases hc : v.head? with
  | none =>
    rw [hc] at hnext
    cases hnext
  | some c =>
    have hdigit : isDigit c = true := by
      rw [hc] at hnext
      exact hnext
    rw [hv c hc] at hdigit
    cases hdigit

end CivicProof
