import CivicProof.Proof.Scripts
import CivicProof.Proof.WrittenTerm

/-!
# The time phrases of the rules

The rule templates capture time phrases with expressions of their own, some of them ignoring case. What
the normalizer reads is narrower: a year needs ASCII digits in front, a Hebrew Knesset number two
digits at most, and an English one a lower-case suffix.

* `phrase_iff`: when a captured number is read as what it says.
* `same_language_iff`: when all time phrases of a statement are.
-/

namespace CivicProof

open Regex Re

variable {U : Unicode} {ref : CivilDate} {phrase : String} {text : List Char}

/-! ## What the templates capture -/

/-- `כנסת` and a number behind `ה`. -/
def HeKnesset (phrase ds : List Char) : Prop :=
  ∃ sp hyphen, phrase = "כנסת".toList ++ (sp ++ ("ה".toList ++ (hyphen ++ ds))) ∧
    Run isSpace 1 none sp ∧ (hyphen = "-".toList ∨ hyphen = []) ∧ Run isDigit 1 none ds

/-- A text equal to a word up to case. -/
def SameWord (word : String) (w : List Char) : Prop :=
  List.Forall₂ (fun a c => charEq true a c = true) word.toList w

/-- `the`, a number with its suffix, and `Knesset`, in whatever case. -/
structure EnKnesset (phrase ds suffix knesset : List Char) : Prop where
  number : Run isDigit 1 none ds
  ordinal : ∃ s ∈ ["st", "nd", "rd", "th"], SameWord s suffix
  word : SameWord "Knesset" knesset
  text_eq : ∃ the sp sp', phrase = the ++ (sp ++ (ds ++ (suffix ++ (sp' ++ knesset)))) ∧
    SameWord "the" the ∧ Run isSpace 1 none sp ∧ Run isSpace 1 none sp'

theorem charEq_mono {ci : Bool} {a c : Char} (h : charEq ci a c = true) : charEq true a c = true := by
  cases ci with
  | true => exact h
  | false =>
    rw [(charEq_iff a c).1 h]
    simp [charEq]

theorem sameWord_of_lit {ci : Bool} {s : String} {w : List Char}
    (h : List.Forall₂ (fun a c => charEq ci a c = true) s.toList w) : SameWord s w :=
  h.imp fun _ _ => charEq_mono

/-- The alternatives of the time groups: Hebrew ones and English ones. -/
def heTimeAlts : List Pattern := [fourDigits, cat [he "הקדנציה", opt (cat [sp, he "הקודמת"])], heKnesset]

def enTimeAlts (ci : Bool) : List Pattern :=
  [fourDigits, cat [en ci "the", sp, .rep isDigit 1 none true,
      any [en ci "st", en ci "nd", en ci "rd", en ci "th"], sp, en ci "Knesset"],
    cat [en ci "last", sp, en ci "term"]]

/-! ## The words of the alternatives -/

theorem plain_he (s : String) : (he s).Plain (· = s.toList) := Plain_lit charEq_iff s

theorem plain_en (ci : Bool) (s : String) :
    (en ci s).Plain (List.Forall₂ (fun a c => charEq ci a c = true) s.toList) := Plain_lit_each _ s

theorem plain_sp : sp.Plain (Run isSpace 1 none) := Plain_rep

theorem foldCase_digit {c : Char} (h : isDigit c = true) : foldCase c = c := by
  have hall : ∀ z ∈ decimalZeros, ∀ i < 10, foldCase (Char.ofNat (z + i)) = Char.ofNat (z + i) := by
    decide
  obtain ⟨z, hz, i, hi, rfl, -⟩ := digitValue_spec h
  exact hall z hz i hi

theorem exists_of_mem_forall₂ {R : Char → Char → Prop} {l l' : List Char} (h : List.Forall₂ R l l')
    {c : Char} (hc : c ∈ l') : ∃ a ∈ l, R a c := by
  induction h with
  | nil => cases hc
  | @cons a d _ _ had _ ih =>
    rcases List.mem_cons.1 hc with rfl | hc
    · exact ⟨a, List.mem_cons_self, had⟩
    · obtain ⟨x, hx, hxc⟩ := ih hc
      exact ⟨x, List.mem_cons_of_mem _ hx, hxc⟩

theorem SameWord.letter {s : String} {w : List Char} (h : SameWord s w) {c : Char} (hc : c ∈ w) :
    ∃ a ∈ s.toList, foldCase c = foldCase a := by
  obtain ⟨a, ha, hac⟩ := exists_of_mem_forall₂ h hc
  exact ⟨a, ha, beq_iff_eq.1 hac⟩

/-- A word without digits has none in any case. -/
theorem SameWord.no_digit {s : String} {w : List Char} (h : SameWord s w)
    (hs : ∀ a ∈ s.toList, isDigit (foldCase a) = false) : ∀ c ∈ w, isDigit c = false := by
  intro c hc
  obtain ⟨a, ha, hfold⟩ := h.letter hc
  by_contra hd
  rw [Bool.not_eq_false] at hd
  rw [foldCase_digit hd] at hfold
  rw [hfold, hs a ha] at hd
  cases hd

/-! ## What captured phrases name -/

/-- The phrase names a Knesset by its number. -/
def NamesNumber (phrase : List Char) (n : ℕ) : Prop :=
  (∃ ds, HeKnesset phrase ds ∧ decimalValue ds = n) ∨
    ∃ ds suffix knesset, EnKnesset phrase ds suffix knesset ∧ decimalValue ds = n

/-- **The normalizer reads the number that a phrase names.** -/
structure PhraseLaw (U : Unicode) (ref : CivilDate) (phrase : String) : Prop where
  year : ∀ y, 1900 ≤ y → y ≤ 2099 → Run isDigit 4 (some 4) phrase.toList →
    decimalValue phrase.toList = y → normalizeTimeScope U ref (some phrase) = yearBounds y
  term : ∀ n, 1 ≤ n → n ≤ 25 → NamesNumber phrase.toList n →
    termScope n = some (normalizeTimeScope U ref (some phrase))

/-- A suffix and a word as the normalizer spells them. -/
def Lower (suffix knesset : List Char) : Prop :=
  (∃ s ∈ ["st", "nd", "rd", "th"], suffix = s.toList) ∧
    (knesset = "Knesset".toList ∨ knesset = "knesset".toList)

/-- A phrase in the spelling the normalizer knows: years begin with the ASCII digits `19` or `20`, Hebrew
Knesset numbers have two digits at most, English ones a lower-case suffix and the word `Knesset` in
lower case but for its first letter. -/
structure Canonical (phrase : List Char) : Prop where
  year : Run isDigit 4 (some 4) phrase → 1900 ≤ decimalValue phrase → decimalValue phrase ≤ 2099 →
    YearDigits phrase
  hebrew : ∀ ds, HeKnesset phrase ds → 1 ≤ decimalValue ds → decimalValue ds ≤ 25 → ds.length ≤ 2
  english : ∀ ds suffix knesset, EnKnesset phrase ds suffix knesset → 1 ≤ decimalValue ds →
    decimalValue ds ≤ 25 → Lower suffix knesset

theorem termScope_isSome : ∀ n ≤ 25, 1 ≤ n → (termScope n).isSome := by decide +kernel

/-- A text with nothing to strip. -/
theorem strip_eq_self {s : String} (h : Fenced isSpace s.toList) (h' : Fenced isSpace s.toList.reverse) :
    strip s = s := by
  have hdrop : ∀ {l : List Char}, Fenced isSpace l → l.dropWhile isSpace = l := by
    intro l hl
    cases l with
    | nil => rfl
    | cons c l => exact List.dropWhile_cons_of_neg (by rw [hl c rfl]; exact Bool.false_ne_true)
  unfold strip
  rw [hdrop h, hdrop h', List.reverse_reverse, String.ofList_toList]

theorem phraseText_eq (h : Fenced isSpace phrase.toList) (h' : Fenced isSpace phrase.toList.reverse) :
    phraseText (some phrase) = phrase.toList := congrArg String.toList (strip_eq_self h h')

theorem fenced_of_all {p : Char → Bool} {l : List Char} (h : ∀ c ∈ l, p c = false) : Fenced p l :=
  fun c hc => h c (List.mem_of_head? hc)

/-! ## Years -/

theorem needs_space {l : List (Re TimeGroup)} (h : ws ∈ l) :
    (cat l).Needs fun c => isSpace c = true :=
  Needs_cat.2 ⟨ws, h, Nat.one_pos, fun _ hc => hc⟩

theorem needs_char {a : Char} {s : String} (h : a ∈ s.toList) : (word s).Needs fun c => c = a :=
  Needs_lit.2 ⟨a, h, fun c hc => (charEq_iff a c).1 hc⟩

/-- Digits alone are one run. -/
theorem DigitRun.eq_of_all {text ds : List Char} (h : DigitRun text ds)
    (hall : ∀ c ∈ text, isDigit c = true) : ds = text := by
  obtain ⟨u, v, htext, hne, hds, hu, hv⟩ := h
  obtain ⟨rfl, hw⟩ := block_start (a := []) (fun c hc => absurd hc List.not_mem_nil) hall hne hds hu
    htext
  cases v with
  | nil => rw [hw, List.append_nil]
  | cons c v =>
    have hc := hall c (by rw [htext]; simp)
    rw [hv c rfl] at hc
    cases hc

/-- **A year of four digits** is read when the first two are ASCII. -/
theorem year_read_iff (h : Run isDigit 4 (some 4) phrase.toList) :
    normalizeTimeScope U ref (some phrase) = yearBounds (decimalValue phrase.toList) ↔
      YearDigits phrase.toList := by
  have hspace : ∀ c ∈ phrase.toList, isSpace c = false := fun c hc => (isDigit_plain (h.1 c hc)).1
  have htext : phraseText (some phrase) = phrase.toList :=
    phraseText_eq (fenced_of_all hspace) (fenced_of_all fun c hc => hspace c (List.mem_reverse.1 hc))
  rw [normalizeTimeScope_eq, htext]
  generalize phrase.toList = text at h hspace
  have hnone : ∀ {l : List (Re TimeGroup)}, ws ∈ l → (cat l).search text = none := fun hws =>
    search_eq_none_of_needs (needs_space hws) fun c hc => by
      rw [hspace c hc]
      exact Bool.false_ne_true
  have hyear : ¬HasLastYear U text := by
    have hhe : heLastYear.search text = none := hnone (by simp)
    have hen : (enLastYear U).search text = none := hnone (by simp)
    unfold HasLastYear
    rw [hhe, hen]
    simp
  constructor
  · intro hread
    obtain ⟨m, hm, -⟩ := year_reading hyear hread
    obtain ⟨ds, hrun, hds, -⟩ := yearPattern_reading hm
    rwa [hrun.eq_of_all h.1] at hds
  · intro hds
    have habs : NoAbsolute text := by
      refine ⟨matchAt_eq_none (q := fun c => c = '-') ?_ ?_, hnone (by simp), ?_, ?_⟩
      · exact Needs_cat.2 ⟨word "-", List.mem_cons_of_mem _ List.mem_cons_self,
          needs_char (by decide)⟩
      · exact fun c hc => (isDigit_plain (h.1 c hc)).2.2.1
      · have hsearch : heTerm.search text = none := by
          refine search_eq_none_of_needs (q := fun c => c = 'כ')
            (Needs_cat.2 ⟨_, List.mem_cons_self, needs_char (by decide)⟩) fun c hc => ?_
          rintro rfl
          have hdigit := h.1 _ hc
          revert hdigit
          decide
        unfold heTermScope
        rw [hsearch]
        rfl
      · have hsearch : enTerm.search text = none := hnone (by simp)
        unfold enTermScope
        rw [hsearch]
        rfl
    have hterm : ¬HasLastTerm U text := by
      have hhe : heLastTerm.search text = none := hnone (by simp)
      have hen : (enLastTerm U).search text = none := hnone (by simp)
      unfold HasLastTerm
      rw [hhe, hen]
      simp
    have hmatch : yearPattern.Matches (fun _ => none) [] text [] (Function.update (fun _ => none) .y
        (some text)) :=
      Matches_cat_cons.2 ⟨[], text, _, rfl, ⟨rfl, rfl, rfl⟩,
        plain_yearDigits.group_iff.2 ⟨text, [], (List.append_nil _).symm, hds, rfl, rfl, rfl⟩⟩
    obtain ⟨m, hm⟩ := exists_search (u := []) (List.append_nil text).symm hmatch
    obtain ⟨ds, hrun, -, hvalue⟩ := yearPattern_reading hm
    rw [scopeOfText_year habs hyear hterm hm, hvalue, hrun.eq_of_all h.1]

/-! ## The letters of a phrase -/

theorem foldCase_space {c : Char} (h : isSpace c = true) : foldCase c = c := by
  have hlower : c.toLower = c := by
    unfold Char.toLower
    rw [dif_neg]
    rintro ⟨hlo, hhi⟩
    have hlo' : 65 ≤ c.toNat := hlo
    have hhi' : c.toNat ≤ 90 := hhi
    unfold isSpace at h
    simp only [Bool.or_eq_true, Bool.and_eq_true, decide_eq_true_iff, beq_iff_eq] at h
    omega
  have hne : c ≠ 'İ' ∧ c ≠ 'ı' ∧ c ≠ 'ſ' ∧ c.toNat ≠ 0x212A := by
    refine ⟨?_, ?_, ?_, fun hk => ?_⟩
    · rintro rfl
      exact absurd h (by decide)
    · rintro rfl
      exact absurd h (by decide)
    · rintro rfl
      exact absurd h (by decide)
    · unfold isSpace at h
      rw [hk] at h
      exact absurd h (by decide)
  unfold foldCase
  rw [if_neg (by rintro (h | h); exacts [hne.1 h, hne.2.1 h]), if_neg hne.2.2.1, if_neg hne.2.2.2,
    hlower]

/-- A space, a digit, or one of given letters in whatever case. -/
def Spelled (letters : List Char) (c : Char) : Prop :=
  isSpace c = true ∨ isDigit c = true ∨ foldCase c ∈ letters

/-- **An expression with other letters** finds nothing. -/
theorem search_spelled {letters o : List Char} {r : Re TimeGroup}
    (hr : r.Needs fun c => foldCase c ∈ o)
    (hothers : ∀ x ∈ o, isSpace x = false ∧ isDigit x = false ∧ x ∉ letters)
    (h : ∀ c ∈ text, Spelled letters c) : r.search text = none := by
  refine search_eq_none_of_needs hr fun c hc hmem => ?_
  obtain ⟨hspace, hdigit, hnot⟩ := hothers _ hmem
  rcases h c hc with hs | hd | hl
  · rw [foldCase_space hs, hs] at hspace
    cases hspace
  · rw [foldCase_digit hd, hd] at hdigit
    cases hdigit
  · exact hnot hl

theorem needs_letter {a x : Char} {s : String} (ha : a ∈ s.toList) (hx : foldCase a = x) :
    (word s).Needs fun c => foldCase c ∈ [x] :=
  Needs_lit.2 ⟨a, ha, fun c hc => by rw [(charEq_iff a c).1 hc, hx]; exact List.mem_singleton_self x⟩

theorem no_lastTerm {letters : List Char} (hq : 'ק' ∉ letters) (hl : 'l' ∉ letters)
    (h : ∀ c ∈ text, Spelled letters c) : ¬HasLastTerm U text := by
  have hhe : heLastTerm.search text = none := by
    refine search_spelled (o := ['ק']) (Needs_cat.2 ⟨word "קדנציה", by simp, ?_⟩) ?_ h
    · exact needs_letter (a := 'ק') (by decide) rfl
    · intro x hx
      obtain rfl := List.mem_singleton.1 hx
      exact ⟨by decide, by decide, hq⟩
  have hen : (enLastTerm U).search text = none := by
    refine search_spelled (o := ['l']) (Needs_cat.2 ⟨lit (charEq true) "last", by simp, ?_⟩) ?_ h
    · exact Needs_lit.2 ⟨'l', by decide, fun c hc => List.mem_singleton.2 (beq_iff_eq.1 hc)⟩
    · intro x hx
      obtain rfl := List.mem_singleton.1 hx
      exact ⟨by decide, by decide, hl⟩
  unfold HasLastTerm
  rw [hhe, hen]
  simp

/-- The letters that some month name has and `כנסת` does not. -/
def monthLetters : List Char := ['י', 'פ', 'מ', 'א', 'ו', 'ד']

theorem no_month {letters : List Char} (hm : ∀ x ∈ monthLetters, x ∉ letters)
    (h : ∀ c ∈ text, Spelled letters c) : heMonth.search text = none := by
  have hnames : ∀ s ∈ heMonths, ∃ a ∈ s.toList, foldCase a ∈ monthLetters := by decide
  have hplain : ∀ x ∈ monthLetters, isSpace x = false ∧ isDigit x = false := by decide
  refine search_spelled (o := monthLetters) (Needs_cat.2 ⟨_, List.mem_cons_self, ?_⟩)
    (fun x hx => ⟨(hplain x hx).1, (hplain x hx).2, hm x hx⟩) h
  refine Needs_any.2 fun r hr => ?_
  obtain ⟨s, hs, rfl⟩ := List.mem_map.1 hr
  obtain ⟨a, ha, hfold⟩ := hnames s hs
  exact Needs_lit.2 ⟨a, ha, fun c hc => by rwa [(charEq_iff a c).1 hc]⟩

/-- A text that does not begin with a digit is no date. -/
theorem no_date (h : Fenced isDigit text) : isoDate.matchAt [] text = none := by
  by_contra hne
  obtain ⟨m, hm⟩ := Option.ne_none_iff_exists'.1 hne
  obtain ⟨y, mo, d, hshape, -⟩ := isoDate_reading hm
  obtain ⟨c, y, rfl⟩ := List.exists_cons_of_ne_nil (ne_nil_of_run hshape.year (by decide))
  have hc := hshape.year.1 c List.mem_cons_self
  have hhead : text.head? = some c := by
    rcases hshape.text_eq with rfl | rfl <;> rfl
  rw [h c hhead] at hc
  cases hc

/-! ## Hebrew numbers -/

section Hebrew

variable {ds : List Char}

/-- The letters of a Hebrew Knesset phrase. -/
def heLetters : List Char := ['כ', 'נ', 'ס', 'ת', 'ה', '-']

/-- A Hebrew Knesset phrase: no digits, then the number, of which the pattern takes any two digits. -/
structure HeParts (text front ds : List Char) : Prop where
  text_eq : text = front ++ ds
  plain : ∀ c ∈ front, isDigit c = false
  head : front.head? = some 'כ'
  number : Run isDigit 1 none ds
  spelled : ∀ c ∈ text, Spelled heLetters c
  reads : ∀ es rest, Run isDigit 1 (some 2) es → heTerm.Matches (fun _ => none) [] (front ++ es) rest
    (Function.update (fun _ => none) .n (some es))

theorem HeKnesset.parts (h : HeKnesset text ds) : ∃ front, HeParts text front ds := by
  obtain ⟨s, hyphen, rfl, hs, hhyphen, hds⟩ := h
  have hletters : ∀ c ∈ "כנסת".toList ++ ("ה".toList ++ "-".toList),
      isDigit c = false ∧ foldCase c ∈ heLetters := by decide
  have hfront : ∀ c ∈ "כנסת".toList ++ (s ++ ("ה".toList ++ hyphen)),
      isDigit c = false ∧ Spelled heLetters c := by
    intro c hc
    rcases List.mem_append.1 hc with hc | hc
    · exact (hletters c (List.mem_append_left _ hc)).imp_right fun h => Or.inr (Or.inr h)
    rcases List.mem_append.1 hc with hc | hc
    · exact ⟨isSpace_not_digit (hs.1 c hc), Or.inl (hs.1 c hc)⟩
    refine (hletters c ?_).imp_right fun h => Or.inr (Or.inr h)
    rcases hhyphen with rfl | rfl
    · exact List.mem_append_right _ hc
    · rw [List.append_nil] at hc
      exact List.mem_append_right _ (List.mem_append_left _ hc)
  refine ⟨"כנסת".toList ++ (s ++ ("ה".toList ++ hyphen)), by simp only [List.append_assoc],
    fun c hc => (hfront c hc).1, rfl, hds, fun c hc => ?_, fun es rest hes => ?_⟩
  · rw [← List.append_assoc, ← List.append_assoc, ← List.append_assoc, List.mem_append] at hc
    rcases hc with hc | hc
    · exact (hfront c (by simpa only [List.append_assoc] using hc)).2
    · exact Or.inr (Or.inl (hds.1 c hc))
  · have hopt : (opt (cat [ws, word "ה", opt (word "-")])).Plain fun w =>
        (∃ u v, w = u ++ v ∧ Run isSpace 1 none u ∧
          ∃ u' v', v = u' ++ v' ∧ u' = "ה".toList ∧ (v' = "-".toList ∨ v' = [])) ∨ w = [] :=
      (plain_ws.seq ((plain_word "ה").seq (plain_word "-").opt)).opt
    refine (plain_word "כנסת").cat_iff.2 ⟨_, _, List.append_assoc .., rfl, ?_⟩
    refine hopt.cat_iff.2 ⟨_, es, rfl, Or.inl ⟨s, _, rfl, hs, _, hyphen, rfl, rfl, hhyphen⟩, ?_⟩
    exact Plain_rep.cat_iff.2 ⟨[], es, rfl, Run.nil, ⟨_, ⟨hes, rfl⟩, rfl⟩⟩

/-- **A Hebrew Knesset number** is read when it has two digits at most. -/
theorem hebrew_read_iff (h : HeKnesset phrase.toList ds) (hlo : 1 ≤ decimalValue ds)
    (hhi : decimalValue ds ≤ 25) : termScope (decimalValue ds) =
      some (normalizeTimeScope U ref (some phrase)) ↔ ds.length ≤ 2 := by
  obtain ⟨front, hparts⟩ := h.parts
  have hends : Fenced isSpace phrase.toList ∧ Fenced isSpace phrase.toList.reverse := by
    rw [hparts.text_eq]
    obtain ⟨ds, d, rfl⟩ :=
      (List.eq_nil_or_concat ds).resolve_left (ne_nil_of_run hparts.number (by decide))
    refine ⟨fun c hc => ?_, fun c hc => ?_⟩
    · rw [List.head?_append, hparts.head] at hc
      obtain rfl := Option.some.inj hc
      decide
    · rw [List.concat_eq_append, List.reverse_append, List.reverse_append] at hc
      obtain rfl := Option.some.inj hc
      exact (isDigit_plain (hparts.number.1 _ (by simp))).1
  rw [normalizeTimeScope_eq, phraseText_eq hends.1 hends.2]
  generalize phrase.toList = text at hparts
  -- the number is read from the front of the digits
  have hread : ∃ m es rest, heTerm.search text = some m ∧ ds = es ++ rest ∧ es.length ≤ 2 ∧
      (es.length = 2 ∨ rest = []) ∧ groupNat m .n = decimalValue es := by
    have htake : Run isDigit 1 (some 2) (ds.take 2) := by
      have hlen := hparts.number.2.1
      refine ⟨fun c hc => hparts.number.1 c (List.mem_of_mem_take hc), ?_, fun n hn => ?_⟩
      · rw [List.length_take]
        omega
      · obtain rfl := Option.some.inj hn
        exact List.length_take_le 2 ds
    obtain ⟨m, hm⟩ := exists_search (s := text) (u := []) (v := ds.drop 2)
      (by rw [hparts.text_eq]; simp) (hparts.reads (ds.take 2) (ds.drop 2) htake)
    obtain ⟨u, es, v, htext, hes, hu, hend, hn, -⟩ := heTerm_reading hm
    rw [hparts.text_eq] at htext
    obtain ⟨-, rfl⟩ := block_start hparts.plain hparts.number.1 (ne_nil_of_run hes (by decide)) hes.1
      hu htext
    refine ⟨m, es, v, hm, rfl, hes.2.2 2 rfl, hend.imp_right fun hv => ?_, hn⟩
    by_contra hne
    obtain ⟨c, v, rfl⟩ := List.exists_cons_of_ne_nil hne
    have hc := hparts.number.1 c (by simp)
    rw [hv c rfl] at hc
    cases hc
  obtain ⟨m, es, rest, hm, rfl, hlen, hend, hn⟩ := hread
  constructor
  · intro hscope
    rcases term_reading hscope with ⟨m', hm', hn'⟩ | ⟨m', hm', -⟩ | hcue
    · obtain rfl : m = m' := Option.some.inj (hm.symm.trans hm')
      rcases hend with hend | rfl
      · -- two digits stand for less than they do with more digits behind them
        by_contra hlong
        have hpow : 10 ^ 1 ≤ 10 ^ rest.length := by
          refine Nat.pow_le_pow_right (by decide) ?_
          rw [List.length_append] at hlong
          omega
        have hval := decimalValue_append es rest
        rw [← hn, hn'] at hval
        have hmul := Nat.mul_le_mul_left (decimalValue (es ++ rest)) hpow
        omega
      · rwa [List.append_nil]
    · rw [search_spelled (o := ['e']) ?_ ?_ hparts.spelled] at hm'
      · cases hm'
      · exact Needs_cat.2 ⟨word "nesset", by simp, needs_letter (a := 'e') (by decide) rfl⟩
      · decide
    · exact absurd hcue (no_lastTerm (by decide) (by decide) hparts.spelled)
  · intro hshort
    obtain rfl : rest = [] := by
      rcases hend with hend | hend
      · rw [List.length_append] at hshort
        exact List.length_eq_zero_iff.1 (by omega)
      · exact hend
    rw [List.append_nil] at hlo hhi hparts ⊢
    obtain ⟨scope, hscope⟩ := Option.isSome_iff_exists.1 (termScope_isSome _ hhi hlo)
    have hdate : isoDate.matchAt [] text = none := by
      refine no_date fun c hc => ?_
      rw [hparts.text_eq, List.head?_append, hparts.head] at hc
      obtain rfl := Option.some.inj hc
      decide
    rw [scopeOfText_heTerm hdate (no_month (by decide) hparts.spelled) hm (hn ▸ hscope), hscope]

end Hebrew

/-! ## English numbers -/

section English

variable {ds suffix knesset : List Char}

theorem SameWord.no_space {s : String} {w : List Char} (h : SameWord s w)
    (hs : ∀ a ∈ s.toList, isSpace (foldCase a) = false) : ∀ c ∈ w, isSpace c = false := by
  intro c hc
  obtain ⟨a, ha, hfold⟩ := h.letter hc
  by_contra hspace
  rw [Bool.not_eq_false] at hspace
  rw [foldCase_space hspace] at hfold
  rw [hfold, hs a ha] at hspace
  cases hspace

theorem SameWord.length_eq {s : String} {w : List Char} (h : SameWord s w) :
    w.length = s.toList.length := (List.Forall₂.length_eq h).symm

/-- The letters of an English Knesset phrase. -/
def enLetters : List Char := ['t', 'h', 'e', 's', 'n', 'd', 'r', 'k']

theorem SameWord.spelled {s : String} {w : List Char} (h : SameWord s w)
    (hs : ∀ a ∈ s.toList, foldCase a ∈ enLetters) : ∀ c ∈ w, Spelled enLetters c := by
  intro c hc
  obtain ⟨a, ha, hfold⟩ := h.letter hc
  exact Or.inr (Or.inr (hfold ▸ hs a ha))

/-- The ordinal suffixes: two letters each. -/
theorem ordinal_letters : ∀ s ∈ ["st", "nd", "rd", "th"], s.toList.length = 2 ∧
    ∀ a ∈ s.toList, isDigit (foldCase a) = false ∧ isSpace (foldCase a) = false ∧
      foldCase a ∈ enLetters := by decide

/-- Two texts of spaces, each before a text that begins with none. -/
theorem spaces_inj {s s' r r' : List Char} (hs : ∀ c ∈ s, isSpace c = true)
    (hs' : ∀ c ∈ s', isSpace c = true) (hr : Fenced isSpace r) (hr' : Fenced isSpace r')
    (h : s ++ r = s' ++ r') : s = s' ∧ r = r' := by
  have htake : ∀ {s r : List Char}, (∀ c ∈ s, isSpace c = true) → Fenced isSpace r →
      (s ++ r).takeWhile isSpace = s := by
    intro s r hs hr
    rw [List.takeWhile_append_of_pos hs, takeWhile_of_fenced hr, List.append_nil]
  have heq : s = s' := by rw [← htake hs hr, h, htake hs' hr']
  subst heq
  exact ⟨rfl, List.append_cancel_left h⟩

/-- What the pattern finds behind the number is the spelling it knows. -/
theorem lower_of_tail {tail v s : List Char} (htail : EnTermTail tail)
    (hsuffix : ∃ s ∈ ["st", "nd", "rd", "th"], SameWord s suffix) (hs : Run isSpace 1 none s)
    (hkn : SameWord "Knesset" knesset) (heq : tail ++ v = suffix ++ (s ++ knesset)) :
    Lower suffix knesset := by
  obtain ⟨ordinal, hordinal, hsame⟩ := hsuffix
  obtain ⟨hlen, hletters⟩ := ordinal_letters ordinal hordinal
  have hlen2 : suffix.length = 2 := hsame.length_eq.trans hlen
  have hspace : ∀ c ∈ suffix, isSpace c = false := hsame.no_space fun a ha => (hletters a ha).2.1
  have hknspace : ∀ c ∈ knesset, isSpace c = false := hkn.no_space (by decide)
  obtain ⟨suffix', rest, rfl, hsuffix', s', kn, rfl, hs', k, nesset, rfl, ⟨c, hc, rfl⟩, rfl⟩ := htail
  rcases hsuffix' with ⟨x, hx, rfl⟩ | rfl
  · rw [List.append_assoc] at heq
    obtain ⟨hxs, hrest⟩ := List.append_inj heq (((ordinal_letters x hx).1).trans hlen2.symm)
    rw [List.append_assoc] at hrest
    have hkspace : Fenced isSpace ([c] ++ "nesset".toList ++ v) := by
      intro d hd
      obtain rfl := Option.some.inj hd
      rcases Bool.or_eq_true_iff.1 hc with hc | hc
      · rw [beq_iff_eq.1 hc]
        decide
      · rw [beq_iff_eq.1 hc]
        decide
    obtain ⟨-, hword⟩ := spaces_inj hs'.1 hs.1 hkspace (fenced_of_all hknspace) hrest
    have hknlen := hkn.length_eq
    have hv : v = [] := by
      rw [← hword] at hknlen
      simp only [List.length_append, List.length_singleton] at hknlen
      have hseven : "Knesset".toList.length = 7 := by decide
      have hsix : "nesset".toList.length = 6 := by decide
      exact List.length_eq_zero_iff.1 (by omega)
    subst hv
    refine ⟨⟨x, hx, hxs.symm⟩, ?_⟩
    rw [List.append_nil] at hword
    rcases Bool.or_eq_true_iff.1 hc with hc | hc
    · left
      rw [← hword, beq_iff_eq.1 hc]
      rfl
    · right
      rw [← hword, beq_iff_eq.1 hc]
      rfl
  · -- a space where the suffix stands
    exfalso
    obtain ⟨d, s', rfl⟩ := List.exists_cons_of_ne_nil (ne_nil_of_run hs' (by decide))
    obtain ⟨e, suffix, rfl⟩ := List.exists_cons_of_length_eq_add_one hlen2
    have hde : d = e := (List.cons.inj heq).1
    have hd := hs'.1 d List.mem_cons_self
    rw [hde, hspace e List.mem_cons_self] at hd
    cases hd

/-- An English Knesset phrase: the number, and no digits around it. -/
structure EnParts (text front ds back : List Char) : Prop where
  text_eq : text = front ++ (ds ++ back)
  plain : ∀ c ∈ front, isDigit c = false
  plain_back : ∀ c ∈ back, isDigit c = false
  number : Run isDigit 1 none ds
  spelled : ∀ c ∈ text, Spelled enLetters c
  head : Fenced isDigit text
  ends : Fenced isSpace text ∧ Fenced isSpace text.reverse

theorem EnKnesset.parts (h : EnKnesset text ds suffix knesset) : ∃ front s,
    EnParts text front ds (suffix ++ (s ++ knesset)) ∧ Run isSpace 1 none s := by
  obtain ⟨the, s, s', rfl, hthe, hs, hs'⟩ := h.text_eq
  obtain ⟨ordinal, hordinal, hsame⟩ := h.ordinal
  obtain ⟨-, hletters⟩ := ordinal_letters ordinal hordinal
  have hback : ∀ c ∈ suffix ++ (s' ++ knesset), isDigit c = false ∧ Spelled enLetters c := by
    intro c hc
    rcases List.mem_append.1 hc with hc | hc
    · exact ⟨hsame.no_digit (fun a ha => (hletters a ha).1) c hc,
        hsame.spelled (fun a ha => (hletters a ha).2.2) c hc⟩
    rcases List.mem_append.1 hc with hc | hc
    · exact ⟨isSpace_not_digit (hs'.1 c hc), Or.inl (hs'.1 c hc)⟩
    · exact ⟨h.word.no_digit (by decide) c hc, h.word.spelled (by decide) c hc⟩
  have hfront : ∀ c ∈ the ++ s, isDigit c = false ∧ Spelled enLetters c := by
    intro c hc
    rcases List.mem_append.1 hc with hc | hc
    · exact ⟨hthe.no_digit (by decide) c hc, hthe.spelled (by decide) c hc⟩
    · exact ⟨isSpace_not_digit (hs.1 c hc), Or.inl (hs.1 c hc)⟩
  obtain ⟨t, the, rfl⟩ := List.exists_cons_of_length_eq_add_one (n := 2) hthe.length_eq
  obtain ⟨kn, last, rfl⟩ := (List.eq_nil_or_concat knesset).resolve_left (by
    rintro rfl
    cases h.word.length_eq)
  refine ⟨t :: the ++ s, s', ⟨by simp, fun c hc => (hfront c hc).1, fun c hc => (hback c hc).1,
    h.number, fun c hc => ?_, fun c hc => ?_, fun c hc => ?_, fun c hc => ?_⟩, hs'⟩
  · rw [← List.append_assoc, List.mem_append] at hc
    rcases hc with hc | hc
    · exact (hfront c hc).2
    rcases List.mem_append.1 hc with hc | hc
    · exact Or.inr (Or.inl (h.number.1 c hc))
    · exact (hback c hc).2
  · obtain rfl := Option.some.inj hc
    exact hthe.no_digit (by decide) _ List.mem_cons_self
  · obtain rfl := Option.some.inj hc
    exact hthe.no_space (by decide) _ List.mem_cons_self
  · simp only [List.concat_eq_append, List.reverse_append, List.reverse_singleton,
      List.append_assoc] at hc
    obtain rfl := Option.some.inj hc
    exact h.word.no_space (by decide) _ (by simp)

/-- The English pattern reads the number of the phrase, and it knows the spelling. -/
theorem enTerm_number {m : Match TimeGroup} (h : EnKnesset text ds suffix knesset)
    (hhi : decimalValue ds ≤ 25) (hm : enTerm.search text = some m) :
    groupNat m .n = decimalValue ds ∧ Lower suffix knesset := by
  obtain ⟨front, s, hparts, hs⟩ := h.parts
  obtain ⟨u, es, tail, v, htext, hes, hfirst, htail, hn, -⟩ := enTerm_reading hm
  rw [hparts.text_eq] at htext
  obtain ⟨hback, x, rfl, rfl⟩ := block_end hparts.plain hparts.number.1 hparts.plain_back
    (ne_nil_of_run hes (by decide)) hes.1 htail.fenced htext
  refine ⟨?_, lower_of_tail htail h.ordinal hs h.word hback⟩
  rw [hn, decimalValue_append]
  rcases hfirst with hlen | hfence
  · -- digits before the last two are zeros
    rw [decimalValue_append, hlen] at hhi
    have hzero : decimalValue x = 0 := by omega
    rw [hzero, Nat.zero_mul, Nat.zero_add]
  · rcases List.eq_nil_or_concat x with rfl | ⟨x, c, rfl⟩
    · have hnil : decimalValue [] = 0 := rfl
      rw [hnil, Nat.zero_mul, Nat.zero_add]
    · have hc := hparts.number.1 c (by simp)
      rw [hfence c (by simp)] at hc
      cases hc

/-- **An English Knesset number** is read when its suffix and its word are in the known spelling. -/
theorem english_read_iff (h : EnKnesset phrase.toList ds suffix knesset) (hlo : 1 ≤ decimalValue ds)
    (hhi : decimalValue ds ≤ 25) : termScope (decimalValue ds) =
      some (normalizeTimeScope U ref (some phrase)) ↔ Lower suffix knesset := by
  obtain ⟨front, s, hparts, hs⟩ := h.parts
  rw [normalizeTimeScope_eq, phraseText_eq hparts.ends.1 hparts.ends.2]
  generalize phrase.toList = text at h hparts
  have hhe : heTerm.search text = none := by
    refine search_spelled (o := ['כ']) ?_ (by decide) hparts.spelled
    exact Needs_cat.2 ⟨word "כנסת", List.mem_cons_self, needs_letter (a := 'כ') (by decide) rfl⟩
  constructor
  · intro hscope
    rcases term_reading hscope with ⟨m, hm, -⟩ | ⟨m, hm, -⟩ | hcue
    · rw [hhe] at hm
      cases hm
    · exact (enTerm_number h hhi hm).2
    · exact absurd hcue (no_lastTerm (by decide) (by decide) hparts.spelled)
  · rintro ⟨hsuffix, hkn⟩
    -- the last two digits, or the only one
    have hlast : Run isDigit 1 (some 2) (ds.drop (ds.length - 2)) := by
      have hlen := hparts.number.2.1
      refine ⟨fun c hc => hparts.number.1 c (List.mem_of_mem_drop hc), ?_, fun n hn => ?_⟩
      · rw [List.length_drop]
        omega
      · obtain rfl := Option.some.inj hn
        rw [List.length_drop]
        omega
    have htail : EnTermTail (suffix ++ (s ++ knesset)) := by
      refine ⟨suffix, _, rfl, Or.inl hsuffix, s, knesset, rfl, hs, ?_⟩
      rcases hkn with rfl | rfl
      · exact ⟨['K'], _, rfl, ⟨'K', rfl, rfl⟩, rfl⟩
      · exact ⟨['k'], _, rfl, ⟨'k', rfl, rfl⟩, rfl⟩
    have hmatch : enTerm.Matches (fun _ => none) (front ++ ds.take (ds.length - 2)).reverse
        (ds.drop (ds.length - 2) ++ (suffix ++ (s ++ knesset))) []
        (Function.update (fun _ => none) .n (some (ds.drop (ds.length - 2)))) :=
      Matches_cat_cons.2 ⟨_, _, _, rfl, ⟨_, ⟨hlast, rfl⟩, rfl⟩,
        (plain_enTermTail ..).2 ⟨htail, rfl⟩⟩
    obtain ⟨m, hm⟩ := exists_search (s := text) (by
      rw [hparts.text_eq, List.append_nil, List.append_assoc, ← List.append_assoc (ds.take _),
        List.take_append_drop]) hmatch
    obtain ⟨scope, hscope⟩ := Option.isSome_iff_exists.1 (termScope_isSome _ hhi hlo)
    have hnone : heTermScope text = none := by
      unfold heTermScope
      rw [hhe]
      rfl
    rw [scopeOfText_enTerm (no_date hparts.head) (no_month (by decide) hparts.spelled) hnone hm
      ((enTerm_number h hhi hm).1 ▸ hscope), hscope]

end English

/-! ## All captured phrases -/

/-- **When a phrase is read as what it names**: when it is in the normalizer's spelling. -/
theorem phrase_iff (U : Unicode) (ref : CivilDate) (phrase : String) :
    PhraseLaw U ref phrase ↔ Canonical phrase.toList := by
  constructor
  · intro hlaw
    refine ⟨fun h hlo hhi => ?_, fun ds h hlo hhi => ?_, fun ds suffix knesset h hlo hhi => ?_⟩
    · exact (year_read_iff h).1 (hlaw.year _ hlo hhi h rfl)
    · exact (hebrew_read_iff h hlo hhi).1 (hlaw.term _ hlo hhi (Or.inl ⟨ds, h, rfl⟩))
    · exact (english_read_iff h hlo hhi).1
        (hlaw.term _ hlo hhi (Or.inr ⟨ds, suffix, knesset, h, rfl⟩))
  · intro hcan
    refine ⟨?_, ?_⟩
    · rintro y hlo hhi h rfl
      exact (year_read_iff h).2 (hcan.year h hlo hhi)
    · rintro n hlo hhi (⟨ds, h, rfl⟩ | ⟨ds, suffix, knesset, h, rfl⟩)
      · exact (hebrew_read_iff h hlo hhi).2 (hcan.hebrew ds h hlo hhi)
      · exact (english_read_iff h hlo hhi).2 (hcan.english ds suffix knesset h hlo hhi)

/-- The time phrases that the rules capture in a statement. -/
def Captured (statement : List Char) (language : Language) (phrase : String) : Prop :=
  ∃ rm ∈ iterMatches statement language, rm.groups .time = some phrase

/-- **When the rules and the normalizer speak the same language** about a statement: when all time phrases
the rules capture are in the normalizer's spelling. -/
theorem same_language_iff (U : Unicode) (ref : CivilDate) (statement : List Char)
    (language : Language) : (∀ phrase, Captured statement language phrase → PhraseLaw U ref phrase) ↔
      ∀ phrase, Captured statement language phrase → Canonical phrase.toList :=
  forall₂_congr fun phrase _ => phrase_iff U ref phrase

/-! ## Capitals -/

/-- **A suffix in capitals** is captured, and the term is not read. -/
theorem capitals_unread : ¬∀ phrase,
    Captured "Dana Levi voted for the budget bill in the 25TH Knesset".toList .en phrase →
      PhraseLaw asciiWords ⟨2024, 1, 1⟩ phrase := by
  intro hlaw
  have hcaptured : (iterMatches "Dana Levi voted for the budget bill in the 25TH Knesset".toList
      .en).any (fun rm => rm.groups .time == some "the 25TH Knesset") = true := by
    decide +kernel
  obtain ⟨rm, hrm, htime⟩ := List.any_eq_true.1 hcaptured
  have hnames : NamesNumber "the 25TH Knesset".toList 25 := by
    refine Or.inr ⟨"25".toList, "TH".toList, "Knesset".toList, ⟨by decide, ⟨"th", by decide, ?_⟩, ?_,
      "the".toList, " ".toList, " ".toList, by decide, ?_, by decide, by decide⟩, by decide⟩
    all_goals exact List.forall₂_iff_get.2 (by decide)
  have hread := (hlaw _ ⟨rm, hrm, beq_iff_eq.1 htime⟩).term 25 (by decide) (by decide) hnames
  revert hread
  decide +kernel

end CivicProof
