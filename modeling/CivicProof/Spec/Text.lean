import Mathlib.Algebra.Group.Nat.Defs
import Mathlib.Data.List.DropRight
import Mathlib.Data.List.Sort
import Mathlib.Data.Option.Basic

/-!
# Text primitives

The string operations of the host language the program relies on: whitespace and
decimal-digit classes, `strip`, `lower`, `int`, ordering and joining.

* `mem_strip`, `strip_strip`: what stripping keeps, and that once is enough.
* `decodeUtf8_ascii`: ASCII bytes stand for themselves.
-/

namespace CivicProof

/-! ## Texts are finite

What is said of the characters of a text is decided on the text, not on all characters that exist. -/

section

variable {p : Char → Prop} [DecidablePred p]

instance (priority := high) decidableForallText (l : List Char) : Decidable (∀ c ∈ l, p c) :=
  List.decidableBAll p l

instance (priority := high) decidableExistsText (l : List Char) : Decidable (∃ c ∈ l, p c) :=
  List.decidableBEx p l

instance (priority := high) decidableForallHead (o : Option Char) : Decidable (∀ c ∈ o, p c) :=
  decidable_of_iff (∀ c ∈ o.toList, p c) (by cases o <;> simp)

end

/-! ## Characters -/

/-- `str.isspace` of one character (the class `\s`). -/
def isSpace (c : Char) : Bool :=
  let n := c.toNat
  (0x9 ≤ n && n ≤ 0xD) || (0x1C ≤ n && n ≤ 0x20) || n == 0x85 || n == 0xA0 || n == 0x1680 ||
    (0x2000 ≤ n && n ≤ 0x200A) || n == 0x2028 || n == 0x2029 || n == 0x202F || n == 0x205F ||
    n == 0x3000

/-- The zero of each run of ten decimal digits (category `Nd`). -/
def decimalZeros : List ℕ :=
  [0x30, 0x660, 0x6f0, 0x7c0, 0x966, 0x9e6, 0xa66, 0xae6, 0xb66, 0xbe6, 0xc66, 0xce6, 0xd66,
    0xde6, 0xe50, 0xed0, 0xf20, 0x1040, 0x1090, 0x17e0, 0x1810, 0x1946, 0x19d0, 0x1a80, 0x1a90,
    0x1b50, 0x1bb0, 0x1c40, 0x1c50, 0xa620, 0xa8d0, 0xa900, 0xa9d0, 0xa9f0, 0xaa50, 0xabf0,
    0xff10, 0x104a0, 0x10d30, 0x11066, 0x110f0, 0x11136, 0x111d0, 0x112f0, 0x11450, 0x114d0,
    0x11650, 0x116c0, 0x11730, 0x118e0, 0x11950, 0x11c50, 0x11d50, 0x11da0, 0x11f50, 0x16a60,
    0x16ac0, 0x16b50, 0x1d7ce, 0x1d7d8, 0x1d7e2, 0x1d7ec, 0x1d7f6, 0x1e140, 0x1e2f0, 0x1e4f0,
    0x1e950, 0x1fbf0]

/-- The value of a decimal digit. -/
def digitValue (c : Char) : Option ℕ :=
  (decimalZeros.find? fun z => z ≤ c.toNat && c.toNat < z + 10).map (c.toNat - ·)

/-- The class `\d`. -/
def isDigit (c : Char) : Bool := (digitValue c).isSome

theorem digitValue_spec {c : Char} (h : isDigit c = true) :
    ∃ z ∈ decimalZeros, ∃ i < 10, c = Char.ofNat (z + i) ∧ digitValue c = some i := by
  unfold isDigit digitValue at h
  rw [Option.isSome_map, List.find?_isSome] at h
  obtain ⟨z, hz⟩ := Option.isSome_iff_exists.1 (List.find?_isSome.2 h)
  have hin := List.find?_some hz
  rw [Bool.and_eq_true, decide_eq_true_iff, decide_eq_true_iff] at hin
  refine ⟨z, List.mem_of_find?_eq_some hz, c.toNat - z, by omega, ?_, ?_⟩
  · rw [Nat.add_sub_cancel' hin.1, Char.ofNat_toNat]
  · unfold digitValue
    rw [hz]
    rfl

/-- A decimal digit is no white space, no sign and no underscore. -/
theorem isDigit_plain {c : Char} (h : isDigit c = true) :
    isSpace c = false ∧ c ≠ '_' ∧ c ≠ '-' ∧ c ≠ '+' := by
  have hall : ∀ z ∈ decimalZeros, ∀ i < 10, isSpace (Char.ofNat (z + i)) = false := by decide
  obtain ⟨z, hz, i, hi, hc, -⟩ := digitValue_spec h
  refine ⟨hc ▸ hall z hz i hi, ?_, ?_, ?_⟩
  all_goals
    rintro rfl
    revert h
    decide

/-- `str.strip()`. -/
def strip (s : String) : String :=
  String.ofList (((s.toList.dropWhile isSpace).reverse.dropWhile isSpace).reverse)

theorem strip_toList (s : String) :
    (strip s).toList = (s.toList.dropWhile isSpace).rdropWhile isSpace := by
  rw [strip, String.toList_ofList, List.rdropWhile]

theorem mem_of_mem_strip {s : String} {c : Char} (h : c ∈ (strip s).toList) : c ∈ s.toList := by
  rw [strip_toList] at h
  exact (List.dropWhile_suffix _).subset ((List.rdropWhile_prefix _ _).subset h)

theorem mem_dropWhile {p : Char → Bool} {l : List Char} {c : Char} (h : c ∈ l) (hc : p c = false) :
    c ∈ l.dropWhile p := by
  rw [← List.takeWhile_append_dropWhile (p := p) (l := l)] at h
  rcases List.mem_append.1 h with h | h
  · rw [List.mem_takeWhile_imp h] at hc
    cases hc
  · exact h

/-- A prefix of a text that begins with no white space begins with none. -/
theorem dropWhile_of_prefix {p : Char → Bool} {l r : List Char} (hr : r <+: l)
    (hl : l.dropWhile p = l) : r.dropWhile p = r := by
  obtain ⟨t, rfl⟩ := hr
  cases r with
  | nil => rfl
  | cons a r =>
    rw [List.cons_append, List.dropWhile_eq_self_iff] at hl
    exact List.dropWhile_cons_of_neg (hl (Nat.succ_pos _))

/-- Only white space goes. -/
theorem mem_strip {s : String} {c : Char} (h : c ∈ s.toList) (hc : isSpace c = false) :
    c ∈ (strip s).toList := by
  rw [strip_toList, List.rdropWhile, List.mem_reverse]
  exact mem_dropWhile (List.mem_reverse.2 (mem_dropWhile h hc)) hc

/-- Stripping twice is stripping once. -/
theorem strip_strip (s : String) : strip (strip s) = strip s := by
  have hfront := dropWhile_of_prefix (List.rdropWhile_prefix isSpace (s.toList.dropWhile isSpace))
    (List.dropWhile_idempotent isSpace s.toList)
  apply String.toList_inj.1
  rw [strip_toList, strip_toList, hfront, List.rdropWhile_idempotent]

/-- `str.lower()`, for comparison with the ASCII and Hebrew words of the program: among
their letters, only the ASCII ones have another case. -/
def lower (s : String) : String := String.ofList (s.toList.map Char.toLower)

/-- The digits of an `int` literal, single underscores between digits allowed;
`prev` tells whether a digit stands right before. -/
def digitsToNat : ℕ → Bool → List Char → Option ℕ
  | acc, prev, [] => if prev then some acc else none
  | acc, prev, c :: cs =>
    if c = '_' then (if prev then digitsToNat acc false cs else none)
    else match digitValue c with
      | some d => digitsToNat (acc * 10 + d) true cs
      | none => none

/-- The number that digits stand for, whatever their script. -/
def decimalValue (ds : List Char) : ℕ := ds.foldl (fun n c => n * 10 + (digitValue c).getD 0) 0

theorem digitsToNat_digits {ds : List Char} (h : ∀ c ∈ ds, isDigit c = true) (acc : ℕ) :
    digitsToNat acc true ds = some (ds.foldl (fun n c => n * 10 + (digitValue c).getD 0) acc) := by
  induction ds generalizing acc with
  | nil => rfl
  | cons c cs ih =>
    obtain ⟨i, hi⟩ := Option.isSome_iff_exists.1 (h c List.mem_cons_self)
    have hrest := ih (fun x hx => h x (List.mem_cons_of_mem _ hx)) (acc * 10 + i)
    rw [digitsToNat, if_neg (isDigit_plain (h c List.mem_cons_self)).2.1, List.foldl_cons]
    simp only [hi, hrest, Option.getD_some]

/-- A digit stands for less than ten. -/
theorem digitValue_lt (c : Char) : (digitValue c).getD 0 < 10 := by
  by_cases h : isDigit c = true
  · obtain ⟨-, -, i, hi, -, hval⟩ := digitValue_spec h
    rw [hval]
    exact hi
  · rw [Option.not_isSome_iff_eq_none.1 h]
    decide

/-- Digits stand for a number of as many digits at most. -/
theorem decimalValue_lt (ds : List Char) : decimalValue ds < 10 ^ ds.length := by
  have hfold : ∀ (ds : List Char) (a : ℕ),
      ds.foldl (fun n c => n * 10 + (digitValue c).getD 0) a < (a + 1) * 10 ^ ds.length := by
    intro ds
    induction ds with
    | nil =>
      intro a
      simp
    | cons c cs ih =>
      intro a
      have hc := digitValue_lt c
      rw [List.foldl_cons, List.length_cons, Nat.pow_succ']
      calc _ < (a * 10 + (digitValue c).getD 0 + 1) * 10 ^ cs.length := ih _
        _ ≤ (a + 1) * 10 * 10 ^ cs.length := Nat.mul_le_mul_right _ (by omega)
        _ = _ := Nat.mul_assoc ..
  have hds := hfold ds 0
  rwa [Nat.zero_add, Nat.one_mul] at hds

/-- `int(s)` of a string; `none` where it raises `ValueError`. -/
def parseInt (s : String) : Option ℤ :=
  match (strip s).toList with
  | '-' :: cs => (digitsToNat 0 false cs).map fun n => -(n : ℤ)
  | '+' :: cs => (digitsToNat 0 false cs).map Int.ofNat
  | cs => (digitsToNat 0 false cs).map Int.ofNat

/-- The interpreter's limit on the digits of an `int` literal. -/
def intMaxStrDigits : ℕ := 4300

/-- `int(s)` of a string that can be of any length; `none` where it raises `ValueError`. -/
def parseIntLimited (s : String) : Option ℤ :=
  if intMaxStrDigits < s.toList.countP isDigit then none else parseInt s

/-- `sep.join(parts)`. -/
def joinWith (sep : String) : List String → String
  | [] => ""
  | [s] => s
  | s :: l => s ++ sep ++ joinWith sep l

/-- `sorted` of strings, by code points. -/
def sortedStrings (l : List String) : List String := l.insertionSort (· ≤ ·)

/-- `repr` of a string, for the quoted names in error texts. -/
def quote (s : String) : String := "'" ++ s ++ "'"

/-- `value or None` on an optional text: the empty string counts as absent. -/
def orNone (s : Option String) : Option String := s.filter (· ≠ "")

theorem orNone_isSome {v : String} (h : v ≠ "") : orNone (some v) = some v := by
  unfold orNone
  rw [Option.filter_some, if_pos (decide_eq_true h)]

/-- A text that a column of the database can hold: one without U+0000. -/
def storableText (s : String) : Bool := decide ('\x00' ∉ s.toList)

/-! ## Bytes -/

/-- A character of which some bytes are read: their bits, how many bytes are owed, and the range
of the next one. -/
structure Utf8Tail where
  bits : ℕ
  owed : ℕ
  lo : ℕ := 0x80
  hi : ℕ := 0xBF

/-- U+FFFD, which stands for bytes that are no character. -/
def replacementChar : Char := Char.ofNat 0xFFFD

/-- A byte at the start of a character. -/
def utf8Start (b : ℕ) : List Char × Option Utf8Tail :=
  if b < 0x80 then ([Char.ofNat b], none)
  else if b < 0xC2 then ([replacementChar], none)
  else if b < 0xE0 then ([], some { bits := b - 0xC0, owed := 1 })
  else if b < 0xF0 then
    -- no overlong forms, no surrogates
    ([], some { bits := b - 0xE0, owed := 2, lo := if b = 0xE0 then 0xA0 else 0x80,
                hi := if b = 0xED then 0x9F else 0xBF })
  else if b < 0xF5 then
    ([], some { bits := b - 0xF0, owed := 3, lo := if b = 0xF0 then 0x90 else 0x80,
                hi := if b = 0xF4 then 0x8F else 0xBF })
  else ([replacementChar], none)

/-- One byte: the characters that end with it, and what is owed after it. A byte out of range is
read again, as the start of a character. -/
def utf8Step : Option Utf8Tail → ℕ → List Char × Option Utf8Tail
  | none, b => utf8Start b
  | some t, b =>
    if t.lo ≤ b ∧ b ≤ t.hi then
      let bits := t.bits * 64 + (b - 0x80)
      if t.owed = 1 then ([Char.ofNat bits], none) else ([], some { bits, owed := t.owed - 1 })
    else (replacementChar :: (utf8Start b).1, (utf8Start b).2)

/-- The rest of the bytes; a character cut off at the end is replaced. -/
def decodeFrom : Option Utf8Tail → List UInt8 → List Char
  | none, [] => []
  | some _, [] => [replacementChar]
  | t, b :: bs => (utf8Step t b.toNat).1 ++ decodeFrom (utf8Step t b.toNat).2 bs

/-- `bytes.decode('utf-8', errors='replace')`. -/
def decodeUtf8 (bytes : List UInt8) : List Char := decodeFrom none bytes

/-- ASCII bytes stand for themselves. -/
theorem decodeUtf8_ascii {text : List Char} (h : ∀ c ∈ text, c.toNat < 0x80) :
    decodeUtf8 (text.map fun c => UInt8.ofNat c.toNat) = text := by
  unfold decodeUtf8
  induction text with
  | nil => rfl
  | cons c text ih =>
    have hc : c.toNat < 0x80 := h c List.mem_cons_self
    have hbyte : (UInt8.ofNat c.toNat).toNat = c.toNat := UInt8.toNat_ofNat_of_lt (hc.trans (by decide))
    have hstart : utf8Step none c.toNat = ([c], none) := by
      rw [utf8Step, utf8Start, if_pos hc, Char.ofNat_toNat]
    rw [List.map_cons, decodeFrom, hbyte, hstart, ih fun x hx => h x (List.mem_cons_of_mem _ hx)]
    rfl

/-- A Hebrew character (the block `U+0590`–`U+05FF`). -/
def isHebrewChar (c : Char) : Bool := 0x590 ≤ c.toNat && c.toNat ≤ 0x5FF

end CivicProof
