import Mathlib.Data.List.Infix

/-!
# Reading delimited text

The row reader of the `csv` library as the state machine it is. It is given one line of a file
after the other, each with its line end, and a row may go on over several lines.

* `readRows`: the rows of a file, line by line.
* `readRows_fileLines`: the same, character by character over the whole text. What has been read of
  a text is then a fold (`Scan`), so that texts can be put together and cut.
-/

namespace CivicProof.Csv

/-- The marks of a dialect, and how long a field may get. -/
structure Dialect where
  delimiter : Char
  quotechar : Char
  fieldLimit : ℕ
  delimiter_quote : delimiter ≠ quotechar
  delimiter_lf : delimiter ≠ '\n'
  delimiter_cr : delimiter ≠ '\r'
  quote_lf : quotechar ≠ '\n'
  quote_cr : quotechar ≠ '\r'

/-- The dialect `excel`, with the library's field limit. -/
def excel : Dialect where
  delimiter := ','
  quotechar := '"'
  fieldLimit := 131072
  delimiter_quote := by decide
  delimiter_lf := by decide
  delimiter_cr := by decide
  quote_lf := by decide
  quote_cr := by decide

/-- The cells of a row. -/
abbrev Row := List (List Char)

/-- The states of the reader. -/
inductive ReaderState where
  | startRecord
  | startField
  | inField
  | inQuotedField
  | quoteInQuotedField
  | eatCrnl
  deriving DecidableEq

/-- What the reader raises. -/
inductive CsvError where
  | fieldLimit
  /-- `new-line character seen in unquoted field`. -/
  | newline
  deriving DecidableEq, Repr

/-- The reader: its state, the fields of the row so far, and the field it is in. -/
structure Reader where
  state : ReaderState := .startRecord
  fields : Row := []
  field : List Char := []

variable (D : Dialect)

/-! ## One character -/

/-- Whether a character ends a line. -/
def isNewline (c : Char) : Bool := c = '\n' || c = '\r'

/-- `parse_save_field`. -/
def Reader.saveField (r : Reader) : Reader := { r with fields := r.fields ++ [r.field], field := [] }

/-- `parse_add_char`, into a state. -/
def Reader.addChar (r : Reader) (c : Char) (state : ReaderState) : Except CsvError Reader :=
  if D.fieldLimit ≤ r.field.length then .error .fieldLimit
  else .ok { r with state, field := r.field ++ [c] }

/-- The end of a field that others follow. -/
def Reader.nextField (r : Reader) : Reader := { r.saveField with state := .startField }

/-- The end of the last field of a row: at a newline mark, or at the end of the line. -/
def Reader.endRow (r : Reader) (state : ReaderState) : Reader := { r.saveField with state }

/-- `parse_process_char` in `START_FIELD`. -/
def Reader.beginField (r : Reader) (c : Char) : Except CsvError Reader :=
  if isNewline c then .ok (r.endRow .eatCrnl)
  else if c = D.quotechar then .ok { r with state := .inQuotedField }
  else if c = D.delimiter then .ok r.nextField
  else r.addChar D c .inField

/-- `parse_process_char` for a character of a line. -/
def Reader.process (r : Reader) (c : Char) : Except CsvError Reader :=
  match r.state with
  | .startRecord =>
    if isNewline c then .ok { r with state := .eatCrnl } else r.beginField D c
  | .startField => r.beginField D c
  | .inField =>
    -- a quotation mark inside a bare field is a character like others
    if isNewline c then .ok (r.endRow .eatCrnl)
    else if c = D.delimiter then .ok r.nextField
    else r.addChar D c .inField
  | .inQuotedField =>
    if c = D.quotechar then .ok { r with state := .quoteInQuotedField }
    else r.addChar D c .inQuotedField
  | .quoteInQuotedField =>
    if c = D.quotechar then r.addChar D c .inQuotedField
    else if c = D.delimiter then .ok r.nextField
    else if isNewline c then .ok (r.endRow .eatCrnl)
    -- not strict: what follows a closing quotation mark belongs to the field
    else r.addChar D c .inField
  | .eatCrnl => if isNewline c then .ok r else .error .newline

/-- `parse_process_char` for the end of a line. -/
def Reader.endLine (r : Reader) : Reader :=
  match r.state with
  | .startRecord => r
  | .inQuotedField => r
  | .eatCrnl => { r with state := .startRecord }
  | .startField => r.endRow .startRecord
  | .inField => r.endRow .startRecord
  | .quoteInQuotedField => r.endRow .startRecord

/-! ## Line by line -/

/-- The lines of a text, each with its line end: a text file opened with `newline='\n'`. -/
def fileLines : List Char → List (List Char)
  | [] => []
  | c :: text =>
    if c = '\n' then [c] :: fileLines text
    else
      match fileLines text with
      | [] => [[c]]
      | line :: lines => (c :: line) :: lines

/-- The reader after a line. -/
def Reader.processLine (r : Reader) (line : List Char) : Except CsvError Reader :=
  (line.foldlM (Reader.process D) r).map Reader.endLine

/-- The row that the end of the file leaves: that of a field begun, or of an open quotation. -/
def Reader.lastRow (r : Reader) : List Row :=
  if r.field ≠ [] ∨ r.state = .inQuotedField then [r.saveField.fields] else []

/-- The rows of a file. -/
def readRows : List (List Char) → Reader → Except CsvError (List Row)
  | [], r => .ok r.lastRow
  | line :: lines, r => do
    let r' ← r.processLine D line
    if r'.state = .startRecord then return r'.fields :: (← readRows lines {})
    else readRows lines r'

/-- `list(csv.reader(io.StringIO(text)))`. -/
def read (text : List Char) : Except CsvError (List Row) := readRows D (fileLines text) {}

/-! ## Character by character -/

/-- What has been read of a text: the rows, the reader, and whether a line has been begun. -/
structure Scan where
  rows : List Row := []
  reader : Reader := {}
  mid : Bool := false

/-- The end of a line; a row may end with it. -/
def Scan.endLine (s : Scan) : Scan :=
  if s.reader.endLine.state = .startRecord then ⟨s.rows ++ [s.reader.endLine.fields], {}, false⟩
  else ⟨s.rows, s.reader.endLine, false⟩

/-- What has been read with a character that leads the reader to `r`. -/
def Scan.after (s : Scan) (c : Char) (r : Reader) : Scan :=
  if c = '\n' then Scan.endLine { s with reader := r } else ⟨s.rows, r, true⟩

/-- The next character. -/
def Scan.char (s : Scan) (c : Char) : Except CsvError Scan :=
  (s.reader.process D c).map (s.after c)

/-- The rows at the end of the text. -/
def Scan.finish (s : Scan) : List Row :=
  let s' := if s.mid then s.endLine else s
  s'.rows ++ s'.reader.lastRow

/-- The lines to come: also an empty one, where a line has been begun. -/
def pendingLines (mid : Bool) (text : List Char) : List (List Char) :=
  if mid ∧ text = [] then [[]] else fileLines text

variable {D}

theorem pendingLines_cons (c : Char) (text : List Char) (mid : Bool) :
    pendingLines mid (c :: text) = fileLines (c :: text) := by
  unfold pendingLines
  rw [if_neg (fun h => List.cons_ne_nil c text h.2)]

theorem pendingLines_false (text : List Char) : pendingLines false text = fileLines text := by
  unfold pendingLines
  rw [if_neg (fun h => Bool.false_ne_true h.1)]

/-- A character that ends no line goes in front of the line to come. -/
theorem fileLines_cons {c : Char} (hc : c ≠ '\n') (text : List Char) :
    ∃ line lines, pendingLines true text = line :: lines ∧
      fileLines (c :: text) = (c :: line) :: lines := by
  rw [fileLines, if_neg hc]
  cases text with
  | nil => exact ⟨[], [], rfl, rfl⟩
  | cons d text =>
    rw [pendingLines_cons]
    cases hlines : fileLines (d :: text) with
    | nil =>
      rw [fileLines] at hlines
      split at hlines
      · cases hlines
      · split at hlines <;> cases hlines
    | cons line lines => exact ⟨line, lines, rfl, rfl⟩

theorem readRows_cons_cons (c : Char) (line : List Char) (lines : List (List Char)) (r : Reader) :
    readRows D ((c :: line) :: lines) r =
      (r.process D c).bind fun r' => readRows D (line :: lines) r' := by
  rw [readRows, Reader.processLine, List.foldlM_cons]
  cases r.process D c <;> rfl

/-- The end of a line, and the lines behind it. -/
theorem readRows_nil_cons (lines : List (List Char)) (s : Scan) :
    (readRows D ([] :: lines) s.reader).map (s.rows ++ ·) =
      (readRows D lines s.endLine.reader).map (s.endLine.rows ++ ·) := by
  rw [readRows, Reader.processLine, List.foldlM_nil]
  change ((if s.reader.endLine.state = .startRecord then _ else _ : Except CsvError _)).map _ = _
  unfold Scan.endLine
  split
  · change ((readRows D lines {}).bind fun rows => Except.ok _).map _ = _
    cases readRows D lines {} with
    | error e => rfl
    | ok rows => exact congrArg Except.ok (List.append_assoc s.rows [_] rows).symm
  · rfl

/-- **The rows of a file, character by character.** -/
theorem readRows_fileLines (text : List Char) (s : Scan) :
    (readRows D (pendingLines s.mid text) s.reader).map (s.rows ++ ·) =
      (text.foldlM (Scan.char D) s).map Scan.finish := by
  induction text generalizing s with
  | nil =>
    rw [List.foldlM_nil]
    cases hmid : s.mid with
    | false =>
      change _ = Except.ok s.finish
      rw [Scan.finish, hmid]
      rfl
    | true =>
      change _ = Except.ok s.finish
      rw [Scan.finish, hmid]
      exact readRows_nil_cons [] s
  | cons c text ih =>
    rw [pendingLines_cons, List.foldlM_cons, Scan.char]
    by_cases hc : c = '\n'
    · subst hc
      rw [fileLines, if_pos rfl, readRows_cons_cons]
      cases hr : s.reader.process D '\n' with
      | error e => rfl
      | ok r =>
        have hend := readRows_nil_cons (D := D) (fileLines text) { s with reader := r }
        have hmid : (Scan.endLine { s with reader := r }).mid = false := by
          unfold Scan.endLine
          split <;> rfl
        have hrest := ih (Scan.endLine { s with reader := r })
        rw [hmid, pendingLines_false] at hrest
        exact hend.trans hrest
    · obtain ⟨line, lines, hpending, hlines⟩ := fileLines_cons hc text
      rw [hlines, readRows_cons_cons]
      cases hr : s.reader.process D c with
      | error e => rfl
      | ok r =>
        have hrest := ih ⟨s.rows, r, true⟩
        have hafter : s.after c r = ⟨s.rows, r, true⟩ := if_neg hc
        rw [hpending] at hrest
        change _ = ((text.foldlM (Scan.char D) (s.after c r)).map Scan.finish)
        rw [hafter]
        exact hrest

/-- **A text is read as the fold of its characters.** -/
theorem read_eq (text : List Char) :
    read D text = (text.foldlM (Scan.char D) {}).map Scan.finish := by
  have h := readRows_fileLines (D := D) text {}
  rw [pendingLines_false] at h
  rw [← h]
  unfold read
  cases readRows D (fileLines text) {} with
  | error e => rfl
  | ok rows => exact congrArg Except.ok (List.nil_append rows).symm

end CivicProof.Csv
