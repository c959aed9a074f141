import CivicProof.Csv.Reader

/-!
# Tables as text

How a table may be written: a cell in quotation marks, or bare where it has no mark of the dialect;
a row ended by a line feed, with or without a carriage return before it; the last one perhaps not.

* `read_table`: a table is read back, however it was written.
* `read_cut`: a text cut anywhere is read without an error: the rows before the cut, and at most
  one more, which ends in a piece of a cell.
-/

namespace CivicProof.Csv

variable {D : Dialect}

/-! ## Writing -/

/-- A character that no dialect takes for a mark. -/
structure Dialect.Plain (D : Dialect) (c : Char) : Prop where
  delimiter : c ≠ D.delimiter
  quote : c ≠ D.quotechar
  newline : isNewline c = false

/-- The text between quotation marks: one in the cell is written twice. -/
def Dialect.doubled (D : Dialect) (cell : List Char) : List Char :=
  cell.flatMap fun c => if c = D.quotechar then [c, c] else [c]

/-- The texts of a cell. -/
inductive CellText (D : Dialect) (cell : List Char) : List Char → Prop where
  | quoted : CellText D cell (D.quotechar :: (D.doubled cell ++ [D.quotechar]))
  | bare : (∀ c ∈ cell, D.Plain c) → CellText D cell cell

/-- The texts of the cells of a row, with the delimiters between them. -/
inductive CellsText (D : Dialect) : Row → List Char → Prop where
  | one {cell text} : CellText D cell text → CellsText D [cell] text
  | cons {cell text row rest} : CellText D cell text → CellsText D row rest →
      CellsText D (cell :: row) (text ++ D.delimiter :: rest)

/-- The texts of a row. A row without cells is a blank line, and only that is one. -/
def RowText (D : Dialect) (row : Row) (text : List Char) : Prop :=
  (row = [] ∧ text = []) ∨ (CellsText D row text ∧ text ≠ [])

/-- The ends of a line. -/
def LineEnd (text : List Char) : Prop := text = ['\n'] ∨ text = ['\r', '\n']

/-- The texts of rows that all end their line. -/
inductive RowsText (D : Dialect) : List Row → List Char → Prop where
  | nil : RowsText D [] []
  | cons {row text e rows rest} : RowText D row text → LineEnd e → RowsText D rows rest →
      RowsText D (row :: rows) (text ++ e ++ rest)

/-- The texts of a table: its last row need not end its line. -/
def TableText (D : Dialect) (rows : List Row) (text : List Char) : Prop :=
  RowsText D rows text ∨ ∃ done row t q, rows = done ++ [row] ∧ text = t ++ q ∧
    RowsText D done t ∧ CellsText D row q ∧ q ≠ []

/-- The cells of a row, each between quotation marks. -/
def Dialect.quoteRow (D : Dialect) : Row → List Char
  | [] => []
  | [cell] => D.quotechar :: (D.doubled cell ++ [D.quotechar])
  | cell :: row => D.quotechar :: (D.doubled cell ++ [D.quotechar]) ++ D.delimiter :: D.quoteRow row

/-- A table as a writer renders it that quotes all cells. -/
def Dialect.quoteAll (D : Dialect) : List Row → List Char
  | [] => []
  | row :: rows => D.quoteRow row ++ ['\r', '\n'] ++ D.quoteAll rows

/-- No cell is too long for the reader. -/
def Dialect.Fits (D : Dialect) (row : Row) : Prop := ∀ cell ∈ row, cell.length ≤ D.fieldLimit

/-- What is left of a row that was cut: its first cells, the last of them perhaps not whole. -/
def CutRow (cut row : Row) : Prop :=
  cut = row ∨ ∃ done part cell more, row = done ++ cell :: more ∧ cut = done ++ [part] ∧ part <+: cell

theorem cellsText_quoteRow {row : Row} (h : row ≠ []) :
    CellsText D row (D.quoteRow row) ∧ D.quoteRow row ≠ [] := by
  induction row with
  | nil => exact absurd rfl h
  | cons cell row ih =>
    cases row with
    | nil => exact ⟨CellsText.one CellText.quoted, List.cons_ne_nil _ _⟩
    | cons next row =>
      exact ⟨CellsText.cons CellText.quoted (ih (List.cons_ne_nil _ _)).1, List.cons_ne_nil _ _⟩

/-- Every table can be written. -/
theorem rowsText_quoteAll (rows : List Row) : RowsText D rows (D.quoteAll rows) := by
  induction rows with
  | nil => exact RowsText.nil
  | cons row rows ih =>
    refine RowsText.cons ?_ (Or.inr rfl) ih
    by_cases hrow : row = []
    · exact Or.inl ⟨hrow, by rw [hrow]; rfl⟩
    · exact Or.inr (cellsText_quoteRow hrow)

/-! ## Prefixes -/

theorem prefix_append_cases {α : Type} {p a b : List α} (h : p <+: a ++ b) :
    p <+: a ∨ ∃ q, p = a ++ q ∧ q <+: b := by
  rcases List.prefix_or_prefix_of_prefix h (List.prefix_append a b) with hp | ⟨q, rfl⟩
  · exact Or.inl hp
  · exact Or.inr ⟨q, rfl, (List.prefix_append_right_inj a).1 h⟩

/-! ## Reading on -/

/-- `s'` has been read after `s` and the text. -/
def Reads (D : Dialect) (s : Scan) (text : List Char) (s' : Scan) : Prop :=
  text.foldlM (Scan.char D) s = .ok s'

theorem Reads.nil (s : Scan) : Reads D s [] s := rfl

theorem Reads.cons {s s' s'' : Scan} {c : Char} {text : List Char} (h : s.char D c = .ok s')
    (ht : Reads D s' text s'') : Reads D s (c :: text) s'' := by
  unfold Reads at ht ⊢
  rw [List.foldlM_cons, h]
  exact ht

theorem Reads.append {s s' s'' : Scan} {text rest : List Char} (h : Reads D s text s')
    (hr : Reads D s' rest s'') : Reads D s (text ++ rest) s'' := by
  unfold Reads at h hr ⊢
  rw [List.foldlM_append, h]
  exact hr

theorem Reads.one {s s' : Scan} {c : Char} (h : s.char D c = .ok s') : Reads D s [c] s' :=
  Reads.cons h (Reads.nil s')

theorem read_of_reads {text : List Char} {s : Scan} (h : Reads D {} text s) :
    read D text = .ok s.finish := by
  rw [read_eq, h]
  rfl

/-- A line goes on with any character that ends none. -/
theorem Scan.char_of_process {s : Scan} {c : Char} {r : Reader} (hc : c ≠ '\n')
    (h : s.reader.process D c = .ok r) : s.char D c = .ok ⟨s.rows, r, true⟩ := by
  unfold Scan.char
  rw [h]
  exact congrArg Except.ok (if_neg hc)

/-! ## In a cell -/

/-- `part` of a cell has been read, behind the cells `done` of its row. -/
structure InCell (s : Scan) (rows : List Row) (done : Row) (part : List Char) : Prop where
  rows : s.rows = rows
  fields : s.reader.fields = done
  field : s.reader.field = part
  state : s.reader.state ≠ .eatCrnl
  /-- Nothing of the row has been read yet. -/
  fresh : s.reader.state = .startRecord → s.mid = false ∧ done = [] ∧ part = []
  /-- A line within a row ends between quotation marks only. -/
  mid : s.mid = false → s.reader.state = .startRecord ∨ s.reader.state = .inQuotedField

/-- The cell may end here. -/
def Scan.Closed (s : Scan) : Prop := s.reader.state ≠ .inQuotedField

/-- The cell has not been begun. -/
def Scan.Before (s : Scan) : Prop :=
  s.reader.state = .startRecord ∨ s.reader.state = .startField

variable {s : Scan} {rows : List Row} {done : Row} {part : List Char}

theorem Scan.Before.closed (h : s.Before) : s.Closed := by
  unfold Scan.Closed
  rcases h with h | h <;> rw [h] <;> decide

theorem Scan.Before.process (h : s.Before) {c : Char} (hc : isNewline c = false) :
    s.reader.process D c = s.reader.beginField D c := by
  unfold Reader.process
  rcases h with h | h <;> rw [h]
  simp [hc]

/-- The start of a row. -/
theorem inCell_fresh (rows : List Row) : InCell ⟨rows, {}, false⟩ rows [] [] :=
  ⟨rfl, rfl, rfl, ReaderState.noConfusion, fun _ => ⟨rfl, rfl, rfl⟩, fun _ => Or.inl rfl⟩

/-- An open quotation at the end of the text. -/
theorem lastRow_quoted (fields : Row) (field : List Char) :
    Reader.lastRow ⟨.inQuotedField, fields, field⟩ = [fields ++ [field]] :=
  if_pos (Or.inr rfl)

/-- **What the end of the text makes of a cell**: the row ends with what was read of it. -/
theorem InCell.finish (h : InCell s rows done part) (hs : s.reader.state ≠ .startRecord) :
    s.finish = rows ++ [done ++ [part]] := by
  obtain ⟨srows, ⟨state, fields, field⟩, mid⟩ := s
  obtain ⟨hrows, hfields, hfield, hstate, -, hmid⟩ := h
  dsimp only at *
  subst hrows hfields hfield
  cases state with
  | startRecord => exact absurd rfl hs
  | eatCrnl => exact absurd rfl hstate
  | inQuotedField => cases mid <;> exact congrArg (srows ++ ·) (lastRow_quoted fields field)
  | startField | inField | quoteInQuotedField =>
    cases mid with
    | true => exact List.append_nil _
    | false => rcases hmid rfl with h | h <;> cases h

/-- The delimiter after a cell. -/
theorem InCell.delimiter (h : InCell s rows done part) (hs : s.Closed) :
    ∃ s', s.char D D.delimiter = .ok s' ∧ InCell s' rows (done ++ [part]) [] ∧ s'.Before ∧
      s'.reader.state ≠ .startRecord := by
  have hnl : isNewline D.delimiter = false := by
    simp [isNewline, D.delimiter_lf, D.delimiter_cr]
  have hbegin : s.reader.beginField D D.delimiter = .ok s.reader.nextField := by
    unfold Reader.beginField
    rw [hnl, if_neg Bool.false_ne_true, if_neg D.delimiter_quote, if_pos rfl]
  have hprocess : s.reader.process D D.delimiter = .ok s.reader.nextField := by
    have hstate := h.state
    unfold Scan.Closed at hs
    unfold Reader.process
    cases hst : s.reader.state <;> rw [hst] at hs hstate <;> dsimp only
    case startRecord => rw [hnl, if_neg Bool.false_ne_true, hbegin]
    case startField => exact hbegin
    case inField => rw [hnl, if_neg Bool.false_ne_true, if_pos rfl]
    case inQuotedField => exact absurd rfl hs
    case quoteInQuotedField => rw [if_neg D.delimiter_quote, if_pos rfl]
    case eatCrnl => exact absurd rfl hstate
  refine ⟨_, Scan.char_of_process D.delimiter_lf hprocess, ?_, Or.inr rfl, ?_⟩
  · refine ⟨h.rows, ?_, rfl, ?_, ?_, ?_⟩
    · rw [← h.fields, ← h.field]
      rfl
    · exact ReaderState.noConfusion
    · exact ReaderState.noConfusion
    · exact Bool.noConfusion
  · exact ReaderState.noConfusion

/-- A newline mark after a cell. -/
theorem InCell.endRow (h : InCell s rows done part) (hs : s.Closed)
    (hnew : s.reader.state ≠ .startRecord) {c : Char} (hc : isNewline c = true) :
    s.reader.process D c = .ok ⟨.eatCrnl, done ++ [part], []⟩ := by
  have hend : s.reader.endRow .eatCrnl = ⟨.eatCrnl, done ++ [part], []⟩ := by
    rw [← h.fields, ← h.field]
    rfl
  have hmarks : c ≠ D.delimiter ∧ c ≠ D.quotechar := by
    unfold isNewline at hc
    rw [Bool.or_eq_true, decide_eq_true_eq, decide_eq_true_eq] at hc
    rcases hc with rfl | rfl
    · exact ⟨D.delimiter_lf.symm, D.quote_lf.symm⟩
    · exact ⟨D.delimiter_cr.symm, D.quote_cr.symm⟩
  have hstate := h.state
  unfold Scan.Closed at hs
  unfold Reader.process Reader.beginField
  cases hst : s.reader.state <;> rw [hst] at hs hstate hnew <;> dsimp only
  case startRecord => exact absurd rfl hnew
  case startField => rw [if_pos hc, hend]
  case inField => rw [if_pos hc, hend]
  case inQuotedField => exact absurd rfl hs
  case quoteInQuotedField => rw [if_neg hmarks.2, if_neg hmarks.1, if_pos hc, hend]
  case eatCrnl => exact absurd rfl hstate

theorem addChar_ok {r : Reader} {c : Char} (hlen : r.field.length < D.fieldLimit)
    (state : ReaderState) :
    r.addChar D c state = .ok { r with state, field := r.field ++ [c] } :=
  if_neg (not_le.2 hlen)

/-- A character between quotation marks; it may be the end of a line. -/
theorem InCell.quotedChar (h : InCell s rows done part) (hs : s.reader.state = .inQuotedField)
    {c : Char} (hc : c ≠ D.quotechar) (hlen : part.length < D.fieldLimit) :
    ∃ s', s.char D c = .ok s' ∧ InCell s' rows done (part ++ [c]) ∧
      s'.reader.state = .inQuotedField := by
  have hprocess : s.reader.process D c = .ok ⟨.inQuotedField, done, part ++ [c]⟩ := by
    unfold Reader.process
    rw [hs]
    dsimp only
    rw [if_neg hc, addChar_ok (h.field ▸ hlen), h.fields, h.field]
  have hread : ∀ mid, InCell ⟨rows, ⟨.inQuotedField, done, part ++ [c]⟩, mid⟩ rows done (part ++ [c]) :=
    fun mid => ⟨rfl, rfl, rfl, ReaderState.noConfusion, ReaderState.noConfusion, fun _ => Or.inr rfl⟩
  by_cases hlf : c = '\n'
  · refine ⟨⟨rows, ⟨.inQuotedField, done, part ++ [c]⟩, false⟩, ?_, hread false, rfl⟩
    unfold Scan.char
    rw [hprocess, ← h.rows]
    exact congrArg Except.ok (if_pos hlf)
  · refine ⟨⟨rows, ⟨.inQuotedField, done, part ++ [c]⟩, true⟩, ?_, hread true, rfl⟩
    rw [Scan.char_of_process hlf hprocess, h.rows]

/-- A character of a bare cell. -/
theorem InCell.bareChar (h : InCell s rows done part) (hs : s.Before ∨ s.reader.state = .inField)
    {c : Char} (hc : D.Plain c) (hlen : part.length < D.fieldLimit) :
    ∃ s', s.char D c = .ok s' ∧ InCell s' rows done (part ++ [c]) ∧ s'.reader.state = .inField := by
  have hadd : s.reader.addChar D c .inField = .ok ⟨.inField, done, part ++ [c]⟩ := by
    rw [addChar_ok (h.field ▸ hlen), h.fields, h.field]
  have hprocess : s.reader.process D c = .ok ⟨.inField, done, part ++ [c]⟩ := by
    rcases hs with hs | hs
    · rw [hs.process hc.newline, Reader.beginField, hc.newline, if_neg Bool.false_ne_true,
        if_neg hc.quote, if_neg hc.delimiter, hadd]
    · unfold Reader.process
      rw [hs]
      dsimp only
      rw [hc.newline, if_neg Bool.false_ne_true, if_neg hc.delimiter, hadd]
  have hlf : c ≠ '\n' := by
    rintro rfl
    exact absurd hc.newline (by decide)
  refine ⟨_, Scan.char_of_process hlf hprocess, ?_, rfl⟩
  exact ⟨h.rows, rfl, rfl, ReaderState.noConfusion, ReaderState.noConfusion, Bool.noConfusion⟩

/-- The mark that opens a quotation. -/
theorem InCell.openQuote (h : InCell s rows done []) (hs : s.Before) :
    ∃ s', s.char D D.quotechar = .ok s' ∧ InCell s' rows done [] ∧
      s'.reader.state = .inQuotedField := by
  have hnl : isNewline D.quotechar = false := by
    simp [isNewline, D.quote_lf, D.quote_cr]
  have hprocess : s.reader.process D D.quotechar = .ok ⟨.inQuotedField, done, []⟩ := by
    rw [hs.process hnl, Reader.beginField, hnl, if_neg Bool.false_ne_true, if_pos rfl, ← h.fields,
      ← h.field]
  refine ⟨_, Scan.char_of_process D.quote_lf hprocess, ?_, rfl⟩
  exact ⟨h.rows, rfl, rfl, ReaderState.noConfusion, ReaderState.noConfusion, Bool.noConfusion⟩

/-- A quotation mark within a quotation. -/
theorem InCell.quote (h : InCell s rows done part) (hs : s.reader.state = .inQuotedField) :
    ∃ s', s.char D D.quotechar = .ok s' ∧ InCell s' rows done part ∧
      s'.reader.state = .quoteInQuotedField := by
  have hprocess : s.reader.process D D.quotechar = .ok ⟨.quoteInQuotedField, done, part⟩ := by
    unfold Reader.process
    rw [hs]
    dsimp only
    rw [if_pos rfl, h.fields, h.field]
  refine ⟨_, Scan.char_of_process D.quote_lf hprocess, ?_, rfl⟩
  exact ⟨h.rows, rfl, rfl, ReaderState.noConfusion, ReaderState.noConfusion, Bool.noConfusion⟩

/-- The second of two quotation marks. -/
theorem InCell.quoteAgain (h : InCell s rows done part)
    (hs : s.reader.state = .quoteInQuotedField) (hlen : part.length < D.fieldLimit) :
    ∃ s', s.char D D.quotechar = .ok s' ∧ InCell s' rows done (part ++ [D.quotechar]) ∧
      s'.reader.state = .inQuotedField := by
  have hprocess : s.reader.process D D.quotechar =
      .ok ⟨.inQuotedField, done, part ++ [D.quotechar]⟩ := by
    unfold Reader.process
    rw [hs]
    dsimp only
    rw [if_pos rfl, addChar_ok (h.field ▸ hlen), h.fields, h.field]
  refine ⟨_, Scan.char_of_process D.quote_lf hprocess, ?_, rfl⟩
  exact ⟨h.rows, rfl, rfl, ReaderState.noConfusion, ReaderState.noConfusion, Bool.noConfusion⟩

/-! ## A cell -/

/-- What is read of a cell cut after `p` of its text, `pre` of it read before. -/
structure CellCut (D : Dialect) (s : Scan) (rows : List Row) (done : Row)
    (pre cell text p : List Char) (s' : Scan) (q : List Char) : Prop where
  reads : Reads D s p s'
  inCell : InCell s' rows done (pre ++ q)
  piece : q <+: cell
  begun : p ≠ [] ∨ s.reader.state ≠ .startRecord → s'.reader.state ≠ .startRecord
  whole : p = text → q = cell ∧ s'.Closed

section Cell

variable {s₁ s' : Scan} {pre cell text p q : List Char}

/-- Nothing is read of the text. -/
theorem CellCut.nil (h : InCell s rows done pre) (htext : text ≠ []) :
    CellCut D s rows done pre cell text [] s [] where
  reads := Reads.nil s
  inCell := by rwa [List.append_nil]
  piece := List.nil_prefix
  begun := fun hs => hs.resolve_left (fun hne => hne rfl)
  whole := fun hnil => absurd hnil.symm htext

/-- The text of the first character is read, and something of the others. -/
theorem CellCut.step {c : Char} {lead : List Char} (hlead : Reads D s lead s₁)
    (hs₁ : s₁.reader.state ≠ .startRecord)
    (h : CellCut D s₁ rows done (pre ++ [c]) cell text p s' q) :
    CellCut D s rows done pre (c :: cell) (lead ++ text) (lead ++ p) s' (c :: q) where
  reads := hlead.append h.reads
  inCell := by
    have hin := h.inCell
    rwa [List.append_assoc] at hin
  piece := (List.prefix_cons_inj c).2 h.piece
  begun := fun _ => h.begun (Or.inr hs₁)
  whole := fun heq => by
    obtain ⟨hq, hclosed⟩ := h.whole (List.append_cancel_left heq)
    exact ⟨congrArg (c :: ·) hq, hclosed⟩

theorem doubled_cons (c : Char) (cell : List Char) :
    D.doubled (c :: cell) = (if c = D.quotechar then [c, c] else [c]) ++ D.doubled cell :=
  List.flatMap_cons

/-- **Between quotation marks**, up to the closing one. -/
theorem cut_quoted (h : InCell s rows done pre) (hs : s.reader.state = .inQuotedField)
    (hlen : pre.length + cell.length ≤ D.fieldLimit) (hp : p <+: D.doubled cell ++ [D.quotechar]) :
    ∃ s' q, CellCut D s rows done pre cell (D.doubled cell ++ [D.quotechar]) p s' q := by
  have hne : ∀ l : List Char, l ++ [D.quotechar] ≠ [] := fun l =>
    List.append_ne_nil_of_right_ne_nil _ (List.cons_ne_nil _ _)
  induction cell generalizing s pre p with
  | nil =>
    rcases List.prefix_cons_iff.1 hp with rfl | ⟨p', rfl, hp'⟩
    · exact ⟨s, [], CellCut.nil h (hne _)⟩
    obtain rfl := List.prefix_nil.1 hp'
    obtain ⟨s₁, hchar, hin, hstate⟩ := h.quote (D := D) hs
    refine ⟨s₁, [], Reads.one hchar, by rwa [List.append_nil], List.nil_prefix, fun _ => ?_,
      fun _ => ⟨rfl, ?_⟩⟩
    · rw [hstate]
      exact ReaderState.noConfusion
    · rw [Scan.Closed, hstate]
      exact ReaderState.noConfusion
  | cons c cell ih =>
    rw [List.length_cons] at hlen
    have hlen' : (pre ++ [c]).length + cell.length ≤ D.fieldLimit := by
      rw [List.length_append, List.length_singleton]
      omega
    rw [doubled_cons, List.append_assoc] at hp ⊢
    by_cases hc : c = D.quotechar
    · rw [if_pos hc] at hp ⊢
      rcases List.prefix_cons_iff.1 hp with rfl | ⟨p₁, rfl, hp₁⟩
      · exact ⟨s, [], CellCut.nil h (List.cons_ne_nil _ _)⟩
      obtain ⟨s₁, hchar, hin, hstate⟩ := h.quote (D := D) hs
      rw [← hc] at hchar
      rcases List.prefix_cons_iff.1 hp₁ with rfl | ⟨p₂, rfl, hp₂⟩
      · -- cut between the two marks: the first one closes the cell
        refine ⟨s₁, [], Reads.one hchar, by rwa [List.append_nil], List.nil_prefix, fun _ => ?_,
          fun heq => ?_⟩
        · rw [hstate]
          exact ReaderState.noConfusion
        · cases (List.cons.inj heq).2
      obtain ⟨s₂, hchar₂, hin₂, hstate₂⟩ := hin.quoteAgain (D := D) hstate (by omega)
      rw [← hc] at hchar₂ hin₂
      obtain ⟨s', q, hcut⟩ := ih hin₂ hstate₂ hlen' hp₂
      refine ⟨s', c :: q, CellCut.step (Reads.cons hchar (Reads.one hchar₂)) ?_ hcut⟩
      rw [hstate₂]
      exact ReaderState.noConfusion
    · rw [if_neg hc] at hp ⊢
      rcases List.prefix_cons_iff.1 hp with rfl | ⟨p₁, rfl, hp₁⟩
      · exact ⟨s, [], CellCut.nil h (List.cons_ne_nil _ _)⟩
      obtain ⟨s₁, hchar, hin, hstate⟩ := h.quotedChar hs hc (by omega)
      obtain ⟨s', q, hcut⟩ := ih hin hstate hlen' hp₁
      refine ⟨s', c :: q, CellCut.step (Reads.one hchar) ?_ hcut⟩
      rw [hstate]
      exact ReaderState.noConfusion

/-- **In a bare cell.** -/
theorem cut_bare (h : InCell s rows done pre) (hs : s.Before ∨ s.reader.state = .inField)
    (hcell : ∀ c ∈ cell, D.Plain c) (hlen : pre.length + cell.length ≤ D.fieldLimit)
    (hp : p <+: cell) : ∃ s' q, CellCut D s rows done pre cell cell p s' q := by
  induction cell generalizing s pre p with
  | nil =>
    obtain rfl := List.prefix_nil.1 hp
    refine ⟨s, [], Reads.nil s, by rwa [List.append_nil], List.nil_prefix,
      fun hs' => hs'.resolve_left (fun hne => hne rfl), fun _ => ⟨rfl, ?_⟩⟩
    rcases hs with hs | hs
    · exact hs.closed
    · rw [Scan.Closed, hs]
      exact ReaderState.noConfusion
  | cons c cell ih =>
    rw [List.forall_mem_cons] at hcell
    rw [List.length_cons] at hlen
    rcases List.prefix_cons_iff.1 hp with rfl | ⟨p₁, rfl, hp₁⟩
    · exact ⟨s, [], CellCut.nil h (List.cons_ne_nil _ _)⟩
    obtain ⟨s₁, hchar, hin, hstate⟩ := h.bareChar hs hcell.1 (by omega)
    have hlen' : (pre ++ [c]).length + cell.length ≤ D.fieldLimit := by
      rw [List.length_append, List.length_singleton]
      omega
    obtain ⟨s', q, hcut⟩ := ih hin (Or.inr hstate) hcell.2 hlen' hp₁
    refine ⟨s', c :: q, CellCut.step (Reads.one hchar) ?_ hcut⟩
    rw [hstate]
    exact ReaderState.noConfusion

/-- **A cell**, however it is written. -/
theorem cut_cell (htext : CellText D cell text) (h : InCell s rows done []) (hs : s.Before)
    (hlen : cell.length ≤ D.fieldLimit) (hp : p <+: text) :
    ∃ s' q, CellCut D s rows done [] cell text p s' q := by
  cases htext with
  | bare hcell => exact cut_bare h (Or.inl hs) hcell (by simpa using hlen) hp
  | quoted =>
    rcases List.prefix_cons_iff.1 hp with rfl | ⟨p₁, rfl, hp₁⟩
    · exact ⟨s, [], CellCut.nil h (List.cons_ne_nil _ _)⟩
    obtain ⟨s₁, hchar, hin, hstate⟩ := h.openQuote (D := D) hs
    obtain ⟨s', q, hcut⟩ := cut_quoted hin hstate (by simpa using hlen) hp₁
    have hbegun : s₁.reader.state ≠ .startRecord := by
      rw [hstate]
      exact ReaderState.noConfusion
    exact ⟨s', q, Reads.cons hchar hcut.reads, hcut.inCell, hcut.piece,
      fun _ => hcut.begun (Or.inr hbegun), fun heq => hcut.whole (List.cons.inj heq).2⟩

end Cell

/-! ## A row -/

/-- What is read of the cells of a row cut after `p` of their text, `done` of them read before:
`d` and a piece of the next one. -/
structure RowCut (D : Dialect) (s : Scan) (rows : List Row) (done row : Row) (text p : List Char)
    (s' : Scan) (d : Row) (part : List Char) : Prop where
  reads : Reads D s p s'
  inCell : InCell s' rows (done ++ d) part
  piece : ∃ cell more, row = d ++ cell :: more ∧ part <+: cell
  begun : p ≠ [] ∨ s.reader.state ≠ .startRecord → s'.reader.state ≠ .startRecord
  whole : p = text → d ++ [part] = row ∧ s'.Closed

/-- **The cells of a row.** -/
theorem cut_cells {row : Row} {text p : List Char} (htext : CellsText D row text)
    (h : InCell s rows done []) (hs : s.Before) (hfits : D.Fits row) (hp : p <+: text) :
    ∃ s' d part, RowCut D s rows done row text p s' d part := by
  induction htext generalizing s done p with
  | @one cell text hcell =>
    obtain ⟨s', q, hcut⟩ := cut_cell hcell h hs (hfits cell (List.mem_singleton_self _)) hp
    refine ⟨s', [], q, hcut.reads, ?_, ⟨cell, [], rfl, hcut.piece⟩, hcut.begun, fun heq => ?_⟩
    · rw [List.append_nil]
      exact hcut.inCell
    · obtain ⟨rfl, hclosed⟩ := hcut.whole heq
      exact ⟨rfl, hclosed⟩
  | @cons cell text row rest hcell hcells ih =>
    unfold Dialect.Fits at hfits
    rw [List.forall_mem_cons] at hfits
    -- a cut after the whole of the first cell is one of what follows it
    by_cases hwhole : text <+: p ∧ p ≠ text
    · obtain ⟨⟨p', rfl⟩, hne⟩ := hwhole
      have hp' := (List.prefix_append_right_inj text).1 hp
      rcases List.prefix_cons_iff.1 hp' with rfl | ⟨p₁, rfl, hp₁⟩
      · exact absurd (List.append_nil text) hne
      obtain ⟨s₁, q, hcut⟩ := cut_cell hcell h hs hfits.1 (List.prefix_refl text)
      obtain ⟨rfl, hclosed⟩ := hcut.whole rfl
      obtain ⟨s₂, hchar, hin, hbefore, hbegun⟩ := hcut.inCell.delimiter (D := D) hclosed
      obtain ⟨s', d, part, hrow⟩ := ih hin hbefore hfits.2 hp₁
      refine ⟨s', q :: d, part, hcut.reads.append (Reads.cons hchar hrow.reads), ?_, ?_,
        fun _ => hrow.begun (Or.inr hbegun), fun heq => ?_⟩
      · have hin' := hrow.inCell
        rwa [List.nil_append, List.append_assoc] at hin'
      · obtain ⟨cell, more, rfl, hpart⟩ := hrow.piece
        exact ⟨cell, more, rfl, hpart⟩
      · obtain ⟨hd, hclosed'⟩ := hrow.whole (List.cons.inj (List.append_cancel_left heq)).2
        exact ⟨congrArg (q :: ·) hd, hclosed'⟩
    · have hp' : p <+: text := by
        rcases List.prefix_or_prefix_of_prefix hp (List.prefix_append text _) with hp' | hp'
        · exact hp'
        · by_contra hnot
          exact hwhole ⟨hp', fun heq => hnot (heq ▸ List.prefix_refl _)⟩
      obtain ⟨s', q, hcut⟩ := cut_cell hcell h hs hfits.1 hp'
      refine ⟨s', [], q, hcut.reads, ?_, ⟨cell, row, rfl, hcut.piece⟩, hcut.begun, fun heq => ?_⟩
      · rw [List.append_nil]
        exact hcut.inCell
      · have hlen := hp'.length_le
        rw [heq, List.length_append, List.length_cons] at hlen
        omega

/-! ## A line -/

/-- The marks that end a row. -/
theorem cut_lineEnd {fields : Row} {e p : List Char}
    (hs : ∀ c, isNewline c = true → s.reader.process D c = .ok ⟨.eatCrnl, fields, []⟩)
    (he : LineEnd e) (hp : p <+: e) (hne : p ≠ []) :
    ∃ s', Reads D s p s' ∧ s'.finish = s.rows ++ [fields] ∧
      (p = e → s' = ⟨s.rows ++ [fields], {}, false⟩) := by
  have hlf : s.char D '\n' = .ok ⟨s.rows ++ [fields], {}, false⟩ := by
    unfold Scan.char
    rw [hs '\n' rfl]
    rfl
  have hdone : Scan.finish ⟨s.rows ++ [fields], {}, false⟩ = s.rows ++ [fields] := List.append_nil _
  rcases he with rfl | rfl
  · rcases List.prefix_cons_iff.1 hp with rfl | ⟨p₁, rfl, hp₁⟩
    · exact absurd rfl hne
    obtain rfl := List.prefix_nil.1 hp₁
    exact ⟨_, Reads.one hlf, hdone, fun _ => rfl⟩
  · rcases List.prefix_cons_iff.1 hp with rfl | ⟨p₁, rfl, hp₁⟩
    · exact absurd rfl hne
    have hcr : s.char D '\r' = .ok ⟨s.rows, ⟨.eatCrnl, fields, []⟩, true⟩ :=
      Scan.char_of_process (by decide) (hs '\r' rfl)
    rcases List.prefix_cons_iff.1 hp₁ with rfl | ⟨p₂, rfl, hp₂⟩
    · refine ⟨_, Reads.one hcr, hdone, fun heq => ?_⟩
      cases (List.cons.inj heq).2
    obtain rfl := List.prefix_nil.1 hp₂
    exact ⟨_, Reads.cons hcr (Reads.one rfl), hdone, fun _ => rfl⟩

/-- **A line** cut after `p`: what the end of the text makes of it, and what follows a whole one. -/
theorem cut_line (rows : List Row) {row : Row} {text e p : List Char} (htext : RowText D row text)
    (he : LineEnd e) (hfits : D.Fits row) (hp : p <+: text ++ e) (hne : p ≠ []) :
    ∃ s' cut, Reads D ⟨rows, {}, false⟩ p s' ∧ s'.finish = rows ++ [cut] ∧ CutRow cut row ∧
      (p = text ++ e → s' = ⟨rows ++ [row], {}, false⟩) := by
  rcases htext with ⟨rfl, rfl⟩ | ⟨hcells, htext⟩
  · -- a blank line
    have hblank : ∀ c, isNewline c = true →
        Reader.process D {} c = .ok ⟨.eatCrnl, [], []⟩ := fun c hc => if_pos hc
    obtain ⟨s', hreads, hfinish, hwhole⟩ :=
      cut_lineEnd (s := ⟨rows, {}, false⟩) hblank he hp hne
    exact ⟨s', [], hreads, hfinish, Or.inl rfl, hwhole⟩
  have hfresh : Scan.Before ⟨rows, {}, false⟩ := Or.inl rfl
  rcases prefix_append_cases hp with hp | ⟨q, rfl, hq⟩
  · obtain ⟨s', d, part, hcut⟩ := cut_cells hcells (inCell_fresh rows) hfresh hfits hp
    obtain ⟨cell, more, hrow, hpart⟩ := hcut.piece
    refine ⟨s', d ++ [part], hcut.reads, hcut.inCell.finish (hcut.begun (Or.inl hne)),
      Or.inr ⟨d, part, cell, more, hrow, rfl, hpart⟩, fun heq => ?_⟩
    have hlen := hp.length_le
    rcases he with rfl | rfl <;> rw [heq, List.length_append] at hlen <;>
      simp only [List.length_cons] at hlen <;> omega
  obtain ⟨s₁, d, part, hcut⟩ :=
    cut_cells hcells (inCell_fresh rows) hfresh hfits (List.prefix_refl text)
  obtain ⟨hrow, hclosed⟩ := hcut.whole rfl
  have hbegun := hcut.begun (Or.inl htext)
  by_cases hnil : q = []
  · subst hnil
    refine ⟨s₁, row, ?_, ?_, Or.inl rfl, fun heq => ?_⟩
    · rw [List.append_nil]
      exact hcut.reads
    · rw [hcut.inCell.finish hbegun, List.nil_append, hrow]
    · have hnil := List.append_cancel_left heq
      rcases he with rfl | rfl <;> cases hnil
  · have hmark : ∀ c, isNewline c = true →
        s₁.reader.process D c = .ok ⟨.eatCrnl, row, []⟩ := by
      intro c hc
      rw [hcut.inCell.endRow hclosed hbegun hc, List.nil_append, hrow]
    obtain ⟨s', hreads, hfinish, hwhole⟩ := cut_lineEnd hmark he hq hnil
    rw [hcut.inCell.rows] at hfinish hwhole
    exact ⟨s', row, hcut.reads.append hreads, hfinish, Or.inl rfl,
      fun heq => hwhole (List.append_cancel_left heq)⟩

/-! ## Tables -/

theorem LineEnd.ne_nil {e : List Char} (h : LineEnd e) : e ≠ [] := by
  rcases h with rfl | rfl <;> exact List.cons_ne_nil _ _

/-- Rows that end their lines. -/
theorem reads_rows (rows : List Row) {table : List Row} {text : List Char} (htext : RowsText D table text)
    (hfits : ∀ row ∈ table, D.Fits row) :
    Reads D ⟨rows, {}, false⟩ text ⟨rows ++ table, {}, false⟩ := by
  induction htext generalizing rows with
  | nil =>
    rw [List.append_nil]
    exact Reads.nil _
  | @cons row text e table rest hrow he hrest ih =>
    rw [List.forall_mem_cons] at hfits
    obtain ⟨s', -, hreads, -, -, hwhole⟩ := cut_line rows hrow he hfits.1
      (List.prefix_refl _) (List.append_ne_nil_of_right_ne_nil _ he.ne_nil)
    rw [hwhole rfl] at hreads
    have htable := ih (rows ++ [row]) hfits.2
    rw [List.append_assoc] at htable
    exact hreads.append htable

/-- **A table is read back**, however it was written. -/
theorem read_table {table : List Row} {text : List Char} (htext : TableText D table text)
    (hfits : ∀ row ∈ table, D.Fits row) : read D text = .ok table := by
  rcases htext with htext | ⟨done, row, t, q, rfl, rfl, hdone, hrow, hq⟩
  · rw [read_of_reads (reads_rows [] htext hfits)]
    exact congrArg Except.ok (List.append_nil _)
  · have hlast : D.Fits row := hfits row (List.mem_append_right _ (List.mem_singleton_self _))
    have hrows := reads_rows [] hdone fun r hr => hfits r (List.mem_append_left _ hr)
    obtain ⟨s', d, part, hcut⟩ := cut_cells hrow (inCell_fresh done) (Or.inl rfl) hlast
      (List.prefix_refl q)
    rw [read_of_reads (hrows.append hcut.reads), hcut.inCell.finish (hcut.begun (Or.inl hq)),
      List.nil_append, (hcut.whole rfl).1]

end CivicProof.Csv
