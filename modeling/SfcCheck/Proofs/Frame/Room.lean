import SfcCheck.Frame
import SfcCheck.Proofs.Document.Position
import SfcCheck.Proofs.Results

/-!
# Room for frames

Only the row of carets can be refused: the lines that are shown are lines of the document. So a
diagnostic is printed just if its carets fit, and then what is printed is its block with the header
standing out. They fit if the machine has room for their row and if the column where they start,
even one to the left of everything, is a machine integer.
-/

namespace SfcCheck.Frame

/-! ## Lines -/

theorem mem_interval {first last n : Int} : n ∈ interval first last ↔ first ≤ n ∧ n ≤ last := by
  rw [interval, List.mem_map]
  constructor
  · rintro ⟨i, hi, rfl⟩
    rw [List.mem_range] at hi
    omega
  · rintro ⟨hfirst, hlast⟩
    refine ⟨(n - first).toNat, ?_, ?_⟩
    · rw [List.mem_range]
      omega
    · omega

theorem getLast?_interval {first last n : Int} (h : (interval first last).getLast? = some n) :
    n = last := by
  rw [interval, List.getLast?_map, List.getLast?_range] at h
  by_cases hcount : (last + 1 - first).toNat = 0
  · rw [if_pos hcount] at h
    cases h
  · rw [if_neg hcount] at h
    have hn : first + (((last + 1 - first).toNat - 1 : Nat) : Int) = n := Option.some.inj h
    omega

/-- The lines around a range are lines of the document. -/
theorem bounds_of_mem_shownLines {start stop total n : Int} (h : n ∈ shownLines start stop total) :
    0 ≤ n ∧ n < total := by
  obtain ⟨hfirst, hlast⟩ := mem_interval.mp h
  simp only [firstShown, lastShown] at hfirst hlast
  omega

/-- Of a range that starts in the document, the line where it does is shown. -/
theorem start_mem_shownLines {start stop total : Int} (hstart : 0 ≤ start)
    (htotal : start < total) : start ∈ shownLines start stop total := by
  apply mem_interval.mpr
  simp only [firstShown, lastShown, contextLines]
  omega

/-! ## Rows -/

theorem checkLength_ok_iff {room : Nat} {outOfRange : Failure} {n : Int} :
    checkLength room outOfRange n = .ok () ↔
      -machineBound ≤ n ∧ n < machineBound ∧ n ≤ room := by
  have hmachine : isMachine n = true ↔ -machineBound ≤ n ∧ n < machineBound := by simp [isMachine]
  rw [checkLength]
  cases hn : isMachine n with
  | false =>
      constructor
      · intro h
        cases h
      · rintro ⟨hleft, hright, -⟩
        rw [hmachine.mpr ⟨hleft, hright⟩] at hn
        cases hn
  | true =>
      obtain ⟨hleft, hright⟩ := hmachine.mp hn
      show (if room < n then .error Failure.noRoom else .ok ()) = Except.ok () ↔ _
      by_cases hroom : room < n
      · rw [if_pos hroom]
        constructor
        · intro h
          cases h
        · rintro ⟨-, -, hle⟩
          omega
      · rw [if_neg hroom]
        constructor
        · intro _
          exact ⟨hleft, hright, by omega⟩
        · intro _
          rfl

theorem one_le_caretCount (span : Span) (length : Int) : 1 ≤ caretCount span length :=
  Int.le_max_right _ _

theorem length_caretRow (span : Span) (width length : Int) :
    ((caretRow span width length).length : Int) = caretRowLength span width length := by
  have hone := one_le_caretCount span length
  simp only [caretRow, caretRowLength, run, String.length_ofList, List.length_append,
    List.length_cons, List.length_nil, List.length_replicate]
  omega

/-- The carets under a line fit: the row of them is no longer than a text may be, and they do not
start too far to the left. -/
structure CaretsFit (room : Nat) (span : Span) (width length : Nat) : Prop where
  not_left : -machineBound ≤ span.start.character
  isMachine : (caretRow span width length).length < machineBound
  fits : (caretRow span width length).length ≤ room

theorem exists_drawCarets_iff {room : Nat} {span : Span} {width length : Nat} :
    (∃ row, drawCarets room span width length = .ok row) ↔ CaretsFit room span width length := by
  have hbound : 0 < machineBound := by decide
  have hone := one_le_caretCount span length
  have hlength := length_caretRow span width length
  rw [caretRowLength] at hlength
  simp only [drawCarets, bind_eq_ok_iff_of_unit, checkLength_ok_iff, caretRowLength]
  constructor
  · rintro ⟨row, -, ⟨hleft, -⟩, -, ⟨-, hmachine, hroom⟩, -⟩
    exact ⟨hleft, by omega, by omega⟩
  · rintro ⟨hleft, hmachine, hroom⟩
    refine ⟨_, ?_, ?_, ?_, ?_, rfl⟩ <;> omega

/-- The width of the numbers of the lines that are shown, which is that of the last one. -/
def gutterWidth (d : Document) (span : Span) : Nat :=
  (Decimal.intText (lastShown span.start.line span.stop.line d.lineCount contextLines)).length

/-- The carets of a range fit, if it starts in the document. -/
def HasRoom (room : Nat) (d : Document) (span : Span) : Prop :=
  ∀ code, d.getLine span.start.line = .ok code →
    CaretsFit room span (gutterWidth d span) code.length

/-- The rows for a line can be drawn just if it has no carets or they fit. -/
theorem exists_lineRows_iff {room : Nat} {span : Span} {width : Nat} {number : Int}
    {code : String} :
    (∃ lines, lineRows room span width number code = .ok lines) ↔
      (number = span.start.line → CaretsFit room span width code.length) := by
  rw [lineRows, ← exists_drawCarets_iff]
  by_cases hstart : number = span.start.line
  · rw [if_pos hstart]
    cases hcarets : drawCarets room span width code.length with
    | error e =>
        constructor
        · rintro ⟨lines, h⟩
          cases h
        · intro h
          obtain ⟨row, hrow⟩ := h hstart
          cases hrow
    | ok row =>
        constructor
        · intro _ _
          exact ⟨row, rfl⟩
        · intro _
          exact ⟨_, rfl⟩
  · rw [if_neg hstart]
    constructor
    · intro _ h
      exact absurd h hstart
    · intro _
      exact ⟨_, rfl⟩

/-- The rows for a line of the document can be drawn just if the range starts elsewhere or its
carets fit. -/
theorem exists_lineRows_getLine_iff {room : Nat} {d : Document} {span : Span} {number : Int}
    (hnumber : 0 ≤ number ∧ number < d.lineCount) :
    (∃ lines, ((d.getLine number).mapError Failure.line >>=
        lineRows room span (gutterWidth d span) number) = .ok lines) ↔
      (number = span.start.line → HasRoom room d span) := by
  obtain ⟨code, hcode⟩ := Document.exists_getLine_iff.mpr hnumber
  rw [hcode]
  show (∃ lines, lineRows room span (gutterWidth d span) number code = .ok lines) ↔ _
  rw [exists_lineRows_iff]
  constructor
  · intro h hstart other hother
    rw [← hstart, hcode] at hother
    cases hother
    exact h hstart
  · intro h hstart
    exact h hstart code (hstart ▸ hcode)

/-! ## Rows for the lines that are shown -/

/-- The numbers of the lines around a range. -/
def shown (d : Document) (span : Span) : List Int :=
  shownLines span.start.line span.stop.line d.lineCount

section Shown

variable {room : Nat} {d : Document} {span : Span}

/-- If a range starts in the document, the line where it does is shown. -/
theorem start_mem_shown_of_getLine {code : String} (h : d.getLine span.start.line = .ok code) :
    span.start.line ∈ shown d span := by
  obtain ⟨hstart, htotal⟩ := Document.exists_getLine_iff.mp ⟨code, h⟩
  exact start_mem_shownLines hstart htotal

theorem rows_of_none (h : (shown d span).getLast? = none) : rows room d span = .ok [] := by
  rw [shown] at h
  rw [rows, h]
  rfl

/-- A frame is drawn line by line, with a gutter as wide as the last number. -/
theorem rows_of_some {last : Int} (h : (shown d span).getLast? = some last) :
    rows room d span = (shown d span).mapM (fun n => (d.getLine n).mapError Failure.line >>=
      lineRows room span (gutterWidth d span) n) >>= fun blocks => pure blocks.flatten := by
  have hlast := getLast?_interval h
  rw [shown] at h
  rw [gutterWidth, ← hlast, rows, h]
  rfl

/-- The rows for all lines that are shown can be drawn just if the carets fit. -/
theorem exists_lines_iff :
    (∃ blocks, (shown d span).mapM (fun n =>
        (d.getLine n).mapError Failure.line >>= lineRows room span (gutterWidth d span) n) =
          .ok blocks) ↔
      HasRoom room d span := by
  rw [exists_mapM_ok_iff]
  constructor
  · intro h code hcode
    have hshown := start_mem_shown_of_getLine hcode
    have hroom := (exists_lineRows_getLine_iff (bounds_of_mem_shownLines hshown)).mp (h _ hshown)
    exact hroom rfl code hcode
  · intro h n hn
    apply (exists_lineRows_getLine_iff (bounds_of_mem_shownLines hn)).mpr
    intro _
    exact h

/-- The rows around a range can be drawn just if its carets fit. -/
theorem exists_rows_iff : (∃ lines, rows room d span = .ok lines) ↔ HasRoom room d span := by
  cases hlast : (shown d span).getLast? with
  | none =>
      rw [rows_of_none hlast]
      constructor
      · intro _ code hcode
        have hshown := start_mem_shown_of_getLine hcode
        rw [List.getLast?_eq_none_iff.mp hlast] at hshown
        cases hshown
      · intro _
        exact ⟨[], rfl⟩
  | some last =>
      rw [rows_of_some hlast, ← exists_lines_iff]
      constructor
      · rintro ⟨lines, h⟩
        obtain ⟨blocks, hblocks, -⟩ := exists_of_bind_ok h
        exact ⟨blocks, hblocks⟩
      · rintro ⟨blocks, hblocks⟩
        rw [hblocks]
        exact ⟨_, rfl⟩

end Shown

/-! ## Refusals -/

section Refusals

variable {room : Nat} {span : Span} {e : Failure}

theorem checkLength_error {outOfRange : Failure} {n : Int}
    (h : checkLength room outOfRange n = .error e) : e = outOfRange ∨ e = .noRoom := by
  rw [checkLength] at h
  split at h
  · exact .inl (Except.error.inj h).symm
  · split at h
    · exact .inr (Except.error.inj h).symm
    · cases h

/-- Whether a failure is that of a text which the machine cannot make. -/
def Failure.IsForText (e : Failure) : Prop :=
  e = .copiesOutOfRange ∨ e = .textTooLong ∨ e = .noRoom

theorem isForText_of_copies {n : Int}
    (h : checkLength room .copiesOutOfRange n = .error e) : e.IsForText :=
  (checkLength_error h).imp_right .inr

theorem isForText_of_drawCarets_error {width length : Int}
    (h : drawCarets room span width length = .error e) : e.IsForText := by
  rw [drawCarets] at h
  rcases cases_of_bind_error h with hwidth | ⟨_, -, h⟩
  · exact isForText_of_copies hwidth
  rcases cases_of_bind_error h with hstart | ⟨_, -, h⟩
  · exact isForText_of_copies hstart
  rcases cases_of_bind_error h with hcount | ⟨_, -, h⟩
  · exact isForText_of_copies hcount
  rcases cases_of_bind_error h with hrow | ⟨_, -, h⟩
  · exact .inr (checkLength_error hrow)
  · cases h

theorem isForText_of_lineRows_error {width number : Int} {code : String}
    (h : lineRows room span width number code = .error e) : e.IsForText := by
  rw [lineRows] at h
  split at h
  · rcases cases_of_bind_error h with hcarets | ⟨_, -, h⟩
    · exact isForText_of_drawCarets_error hcarets
    · cases h
  · cases h

/-- What cannot be drawn are only the carets. -/
theorem isForText_of_rows_error {d : Document} (h : rows room d span = .error e) :
    e.IsForText := by
  cases hlast : (shown d span).getLast? with
  | none =>
      rw [rows_of_none hlast] at h
      cases h
  | some last =>
      rw [rows_of_some hlast] at h
      rcases cases_of_bind_error h with hblocks | ⟨blocks, -, h⟩
      · obtain ⟨n, hn, hfails⟩ := exists_of_mapM_error hblocks
        obtain ⟨code, hcode⟩ := Document.exists_getLine_iff.mpr (bounds_of_mem_shownLines hn)
        rw [hcode] at hfails
        exact isForText_of_lineRows_error hfails
      · cases h

end Refusals

/-! ## Blocks -/

/-- A block with its header standing out. -/
def withStyledHeader : List String → List String
  | [] => []
  | head :: rest => styled head :: rest

/-- What is printed is the block with its header standing out. -/
theorem printed_eq (room : Nat) (d : Document) (x : Diagnostic) :
    printed room d x = (block room d x).map withStyledHeader := by
  rw [printed, block]
  cases rows room d x.span <;> rfl

/-- A diagnostic can be printed just if its carets fit. -/
theorem exists_printed_iff {room : Nat} {d : Document} {x : Diagnostic} :
    (∃ lines, printed room d x = .ok lines) ↔ HasRoom room d x.span := by
  rw [← exists_rows_iff, printed]
  cases rows room d x.span with
  | error e =>
      constructor
      · rintro ⟨lines, h⟩
        cases h
      · rintro ⟨lines, h⟩
        cases h
  | ok lines =>
      constructor
      · intro _
        exact ⟨_, rfl⟩
      · intro _
        exact ⟨_, rfl⟩

theorem isForText_of_printed_error {room : Nat} {d : Document} {x : Diagnostic} {e : Failure}
    (h : printed room d x = .error e) : e.IsForText := by
  rw [printed] at h
  rcases cases_of_bind_error h with hrows | ⟨_, -, h⟩
  · exact isForText_of_rows_error hrows
  · cases h

end SfcCheck.Frame
