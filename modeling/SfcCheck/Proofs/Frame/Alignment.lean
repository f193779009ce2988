import SfcCheck.Proofs.Frame.Rows

/-!
# Columns of a frame

All gutters of a frame have one width, that of the longest line number, so the bars stand in one
column and the source lines start in another one, two further on. The carets start where the range
does: in the column where the row above has the first character of the range.
-/

namespace SfcCheck.Frame

/-! ## Widths of gutters -/

theorem idxOf?_append_cons {c : Char} {before : List Char} (h : c ∉ before) (rest : List Char) :
    (before ++ c :: rest).idxOf? c = some before.length := by
  induction before with
  | nil => simp [List.idxOf?_cons]
  | cons x before ih =>
      obtain ⟨hx, hbefore⟩ := not_or.mp (fun hmem => h (List.mem_cons.mpr hmem))
      have hne : (x == c) = false := by simpa using Ne.symm hx
      rw [List.cons_append, List.idxOf?_cons, ih hbefore, hne]
      rfl

/-- The column of the bars behind numbers of the given width. -/
def barColumn (width : Nat) : Nat := width + 3

theorem length_sourceGutter {number : Int} {width : Nat}
    (h : (Decimal.intText number).length ≤ width) (isError : Bool) :
    (sourceGutter number isError width).length = barColumn width := by
  simp only [sourceGutter, alignRight, run, List.length_append, List.length_cons, List.length_nil,
    List.length_replicate, String.length_toList, barColumn]
  omega

theorem length_caretGutter (width : Nat) : (caretGutter width).length = barColumn width := by
  simp [caretGutter, run, barColumn]

variable {number : Int} {code : String} {isError : Bool} {width : Nat} {span : Span}

theorem idxOf?_bar_sourceRow (h : (Decimal.intText number).length ≤ width) :
    (sourceRow number code isError width).toList.idxOf? '|' = some (barColumn width) := by
  rw [sourceRow_eq, String.toList_ofList,
    idxOf?_append_cons (bar_not_mem_sourceGutter number width isError), length_sourceGutter h]

theorem idxOf?_bar_caretRow (length : Nat) :
    (caretRow span width length).toList.idxOf? '|' = some (barColumn width) := by
  rw [caretRow_eq, String.toList_ofList, idxOf?_append_cons (bar_not_mem_caretGutter width),
    length_caretGutter]

/-- The text of a line starts two columns after the bar. -/
theorem drop_sourceRow (isError : Bool) (h : (Decimal.intText number).length ≤ width)
    (hcode : code ≠ "") :
    (sourceRow number code isError width).toList.drop (barColumn width + 2) = code.toList := by
  rw [sourceRow_eq, String.toList_ofList, if_neg hcode, ← length_sourceGutter h isError,
    List.drop_length_add_append]
  rfl

/-- The characters of a line stand one by one behind that column. -/
theorem getElem?_sourceRow (h : (Decimal.intText number).length ≤ width) {k : Nat}
    (hk : k < code.length) :
    (sourceRow number code isError width).toList[barColumn width + 2 + k]? = code.toList[k]? := by
  have hcode : code ≠ "" := by
    rintro rfl
    cases hk
  rw [← drop_sourceRow isError h hcode, List.getElem?_drop]

/-! ## Where the carets stand -/

theorem caretRow_split (width length : Nat) (span : Span) :
    (caretRow span width length).toList =
      (caretGutter width ++ ['|', ' '] ++ run span.start.character ' ') ++
        run (caretCount span length) '^' := by
  rw [caretRow_eq, String.toList_ofList]
  simp

/-- What stands before the carets is as long as what stands before the range in the row above. -/
theorem length_before_carets (width : Nat) (span : Span) :
    (caretGutter width ++ ['|', ' '] ++ run span.start.character ' ').length =
      barColumn width + 2 + span.start.character.toNat := by
  rw [List.length_append, List.length_append, length_caretGutter, run, List.length_replicate]
  rfl

theorem idxOf?_caretRow (length : Nat) :
    (caretRow span width length).toList.idxOf? '^' =
      some (barColumn width + 2 + span.start.character.toNat) := by
  have hone : 1 ≤ caretCount span length := Int.le_max_right _ _
  have hfirst : run (caretCount span length) '^' =
      '^' :: List.replicate ((caretCount span length).toNat - 1) '^' := by
    rw [run, ← List.replicate_succ, Nat.sub_add_cancel (by omega)]
  have hbefore : '^' ∉ caretGutter width ++ ['|', ' '] ++ run span.start.character ' ' := by
    simp [caretGutter, run]
  rw [caretRow_split, hfirst, idxOf?_append_cons hbefore, length_before_carets]

theorem drop_caretRow (length : Nat) :
    (caretRow span width length).toList.drop (barColumn width + 2 + span.start.character.toNat) =
      List.replicate (caretCount span length).toNat '^' := by
  rw [caretRow_split, ← length_before_carets, List.drop_left, run]

/-! ## Frames in columns -/

/-- What stands where in the rows of a frame with its bars in the given column. -/
structure Aligned (d : Document) (span : Span) (bar : Nat) (lines : List String) : Prop where
  bars : ∀ row ∈ lines, row.toList.idxOf? '|' = some bar
  /-- Two columns after the bar start the texts of the lines. -/
  texts : ∀ row ∈ lines, isCaretRow row = false → ∃ n code, d.getLine n = .ok code ∧
    Shows row n code ∧ (code ≠ "" → row.toList.drop (bar + 2) = code.toList)
  /-- The carets start below the character where the range does, or below where it would stand.
  Within one line there are as many as the range has characters, and over several lines as many as
  are left of the first line, in both cases at least one. -/
  carets : ∃ before row carets after code, lines = before ++ row :: carets :: after ∧
    isMarked row = true ∧ isCaretRow carets = true ∧
    d.getLine span.start.line = .ok code ∧ Shows row span.start.line code ∧
    (∀ k < code.length, row.toList[bar + 2 + k]? = code.toList[k]?) ∧
    ∃ column count : Nat, carets.toList.idxOf? '^' = some column ∧
      carets.toList.drop column = List.replicate count '^' ∧
      (column : Int) = bar + 2 + span.start.character ∧
      (count : Int) = if span.start.line = span.stop.line
        then max (span.stop.character - span.start.character) 1
        else max (code.length - span.start.character) 1

theorem toNat_caretCount (span : Span) (length : Nat) :
    ((caretCount span length).toNat : Int) = if span.start.line = span.stop.line
      then max (span.stop.character - span.start.character) 1
      else max (length - span.start.character) 1 := by
  have hone : 1 ≤ caretCount span length := Int.le_max_right _ _
  rw [Int.toNat_of_nonneg (by omega), caretCount, Span.isSingleLine]
  by_cases hline : span.start.line = span.stop.line
  · simp [hline]
  · simp [hline]

variable {room : Nat} {d : Document}

theorem exists_aligned_of_rows_ok {lines : List String}
    (hline : 0 ≤ span.start.line ∧ span.start.line < d.lineCount)
    (hcolumn : 0 ≤ span.start.character) (h : rows room d span = .ok lines) :
    ∃ bar, Aligned d span bar lines := by
  rw [rows_ok h]
  have hwidth : ∀ n ∈ shown d span, (Decimal.intText n).length ≤ gutterWidth d span :=
    fun _ => length_intText_le_gutterWidth
  refine ⟨barColumn (gutterWidth d span), ?_, ?_, ?_⟩
  · intro row hrow
    obtain ⟨n, hn, hrow⟩ := List.mem_flatMap.mp hrow
    rcases mem_lineBlock hrow with rfl | ⟨-, rfl⟩
    · exact idxOf?_bar_sourceRow (hwidth n hn)
    · exact idxOf?_bar_caretRow _
  · intro row hrow hplain
    obtain ⟨n, hn, hrow⟩ := List.mem_flatMap.mp hrow
    rcases mem_lineBlock hrow with rfl | ⟨-, rfl⟩
    · exact ⟨n, _, getLine_of_shown hn, shows_sourceRow _ _ _ _, drop_sourceRow _ (hwidth n hn)⟩
    · rw [isCaretRow_caretRow] at hplain
      cases hplain
  · obtain ⟨before, after, hsplit, -, -⟩ := exists_split_shown hline
    have hstart : span.start.line ∈ shown d span := start_mem_shownLines hline.1 hline.2
    rw [hsplit, List.flatMap_append, List.flatMap_cons, lineBlock_start]
    exact ⟨_, _, _, _, _, rfl, isMarked_sourceRow _ _ _ _, isCaretRow_caretRow _ _ _,
      getLine_eq_textOf hline, shows_sourceRow _ _ _ _,
      fun k hk => getElem?_sourceRow (hwidth _ hstart) hk, _, _, idxOf?_caretRow _,
      drop_caretRow _, by omega, toNat_caretCount _ _⟩

/-- The frame of a range that starts in the document is drawn just if its carets fit, and it always
stands in columns, with the carets below what they are for. -/
theorem rows_aligned (hline : 0 ≤ span.start.line ∧ span.start.line < d.lineCount)
    (hcolumn : 0 ≤ span.start.character) :
    ((∃ lines, rows room d span = .ok lines) ↔ HasRoom room d span) ∧
    ∀ lines, rows room d span = .ok lines → ∃ bar, Aligned d span bar lines :=
  ⟨exists_rows_iff, fun _ => exists_aligned_of_rows_ok hline hcolumn⟩

/-- A document whose last line has a number of two digits. -/
def elevenLines : Document := ⟨"file:///a.vue", "vue", 0, "a\nb\nc\nd\ne\nf\ng\nh\ni\njkl\n"⟩

/-- A range from within the last line but one to its end. -/
def lineEnd : Span := ⟨⟨9, 1⟩, ⟨10, 0⟩⟩

/-- A frame whose line numbers get a second digit. -/
theorem rows_aligned_eleven :
    (0 ≤ lineEnd.start.line ∧ lineEnd.start.line < elevenLines.lineCount) ∧
    0 ≤ lineEnd.start.character ∧ HasRoom 10 elevenLines lineEnd ∧
    rows 10 elevenLines lineEnd =
      .ok ["   7 | h", "   8 | i", ">  9 | jkl", "     |  ^^", "  10 |"] ∧
    ∃ bar, Aligned elevenLines lineEnd bar
      ["   7 | h", "   8 | i", ">  9 | jkl", "     |  ^^", "  10 |"] := by
  have hline : 0 ≤ lineEnd.start.line ∧ lineEnd.start.line < elevenLines.lineCount := by decide
  have hcolumn : 0 ≤ lineEnd.start.character := by decide
  have hrows : rows 10 elevenLines lineEnd =
      .ok ["   7 | h", "   8 | i", ">  9 | jkl", "     |  ^^", "  10 |"] := by
    decide +kernel
  obtain ⟨hroom, haligned⟩ := rows_aligned hline hcolumn
  exact ⟨hline, hcolumn, hroom.mp ⟨_, hrows⟩, hrows, haligned _ hrows⟩

end SfcCheck.Frame
