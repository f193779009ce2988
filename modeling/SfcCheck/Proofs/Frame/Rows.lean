import SfcCheck.Proofs.Frame.Room
import SfcCheck.Proofs.Json.Numbers

/-!
# Rows of a frame

A frame has a row for each line that is shown, in the order of the lines. The row of the line where
the range starts is marked, and right after it comes the row of carets, which is told from the
others by its gutter without a number. Nothing else is marked, and without that line there are no
carets. What cannot be drawn are only the carets, where the machine cannot make their row.
-/

namespace SfcCheck.Frame

/-! ## What a row is -/

/-- What stands before the bar of a row. -/
def gutter (row : String) : List Char := row.toList.takeWhile (· != '|')

/-- Whether a row is that of the line where the range starts. -/
def isMarked (row : String) : Bool := row.toList.head? == some '>'

/-- Whether a row holds carets under another one: its gutter is blank. -/
def isCaretRow (row : String) : Bool := (gutter row).all (· == ' ') && row.toList.contains '^'

/-- A row shows a line: behind a mark and blanks stand its number and the bar, and behind that its
text, if there is one. -/
def Shows (row : String) (number : Int) (code : String) : Prop :=
  ∃ mark blanks, (mark = '>' ∨ mark = ' ') ∧
    row.toList = mark :: ' ' :: List.replicate blanks ' ' ++ (Decimal.intText number).toList ++
      [' ', '|'] ++ if code = "" then [] else ' ' :: code.toList

theorem gutter_ofList {before rest : List Char} (h : '|' ∉ before) :
    gutter (String.ofList (before ++ '|' :: rest)) = before := by
  rw [gutter, String.toList_ofList]
  apply Text.takeWhile_append_of_boundary
  · intro c hc
    have hne : c ≠ '|' := fun heq => h (heq ▸ hc)
    simpa using hne
  · simp

/-! ## Numbers -/

theorem not_mem_intText {c : Char} (hsign : c ≠ '-') (hdigit : c.isDigit = false) (n : Int) :
    c ∉ (Decimal.intText n).toList := by
  have hdigits : c ∉ Decimal.natText n.natAbs := by
    intro hmem
    rw [Json.isDigit_of_mem_natText hmem] at hdigit
    cases hdigit
  rw [Decimal.intText, String.toList_ofList]
  split
  · rw [List.mem_cons, not_or]
    exact ⟨hsign, hdigits⟩
  · exact hdigits

/-- A number has a character that is not blank. -/
theorem exists_mem_intText (n : Int) : ∃ c ∈ (Decimal.intText n).toList, c ≠ ' ' := by
  have hne : (Decimal.intText n).toList ≠ [] := by
    rw [Decimal.intText, String.toList_ofList]
    split
    · exact List.cons_ne_nil _ _
    · exact Nat.toDigits_ne_nil
  obtain ⟨c, hc⟩ := List.exists_mem_of_ne_nil _ hne
  refine ⟨c, hc, ?_⟩
  rintro rfl
  exact not_mem_intText (by decide) (by decide) n hc

/-- A larger number has no fewer digits. -/
theorem length_intText_le {m n : Int} (hm : 0 ≤ m) (hn : m ≤ n) :
    (Decimal.intText m).length ≤ (Decimal.intText n).length := by
  have hdigits : (Decimal.natText m.natAbs).length ≤ (Decimal.natText n.natAbs).length := by
    have hpos : 0 < (Decimal.natText n.natAbs).length :=
      List.length_pos_iff.mpr Nat.toDigits_ne_nil
    apply Json.length_natText_le _ hpos
    have hlarge : n.natAbs < 10 ^ (Decimal.natText n.natAbs).length :=
      (Nat.length_toDigits_le_iff (by decide) hpos).mp (Nat.le_refl _)
    omega
  rw [Decimal.intText, Decimal.intText, if_neg (by omega), if_neg (by omega),
    String.length_ofList, String.length_ofList]
  exact hdigits

/-! ## Rows of lines and of carets -/

/-- The gutter of the row of a line. -/
def sourceGutter (number : Int) (isError : Bool) (width : Int) : List Char :=
  (if isError then '>' else ' ') :: ' ' :: alignRight number width ++ [' ']

/-- The gutter of a row of carets. -/
def caretGutter (width : Int) : List Char := ' ' :: ' ' :: run width ' ' ++ [' ']

section Rows

variable (number width : Int) (code : String) (isError : Bool) (span : Span) (length : Nat)

theorem sourceRow_eq :
    sourceRow number code isError width = String.ofList (sourceGutter number isError width ++
      '|' :: if code = "" then [] else ' ' :: code.toList) := by
  by_cases hcode : code = ""
  · simp [sourceRow, sourceGutter, hcode]
  · simp [sourceRow, sourceGutter, hcode]

theorem caretRow_eq :
    caretRow span width length = String.ofList (caretGutter width ++
      '|' :: (' ' :: run span.start.character ' ' ++ run (caretCount span length) '^')) := by
  simp [caretRow, caretGutter]

theorem bar_not_mem_sourceGutter : '|' ∉ sourceGutter number isError width := by
  have hdigits := not_mem_intText (c := '|') (by decide) (by decide) number
  cases isError <;> simp [sourceGutter, alignRight, run, hdigits]

theorem bar_not_mem_caretGutter : '|' ∉ caretGutter width := by
  simp [caretGutter, run]

theorem gutter_sourceRow :
    gutter (sourceRow number code isError width) = sourceGutter number isError width := by
  rw [sourceRow_eq, gutter_ofList (bar_not_mem_sourceGutter number width isError)]

theorem gutter_caretRow : gutter (caretRow span width length) = caretGutter width := by
  rw [caretRow_eq, gutter_ofList (bar_not_mem_caretGutter width)]

theorem isMarked_sourceRow : isMarked (sourceRow number code isError width) = isError := by
  rw [isMarked, sourceRow_eq, String.toList_ofList]
  cases isError <;> rfl

theorem isMarked_caretRow : isMarked (caretRow span width length) = false := by
  rw [isMarked, caretRow_eq, String.toList_ofList]
  rfl

/-- The row of a line is no row of carets, as it has a number in its gutter. -/
theorem isCaretRow_sourceRow : isCaretRow (sourceRow number code isError width) = false := by
  obtain ⟨c, hc, hblank⟩ := exists_mem_intText number
  have hmem : c ∈ sourceGutter number isError width := by
    simp [sourceGutter, alignRight, hc]
  rw [isCaretRow, gutter_sourceRow, Bool.and_eq_false_iff]
  refine .inl (List.all_eq_false.mpr ⟨c, hmem, ?_⟩)
  simpa using hblank

theorem isCaretRow_caretRow : isCaretRow (caretRow span width length) = true := by
  have hblank : (caretGutter width).all (· == ' ') = true := by
    simp [caretGutter, run]
  have hcount : 0 < (caretCount span length).toNat := by
    have hone : 1 ≤ caretCount span length := Int.le_max_right _ _
    omega
  rw [isCaretRow, gutter_caretRow, hblank, Bool.true_and, caretRow_eq, String.toList_ofList,
    List.contains_iff_mem]
  have hcaret : '^' ∈ run (caretCount span length) '^' :=
    List.mem_replicate.mpr ⟨by omega, rfl⟩
  simp [hcaret]

theorem shows_sourceRow : Shows (sourceRow number code isError width) number code := by
  refine ⟨if isError then '>' else ' ',
    (width - (Decimal.intText number).toList.length).toNat, ?_, ?_⟩
  · cases isError
    · exact .inr rfl
    · exact .inl rfl
  · rw [sourceRow_eq, String.toList_ofList]
    simp [sourceGutter, alignRight, run]

end Rows

/-! ## Rows for the lines that are shown -/

/-- The text of a line that the document has. -/
def textOf (d : Document) (number : Int) : String := (d.getLine number).toOption.getD ""

theorem getLine_eq_textOf {d : Document} {number : Int}
    (h : 0 ≤ number ∧ number < d.lineCount) : d.getLine number = .ok (textOf d number) := by
  obtain ⟨code, hcode⟩ := Document.exists_getLine_iff.mpr h
  rw [textOf, hcode]
  rfl

/-- The rows for a line: its own and, under the line where the range starts, the carets. -/
def lineBlock (span : Span) (width : Int) (number : Int) (code : String) : List String :=
  sourceRow number code (number = span.start.line) width ::
    if number = span.start.line then [caretRow span width code.length] else []

theorem mem_lineBlock {span : Span} {width number : Int} {code row : String}
    (h : row ∈ lineBlock span width number code) :
    row = sourceRow number code (number = span.start.line) width ∨
      number = span.start.line ∧ row = caretRow span width code.length := by
  rcases List.mem_cons.mp h with hrow | hrow
  · exact .inl hrow
  · split at hrow
    · next hstart => exact .inr ⟨hstart, List.mem_singleton.mp hrow⟩
    · cases hrow

variable {room : Nat} {d : Document} {span : Span}

theorem drawCarets_ok {width length : Int} {row : String}
    (h : drawCarets room span width length = .ok row) : row = caretRow span width length := by
  simp only [drawCarets, bind_eq_ok_iff_of_unit] at h
  obtain ⟨-, -, -, -, hrow⟩ := h
  exact (Except.ok.inj hrow).symm

theorem lineRows_ok {width number : Int} {code : String} {lines : List String}
    (h : lineRows room span width number code = .ok lines) :
    lines = lineBlock span width number code := by
  rw [lineRows] at h
  split at h
  · next hstart =>
      obtain ⟨row, hrow, hlines⟩ := exists_of_bind_ok h
      cases hlines
      rw [drawCarets_ok hrow]
      simp [lineBlock, hstart]
  · next hstart =>
      cases h
      simp [lineBlock, hstart]

/-- The text of a line that is shown can be had. -/
theorem getLine_of_shown {number : Int} (h : number ∈ shown d span) :
    d.getLine number = .ok (textOf d number) :=
  getLine_eq_textOf (bounds_of_mem_shownLines h)

/-- No number of a line that is shown is wider than the gutter. -/
theorem length_intText_le_gutterWidth {number : Int} (h : number ∈ shown d span) :
    (Decimal.intText number).length ≤ gutterWidth d span :=
  length_intText_le (bounds_of_mem_shownLines h).1 (mem_interval.mp h).2

/-- What is drawn has the rows for each line. -/
theorem rows_ok {lines : List String} (h : rows room d span = .ok lines) :
    lines = (shown d span).flatMap fun n => lineBlock span (gutterWidth d span) n (textOf d n) := by
  cases hlast : (shown d span).getLast? with
  | none =>
      rw [rows_of_none hlast] at h
      rw [List.getLast?_eq_none_iff.mp hlast]
      cases h
      rfl
  | some last =>
      rw [rows_of_some hlast] at h
      obtain ⟨blocks, hblocks, hlines⟩ := exists_of_bind_ok h
      have hdrawn := exists_mapM_ok_iff.mp ⟨blocks, hblocks⟩
      have hall : ∀ n ∈ shown d span, ((d.getLine n).mapError Failure.line >>=
          lineRows room span (gutterWidth d span) n) =
            .ok (lineBlock span (gutterWidth d span) n (textOf d n)) := by
        intro n hn
        obtain ⟨block, hblock⟩ := hdrawn n hn
        rw [getLine_of_shown hn] at hblock ⊢
        rw [← lineRows_ok hblock]
        exact hblock
      rw [mapM_eq_ok_map hall] at hblocks
      cases hblocks
      cases hlines
      rfl

/-! ## Lines in their order -/

theorem pairwise_interval (first last : Int) : (interval first last).Pairwise (· < ·) := by
  rw [interval, List.pairwise_map]
  apply List.pairwise_lt_range.imp
  intro i j hij
  omega

theorem mem_shown_iff {n : Int} :
    n ∈ shown d span ↔ max (span.start.line - 2) 0 ≤ n ∧
      n ≤ min (max span.start.line span.stop.line + 2) (d.lineCount - 1) := by
  rw [shown, shownLines, mem_interval, firstShown, lastShown, contextLines,
    Int.max_comm span.start.line]

/-- The line where a range starts is shown once, if the document has it. -/
theorem exists_split_shown (h : 0 ≤ span.start.line ∧ span.start.line < d.lineCount) :
    ∃ before after, shown d span = before ++ span.start.line :: after ∧
      span.start.line ∉ before ∧ span.start.line ∉ after := by
  obtain ⟨before, after, hsplit⟩ := List.append_of_mem (start_mem_shownLines h.1 h.2)
  have hordered : (shown d span).Pairwise (· < ·) := pairwise_interval _ _
  rw [shown, hsplit, List.pairwise_append, List.pairwise_cons] at hordered
  obtain ⟨-, ⟨hafter, -⟩, hbefore⟩ := hordered
  refine ⟨before, after, hsplit, ?_, ?_⟩
  · intro hmem
    exact absurd (hbefore _ hmem _ (.head _)) (Int.lt_irrefl _)
  · intro hmem
    exact absurd (hafter _ hmem) (Int.lt_irrefl _)

section Blocks

variable {numbers : List Int} {width : Int} (code : Int → String)

theorem lineBlock_start (code : String) : lineBlock span width span.start.line code =
    [sourceRow span.start.line code true width, caretRow span width code.length] := by
  simp [lineBlock]

/-- Without its carets, a frame has one row for each line. -/
theorem filter_lineBlocks :
    (numbers.flatMap fun n => lineBlock span width n (code n)).filter (!isCaretRow ·) =
      numbers.map fun n => sourceRow n (code n) (n = span.start.line) width := by
  induction numbers with
  | nil => rfl
  | cons n numbers ih =>
      have hrows : (lineBlock span width n (code n)).filter (!isCaretRow ·) =
          [sourceRow n (code n) (n = span.start.line) width] := by
        rw [lineBlock, List.filter_cons_of_pos (by simp [isCaretRow_sourceRow])]
        split
        · rw [List.filter_cons_of_neg (by simp [isCaretRow_caretRow]), List.filter_nil]
        · rfl
      rw [List.flatMap_cons, List.filter_append, hrows, ih, List.map_cons, List.singleton_append]

/-- Away from where the range starts, no row is marked and none holds carets. -/
theorem plain_of_mem_lineBlocks (hstart : span.start.line ∉ numbers) {row : String}
    (h : row ∈ numbers.flatMap fun n => lineBlock span width n (code n)) :
    isMarked row = false ∧ isCaretRow row = false := by
  obtain ⟨n, hn, hrow⟩ := List.mem_flatMap.mp h
  have hne : n ≠ span.start.line := fun heq => hstart (heq ▸ hn)
  rcases mem_lineBlock hrow with rfl | ⟨heq, -⟩
  · rw [isMarked_sourceRow, isCaretRow_sourceRow]
    exact ⟨decide_eq_false hne, rfl⟩
  · exact absurd heq hne

theorem countP_lineBlocks (width : Int) (hstart : span.start.line ∉ numbers) :
    (numbers.flatMap fun n => lineBlock span width n (code n)).countP isMarked = 0 ∧
    (numbers.flatMap fun n => lineBlock span width n (code n)).countP isCaretRow = 0 := by
  constructor
  · apply List.countP_eq_zero.mpr
    intro row hrow
    rw [(plain_of_mem_lineBlocks code hstart hrow).1]
    exact Bool.false_ne_true
  · apply List.countP_eq_zero.mpr
    intro row hrow
    rw [(plain_of_mem_lineBlocks code hstart hrow).2]
    exact Bool.false_ne_true

end Blocks

/-! ## The frame of a range -/

/-- What the rows of a frame are. -/
structure Framed (d : Document) (span : Span) (lines : List String) : Prop where
  /-- The rows without carets show the lines around the range, in ascending order. -/
  inOrder : ∃ numbers : List Int, numbers.Pairwise (· < ·) ∧
    (∀ n, n ∈ numbers ↔ max (span.start.line - 2) 0 ≤ n ∧
      n ≤ min (max span.start.line span.stop.line + 2) (d.lineCount - 1)) ∧
    List.Forall₂ (fun n row => ∃ code, d.getLine n = .ok code ∧ Shows row n code) numbers
      (lines.filter (!isCaretRow ·))
  /-- If the range starts in the document, one row is marked, that of the line where it starts, and
  right after it comes the one row of carets. -/
  marked : 0 ≤ span.start.line ∧ span.start.line < d.lineCount →
    lines.countP isMarked = 1 ∧ lines.countP isCaretRow = 1 ∧
    ∃ before row carets after code, lines = before ++ row :: carets :: after ∧
      isMarked row = true ∧ isCaretRow carets = true ∧
      d.getLine span.start.line = .ok code ∧ Shows row span.start.line code
  /-- If it does not, there are no such rows. -/
  unmarked : ¬ (0 ≤ span.start.line ∧ span.start.line < d.lineCount) →
    lines.countP isMarked = 0 ∧ lines.countP isCaretRow = 0

theorem framed_of_rows_ok {lines : List String} (h : rows room d span = .ok lines) :
    Framed d span lines := by
  rw [rows_ok h]
  refine ⟨⟨shown d span, pairwise_interval _ _, fun n => mem_shown_iff, ?_⟩, ?_, ?_⟩
  · rw [filter_lineBlocks, List.forall₂_map_right_iff, List.forall₂_same]
    intro n hn
    exact ⟨_, getLine_of_shown hn, shows_sourceRow _ _ _ _⟩
  · intro hstart
    obtain ⟨before, after, hsplit, hbefore, hafter⟩ := exists_split_shown hstart
    obtain ⟨hmarked, hcarets⟩ := countP_lineBlocks (textOf d) (gutterWidth d span) hbefore
    obtain ⟨hmarked', hcarets'⟩ := countP_lineBlocks (textOf d) (gutterWidth d span) hafter
    rw [hsplit, List.flatMap_append, List.flatMap_cons, lineBlock_start]
    refine ⟨?_, ?_, _, _, _, _, _, rfl, isMarked_sourceRow _ _ _ _, isCaretRow_caretRow _ _ _,
      getLine_eq_textOf hstart, shows_sourceRow _ _ _ _⟩
    · simp [hmarked, hmarked', isMarked_sourceRow, isMarked_caretRow]
    · simp [hcarets, hcarets', isCaretRow_sourceRow, isCaretRow_caretRow]
  · intro hstart
    have hnot : span.start.line ∉ shown d span := fun hmem =>
      hstart (bounds_of_mem_shownLines hmem)
    exact countP_lineBlocks (textOf d) (gutterWidth d span) hnot

/-- A frame can be drawn just if its carets fit, and then its rows are those of the lines around the
range, with one marked row and one row of carets if the range starts in the document. Otherwise
the machine cannot make the row of carets; no line is ever missing. -/
theorem rows_framed (room : Nat) (d : Document) (span : Span) :
    (HasRoom room d span → ∃ lines, rows room d span = .ok lines ∧ Framed d span lines) ∧
    (¬ HasRoom room d span → ∃ e, rows room d span = .error e ∧ e.IsForText) := by
  constructor
  · intro hroom
    obtain ⟨lines, hlines⟩ := exists_rows_iff.mpr hroom
    exact ⟨lines, hlines, framed_of_rows_ok hlines⟩
  · intro hroom
    cases hrows : rows room d span with
    | ok lines => exact absurd (exists_rows_iff.mp ⟨lines, hrows⟩) hroom
    | error e =>
        exact ⟨e, rfl, isForText_of_rows_error hrows⟩

/-- A document of two lines. -/
def twoLines : Document := ⟨"file:///a.vue", "vue", 0, "one\ntwo"⟩

/-- A range that ends past the document, on a machine with room for its row of carets and on one
that lacks room for the last of them, and a range that starts too far to the left. -/
theorem rows_framed_past_end :
    HasRoom 9 twoLines ⟨⟨1, 0⟩, ⟨9, 0⟩⟩ ∧
    rows 9 twoLines ⟨⟨1, 0⟩, ⟨9, 0⟩⟩ = .ok ["  0 | one", "> 1 | two", "    | ^^^"] ∧
    Framed twoLines ⟨⟨1, 0⟩, ⟨9, 0⟩⟩ ["  0 | one", "> 1 | two", "    | ^^^"] ∧
    ¬ HasRoom 8 twoLines ⟨⟨1, 0⟩, ⟨9, 0⟩⟩ ∧
    (∃ e, rows 8 twoLines ⟨⟨1, 0⟩, ⟨9, 0⟩⟩ = .error e ∧ e.IsForText) ∧
    ¬ HasRoom 9 twoLines ⟨⟨1, -100000000000000000000⟩, ⟨1, 0⟩⟩ ∧
    ∃ e, rows 9 twoLines ⟨⟨1, -100000000000000000000⟩, ⟨1, 0⟩⟩ = .error e ∧ e.IsForText := by
  have hroom : HasRoom 9 twoLines ⟨⟨1, 0⟩, ⟨9, 0⟩⟩ := by
    intro code hcode
    have hread : "two" = code := Except.ok.inj hcode
    subst hread
    exact ⟨by decide, by decide +kernel, by decide +kernel⟩
  have hcrowded : ¬ HasRoom 8 twoLines ⟨⟨1, 0⟩, ⟨9, 0⟩⟩ := by
    intro h
    have hfits : (caretRow ⟨⟨1, 0⟩, ⟨9, 0⟩⟩ 1 3).length ≤ 8 := (h "two" rfl).fits
    exact absurd hfits (by decide +kernel)
  have hfar : ¬ HasRoom 9 twoLines ⟨⟨1, -100000000000000000000⟩, ⟨1, 0⟩⟩ := by
    intro h
    have hleft : -machineBound ≤ -100000000000000000000 := (h "two" rfl).not_left
    exact absurd hleft (by decide)
  obtain ⟨lines, hlines, hframed⟩ := (rows_framed _ _ _).1 hroom
  have hdrawn : ["  0 | one", "> 1 | two", "    | ^^^"] = lines := Except.ok.inj hlines
  subst hdrawn
  exact ⟨hroom, hlines, hframed, hcrowded, (rows_framed _ _ _).2 hcrowded, hfar,
    (rows_framed _ _ _).2 hfar⟩

/-- Carets that start too far to the left cannot be drawn, though there is but one of them, nothing
would stand before it and there is room for much more. -/
theorem rows_far_left :
    rows 1000000 twoLines ⟨⟨1, -100000000000000000000⟩, ⟨1, -100000000000000000000⟩⟩ =
      .error .copiesOutOfRange := rfl

end SfcCheck.Frame
