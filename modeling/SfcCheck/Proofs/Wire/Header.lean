import Mathlib.Data.List.TakeWhile
import SfcCheck.Proofs.Wire.Frame

/-!
# Headers line by line

What stands before a body is a header: blank lines that are skipped, lines that are not blank, and a
blank line that ends it. It is read as the table of the names and values of its lines, whatever
follows (`Header.read_append`). A stream that has ended starts with a header, or holds nothing but
blank lines, or ends before the blank line that it waits for, or has a line before that one that is
too long (`opening`).
-/

namespace SfcCheck

/-! ## Trimming -/

namespace Text

theorem trim_eq_nil_iff {cs : List Char} : trim cs = [] ↔ ∀ c ∈ cs, isBlank c = true := by
  constructor
  · intro h c hc
    obtain ⟨t, ht, hblank⟩ := trimRight_append isBlank (trimLeft isBlank cs)
    rw [show trimRight isBlank (trimLeft isBlank cs) = [] from h, List.nil_append] at ht
    rw [← List.takeWhile_append_dropWhile (p := isBlank) (l := cs)] at hc
    rcases List.mem_append.mp hc with hc | hc
    · exact List.mem_takeWhile_imp hc
    · exact hblank c (ht ▸ hc)
  · intro h
    rw [trim, trimLeft, List.dropWhile_eq_nil_iff.mpr h, trimRight_nil]

/-- A text is what is left of it when it is trimmed, between blanks. -/
theorem exists_trim (cs : List Char) : ∃ before after, cs = before ++ (trim cs ++ after) ∧
    (∀ c ∈ before, isBlank c = true) ∧ ∀ c ∈ after, isBlank c = true := by
  obtain ⟨after, ht, hafter⟩ := trimRight_append isBlank (trimLeft isBlank cs)
  refine ⟨cs.takeWhile isBlank, after, ?_, fun c hc => List.mem_takeWhile_imp hc, hafter⟩
  exact (List.takeWhile_append_dropWhile (p := isBlank) (l := cs)).symm.trans (congrArg _ ht)

/-- Blanks around a text make no difference. -/
theorem trim_append {before after : List Char} (cs : List Char)
    (hbefore : ∀ c ∈ before, isBlank c = true) (hafter : ∀ c ∈ after, isBlank c = true) :
    trim (before ++ (cs ++ after)) = trim cs := by
  rw [trim, trimLeft_append hbefore, trim]
  rcases List.eq_nil_or_concat (trimLeft isBlank cs) with hcs | ⟨kept, c, hcs⟩
  · have hblank : ∀ c ∈ cs, isBlank c = true := List.dropWhile_eq_nil_iff.mp hcs
    have hnone : trimLeft isBlank (cs ++ after) = [] :=
      List.dropWhile_eq_nil_iff.mpr fun c hc => (List.mem_append.mp hc).elim (hblank c) (hafter c)
    rw [hcs, hnone]
  · have hsome : (cs.dropWhile isBlank).isEmpty = false := by
      rw [show cs.dropWhile isBlank = _ from hcs]
      simp
    have hleft : trimLeft isBlank (cs ++ after) = trimLeft isBlank cs ++ after := by
      rw [trimLeft, List.dropWhile_append, if_neg (by simp [hsome]), trimLeft]
    rw [hleft, trimRight_append_of_forall _ hafter]

end Text

namespace Wire

open Text

variable {ended : Bool} {headers : Table String} {bytes line rest : List UInt8}

/-! ## Lines -/

/-- A line, without its newline, that holds nothing but blanks and is not too long. -/
structure IsBlankLine (line : List UInt8) : Prop where
  unbroken : 10 ∉ line
  short : line.length ≤ lineLimit
  blank : ∀ b ∈ line, isBlank (asciiChar b) = true

/-- A line, without its newline, that holds something and is not too long. -/
structure IsHeaderLine (line : List UInt8) : Prop where
  unbroken : 10 ∉ line
  short : line.length ≤ lineLimit
  holds : ∃ b ∈ line, isBlank (asciiChar b) = false

instance (line : List UInt8) : Decidable (IsBlankLine line) :=
  decidable_of_iff
    (10 ∉ line ∧ line.length ≤ lineLimit ∧ line.all (fun b => isBlank (asciiChar b)) = true)
    ⟨fun ⟨h₁, h₂, h₃⟩ => ⟨h₁, h₂, List.all_eq_true.mp h₃⟩,
      fun ⟨h₁, h₂, h₃⟩ => ⟨h₁, h₂, List.all_eq_true.mpr h₃⟩⟩

instance (line : List UInt8) : Decidable (IsHeaderLine line) :=
  decidable_of_iff
    (10 ∉ line ∧ line.length ≤ lineLimit ∧ ∃ b ∈ line, isBlank (asciiChar b) = false)
    ⟨fun ⟨h₁, h₂, h₃⟩ => ⟨h₁, h₂, h₃⟩, fun ⟨h₁, h₂, h₃⟩ => ⟨h₁, h₂, h₃⟩⟩

/-- The end of a header as it is usually written, a carriage return before the newline. -/
theorem isBlankLine_return : IsBlankLine [13] := by decide +kernel

/-- Lines as they are written, each with its newline. -/
def written (lines : List (List UInt8)) : List UInt8 := lines.flatMap (· ++ [10])

@[simp] theorem written_nil : written [] = [] := rfl

@[simp] theorem written_cons (line : List UInt8) (lines : List (List UInt8)) :
    written (line :: lines) = line ++ 10 :: written lines := by
  simp [written]

@[simp] theorem written_append (lines lines' : List (List UInt8)) :
    written (lines ++ lines') = written lines ++ written lines' := List.flatMap_append

/-- The name of a header line: what stands before its first colon, without the blanks around it. -/
def nameOf (line : List UInt8) : List Char := trim ((line.map asciiChar).takeWhile (· != ':'))

/-- The value of a header line: what stands behind its first colon, without the blanks around it. -/
def valueOf (line : List UInt8) : List Char :=
  trim (((line.map asciiChar).dropWhile (· != ':')).drop 1)

/-- What a header line adds to a header. -/
def entry (line : List UInt8) : String × String :=
  (String.ofList (lowerCase (nameOf line)), String.ofList (valueOf line))

theorem lineText_eq_nil_iff : lineText line = [] ↔ ∀ b ∈ line, isBlank (asciiChar b) = true := by
  rw [lineText, trim_eq_nil_iff]
  simp

theorem IsHeaderLine.lineText_ne_nil (h : IsHeaderLine line) : lineText line ≠ [] := by
  obtain ⟨b, hb, hnot⟩ := h.holds
  rw [Ne, lineText_eq_nil_iff]
  intro hblank
  rw [hblank b hb] at hnot
  cases hnot

/-- Whether the blanks around a line are taken off first does not matter for its name and value. -/
theorem nameAndValue_trim (cs : List Char) : nameAndValue (trim cs) =
    (String.ofList (lowerCase (trim (cs.takeWhile (· != ':')))),
      String.ofList (trim ((cs.dropWhile (· != ':')).drop 1))) := by
  obtain ⟨before, after, hcs, hbefore, hafter⟩ := exists_trim cs
  have hcolon : isBlank ':' = false := by decide
  have hplain {blanks : List Char} (h : ∀ c ∈ blanks, isBlank c = true) :
      ∀ c ∈ blanks, (c != ':') = true := by
    intro c hc
    rw [bne_iff_ne]
    rintro rfl
    rw [h _ hc] at hcolon
    cases hcolon
  have hboth : trim (cs.takeWhile (· != ':')) = trim ((trim cs).takeWhile (· != ':')) ∧
      trim ((cs.dropWhile (· != ':')).drop 1) =
        trim (((trim cs).dropWhile (· != ':')).drop 1) := by
    generalize trim cs = text at hcs
    subst hcs
    rw [List.takeWhile_append_of_pos (hplain hbefore),
      List.dropWhile_append_of_pos (hplain hbefore)]
    by_cases hmem : ':' ∈ text
    · obtain ⟨name, value, rfl, hname⟩ := List.eq_append_cons_of_mem hmem
      have hname' : ∀ c ∈ name, (c != ':') = true :=
        fun c hc => bne_iff_ne.mpr (ne_of_mem_of_not_mem hc hname)
      rw [List.append_assoc, List.takeWhile_append_of_pos hname',
        List.takeWhile_append_of_pos hname', List.dropWhile_append_of_pos hname',
        List.dropWhile_append_of_pos hname']
      have hvalue : trim ([] ++ (value ++ after)) = trim value :=
        trim_append value (by simp) hafter
      have hbefore' : trim (before ++ (name ++ [])) = trim name :=
        trim_append name hbefore (by simp)
      simp_all
    · have htext : ∀ c ∈ text, (c != ':') = true :=
        fun c hc => bne_iff_ne.mpr (ne_of_mem_of_not_mem hc hmem)
      have hall : ∀ c ∈ text ++ after, (c != ':') = true :=
        List.forall_mem_append.mpr ⟨htext, hplain hafter⟩
      rw [List.takeWhile_eq_self_iff.mpr hall, List.takeWhile_eq_self_iff.mpr htext,
        List.dropWhile_eq_nil_iff.mpr hall, List.dropWhile_eq_nil_iff.mpr htext]
      exact ⟨trim_append text hbefore hafter, rfl⟩
  rw [nameAndValue, hboth.1, hboth.2]

theorem nameAndValue_lineText (line : List UInt8) : nameAndValue (lineText line) = entry line :=
  nameAndValue_trim (line.map asciiChar)

theorem readFrom_of_blank (hne : bytes ≠ []) (hline : line? ended bytes = .ok (some (line, rest)))
    (h : IsBlankLine line) : readFrom ended headers bytes =
      if headers.isEmpty then readFrom ended headers rest else readAfter ended headers rest := by
  rw [readFrom_line hne hline, lineText_eq_nil_iff.mpr h.blank]
  exact if_pos rfl

theorem readFrom_of_header (hne : bytes ≠ []) (hline : line? ended bytes = .ok (some (line, rest)))
    (h : IsHeaderLine line) : readFrom ended headers bytes =
      readFrom ended (headers.put (entry line).1 (entry line).2) rest := by
  rw [readFrom_line hne hline, if_neg (by simpa using h.lineText_ne_nil), nameAndValue_lineText]

/-- Blank lines before a header are skipped. -/
theorem readFrom_skipped {lines : List (List UInt8)} (h : ∀ line ∈ lines, IsBlankLine line)
    (rest : List UInt8) :
    readFrom ended [] (written lines ++ rest) = readFrom ended [] rest := by
  induction lines with
  | nil => rfl
  | cons line lines ih =>
      have hline := h line (.head _)
      rw [written_cons, List.append_assoc, List.cons_append,
        readFrom_of_blank (by simp) (line?_append hline.unbroken hline.short _) hline]
      exact ih fun l hl => h l (.tail _ hl)

/-- Header lines add their names and values, one after the other. -/
theorem readFrom_lines {lines : List (List UInt8)} (h : ∀ line ∈ lines, IsHeaderLine line)
    (headers : Table String) (rest : List UInt8) :
    readFrom ended headers (written lines ++ rest) =
      readFrom ended ((lines.map entry).foldl (fun t e => t.put e.1 e.2) headers) rest := by
  induction lines generalizing headers with
  | nil => rfl
  | cons line lines ih =>
      have hline := h line (.head _)
      rw [written_cons, List.append_assoc, List.cons_append,
        readFrom_of_header (by simp) (line?_append hline.unbroken hline.short _) hline,
        ih fun l hl => h l (.tail _ hl)]
      rfl

/-! ## Headers -/

/-- What stands before a body. -/
structure Header where
  /-- The blank lines at the start. -/
  skipped : List (List UInt8)
  lines : List (List UInt8)
  /-- The blank line at the end. -/
  closing : List UInt8
  skipped_blank : ∀ line ∈ skipped, IsBlankLine line
  lines_header : ∀ line ∈ lines, IsHeaderLine line
  lines_ne_nil : lines ≠ []
  closing_blank : IsBlankLine closing

namespace Header

variable (h : Header)

/-- A header as it is written, up to the newline of its last line. -/
def text : List UInt8 := written h.skipped ++ (written h.lines ++ h.closing)

/-- The names and values of a header. Of two lines with one name the later one counts. -/
def table : Table String := .ofList (h.lines.map entry)

theorem isEmpty_table : h.table.isEmpty = false :=
  Table.isEmpty_ofList (by simpa using h.lines_ne_nil)

theorem read_text (rest : List UInt8) :
    read ended (h.text ++ rest) = readFrom ended h.table (h.closing ++ rest) := by
  rw [read, text, List.append_assoc, List.append_assoc, readFrom_skipped h.skipped_blank,
    readFrom_lines h.lines_header]
  rfl

/-- A header is read as its table, and what follows as its body. -/
theorem read_append (rest : List UInt8) :
    read ended (h.text ++ 10 :: rest) = readAfter ended h.table rest := by
  rw [read_text, readFrom_of_blank (by simp) (line?_append h.closing_blank.unbroken
    h.closing_blank.short rest) h.closing_blank, h.isEmpty_table, if_neg Bool.false_ne_true]

/-- The end of the stream ends the last line of a header as well. -/
theorem read_ended (hclosing : h.closing ≠ []) :
    read true h.text = readAfter true h.table [] := by
  have hread : read true (h.text ++ []) = readFrom true h.table (h.closing ++ []) := h.read_text []
  rw [List.append_nil, List.append_nil] at hread
  rw [hread, readFrom_of_blank hclosing (line?_unfinished h.closing_blank.unbroken
    h.closing_blank.short) h.closing_blank, h.isEmpty_table, if_neg Bool.false_ne_true]

end Header

/-- A stream that has ended starts with a header, and `rest` follows. -/
inductive StartsWith : List UInt8 → Header → List UInt8 → Prop where
  | line (h : Header) (rest : List UInt8) : StartsWith (h.text ++ 10 :: rest) h rest
  /-- The stream ends with the last line of the header, which has no newline. -/
  | ended (h : Header) (hclosing : h.closing ≠ []) : StartsWith h.text h []

theorem StartsWith.read_eq {h : Header} (hstarts : StartsWith bytes h rest) :
    read true bytes = readAfter true h.table rest := by
  cases hstarts with
  | line => exact h.read_append rest
  | ended _ hclosing => exact h.read_ended hclosing

/-- A stream that has ended starts with lines of a header, behind which a line is too long, and the
fault says so. -/
inductive StartsLong : List UInt8 → Fault → Prop where
  | line {skipped lines : List (List UInt8)} {line : List UInt8}
      (hskipped : ∀ line ∈ skipped, IsBlankLine line) (hlines : ∀ line ∈ lines, IsHeaderLine line)
      (hunbroken : 10 ∉ line) (hlong : lineLimit < line.length) (rest : List UInt8) :
      StartsLong (written skipped ++ (written lines ++ (line ++ 10 :: rest))) (.longLine true)
  /-- The stream ends with that line, which has no newline. -/
  | ended {skipped lines : List (List UInt8)} {line : List UInt8}
      (hskipped : ∀ line ∈ skipped, IsBlankLine line) (hlines : ∀ line ∈ lines, IsHeaderLine line)
      (hunbroken : 10 ∉ line) (hlong : lineLimit < line.length) :
      StartsLong (written skipped ++ (written lines ++ line)) (.longLine false)

theorem StartsLong.read_eq {f : Fault} (hstarts : StartsLong bytes f) :
    read true bytes = .failed (.fault f) := by
  cases hstarts with
  | line hskipped hlines hunbroken hlong rest =>
      rw [read, readFrom_skipped hskipped, readFrom_lines hlines]
      apply readFrom_long (by simp)
      rw [line?_eq hunbroken, if_pos hlong]
  | ended hskipped hlines hunbroken hlong =>
      rw [read, readFrom_skipped hskipped, readFrom_lines hlines]
      apply readFrom_long (List.ne_nil_of_length_pos (Nat.zero_lt_of_lt hlong))
      rw [line?_unfinished_eq hunbroken, if_pos hlong]

/-- What a stream that has ended starts with. -/
inductive Opening (bytes : List UInt8) : Prop where
  | blank {lines : List (List UInt8)} {last : List UInt8}
      (hlines : ∀ line ∈ lines, IsBlankLine line) (hlast : IsBlankLine last)
      (hbytes : bytes = written lines ++ last)
  | long {f : Fault} (hstarts : StartsLong bytes f)
  | header {h : Header} {rest : List UInt8} (hstarts : StartsWith bytes h rest)
  /-- The stream ends before the blank line after some header lines. -/
  | cut {skipped lines : List (List UInt8)} {last : List UInt8}
      (hskipped : ∀ line ∈ skipped, IsBlankLine line) (hlines : ∀ line ∈ lines, IsHeaderLine line)
      (hlast : last = [] ∧ lines ≠ [] ∨ IsHeaderLine last)
      (hbytes : bytes = written skipped ++ (written lines ++ last))

theorem isBlankLine_or_isHeaderLine (h : 10 ∉ line) (hshort : line.length ≤ lineLimit) :
    IsBlankLine line ∨ IsHeaderLine line := by
  by_cases hblank : ∀ b ∈ line, isBlank (asciiChar b) = true
  · exact .inl ⟨h, hshort, hblank⟩
  · simp only [not_forall, Bool.not_eq_true] at hblank
    obtain ⟨b, hb, hnot⟩ := hblank
    exact .inr ⟨h, hshort, b, hb, hnot⟩

/-- A stream is cut into its lines; the last one has no newline and may be empty. -/
theorem exists_lines (bytes : List UInt8) : ∃ lines last, bytes = written lines ++ last ∧
    (∀ line ∈ lines, 10 ∉ line) ∧ 10 ∉ last := by
  induction bytes with
  | nil => exact ⟨[], [], rfl, by simp, by simp⟩
  | cons b bytes ih =>
      obtain ⟨lines, last, rfl, hlines, hlast⟩ := ih
      by_cases hb : b = 10
      · exact ⟨[] :: lines, last, by simp [hb], by simpa using hlines, hlast⟩
      · rcases lines with _ | ⟨line, lines⟩
        · exact ⟨[], b :: last, by simp, by simp, by simp [hlast, Ne.symm hb]⟩
        · refine ⟨(b :: line) :: lines, last, by simp, ?_, hlast⟩
          simp only [List.forall_mem_cons] at hlines ⊢
          exact ⟨by simp [hlines.1, Ne.symm hb], hlines.2⟩

/-- The lines of one kind that some lines start with, up to the first one of another kind. -/
theorem exists_prefix (kind : List UInt8 → Prop) [DecidablePred kind] (lines : List (List UInt8)) :
    ∃ before after, lines = before ++ after ∧ (∀ line ∈ before, kind line) ∧
      ∀ line ∈ after.head?, ¬ kind line := by
  induction lines with
  | nil => exact ⟨[], [], rfl, by simp, by simp⟩
  | cons line lines ih =>
      by_cases hline : kind line
      · obtain ⟨before, after, rfl, hbefore, hafter⟩ := ih
        exact ⟨line :: before, after, rfl, List.forall_mem_cons.mpr ⟨hline, hbefore⟩, hafter⟩
      · exact ⟨[], line :: lines, rfl, by simp, by simpa using hline⟩

theorem opening (bytes : List UInt8) : Opening bytes := by
  obtain ⟨all, last, rfl, hunbroken, hlast⟩ := exists_lines bytes
  obtain ⟨skipped, after, rfl, hskipped, hafter⟩ := exists_prefix IsBlankLine all
  obtain ⟨lines, more, rfl, hlines, hmore⟩ := exists_prefix IsHeaderLine after
  rcases more with _ | ⟨closing, more⟩
  · -- No blank line follows the header lines but, perhaps, what is left without a newline.
    rw [List.append_nil, written_append, List.append_assoc]
    by_cases hlong : lineLimit < last.length
    · exact .long (.ended hskipped hlines hlast hlong)
    rcases isBlankLine_or_isHeaderLine hlast (Nat.not_lt.mp hlong) with hblank | hheader
    · rcases eq_or_ne lines [] with rfl | hne
      · exact .blank hskipped hblank rfl
      · rcases eq_or_ne last [] with rfl | hlastne
        · exact .cut hskipped hlines (.inl ⟨rfl, hne⟩) rfl
        · exact .header (.ended ⟨skipped, lines, last, hskipped, hlines, hne, hblank⟩ hlastne)
    · exact .cut hskipped hlines (.inr hheader) rfl
  · have hclosing : 10 ∉ closing := hunbroken closing (by simp)
    by_cases hlong : lineLimit < closing.length
    · have hbytes : written (skipped ++ (lines ++ closing :: more)) ++ last =
          written skipped ++ (written lines ++ (closing ++ 10 :: (written more ++ last))) := by
        simp
      rw [hbytes]
      exact .long (.line hskipped hlines hclosing hlong _)
    have hblank : IsBlankLine closing :=
      (isBlankLine_or_isHeaderLine hclosing (Nat.not_lt.mp hlong)).resolve_right (hmore _ rfl)
    have hne : lines ≠ [] := by
      rintro rfl
      exact hafter _ rfl hblank
    have hbytes : written (skipped ++ (lines ++ closing :: more)) ++ last =
        (written skipped ++ (written lines ++ closing)) ++ 10 :: (written more ++ last) := by
      simp
    rw [hbytes]
    exact .header (.line ⟨skipped, lines, closing, hskipped, hlines, hne, hblank⟩ _)

/-- A stream that holds nothing but blank lines ends without a message. -/
theorem read_blank {lines : List (List UInt8)} {last : List UInt8}
    (hlines : ∀ line ∈ lines, IsBlankLine line) (hlast : IsBlankLine last) :
    read true (written lines ++ last) = .ended := by
  have hend : readFrom true [] [] = .ended := by
    rw [readFrom]
    rfl
  rw [read, readFrom_skipped hlines]
  rcases eq_or_ne last [] with rfl | hne
  · exact hend
  · rw [readFrom_of_blank hne (line?_unfinished hlast.unbroken hlast.short) hlast]
    exact hend

/-- A stream that ends before the blank line after some header lines ends inside a header. -/
theorem read_cut {skipped lines : List (List UInt8)} {last : List UInt8}
    (hskipped : ∀ line ∈ skipped, IsBlankLine line) (hlines : ∀ line ∈ lines, IsHeaderLine line)
    (hlast : last = [] ∧ lines ≠ [] ∨ IsHeaderLine last) :
    read true (written skipped ++ (written lines ++ last)) = .failed (.server .endedInHeader) := by
  rw [read, readFrom_skipped hskipped, readFrom_lines hlines]
  rcases hlast with ⟨rfl, hne⟩ | hheader
  · exact readFrom_nil (Table.isEmpty_ofList (by simpa using hne))
  · have hne : last ≠ [] := by
      obtain ⟨b, hb, -⟩ := hheader.holds
      exact List.ne_nil_of_mem hb
    rw [readFrom_of_header hne (line?_unfinished hheader.unbroken hheader.short) hheader]
    exact readFrom_nil (Table.isEmpty_put _ _ _)

end Wire

end SfcCheck
