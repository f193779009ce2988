import Mathlib.Data.List.DropRight
import SfcCheck.Document

/-!
# Lines

A line of a document is a stretch of its text without newlines that the text cannot go on with on
either side: before it stands nothing or a newline, and so it does after it. Cut around its `i`th
line, the text says where the table of line starts has its `i`th entry and the next one. From this
follow what is read of a line and where its characters are found.
-/

namespace SfcCheck.Document

/-! ## Where lines start -/

theorem startsAfterNewlines_append (o : Nat) (cs ds : List Char) :
    startsAfterNewlines o (cs ++ ds) =
      startsAfterNewlines o cs ++ startsAfterNewlines (o + cs.length) ds := by
  induction cs generalizing o with
  | nil => rfl
  | cons c cs ih =>
      have hlength : o + (c :: cs).length = o + 1 + cs.length := by
        simp only [List.length_cons]
        omega
      rw [List.cons_append, startsAfterNewlines, startsAfterNewlines, ih, hlength]
      split <;> rfl

theorem length_startsAfterNewlines (o : Nat) (cs : List Char) :
    (startsAfterNewlines o cs).length = cs.count '\n' := by
  induction cs generalizing o with
  | nil => rfl
  | cons c cs ih =>
      rw [startsAfterNewlines]
      by_cases hc : c = '\n'
      · rw [if_pos hc, hc, List.length_cons, ih, List.count_cons_self]
      · rw [if_neg hc, ih, List.count_cons_of_ne hc]

theorem startsAfterNewlines_of_not_mem {cs : List Char} (h : '\n' ∉ cs) (o : Nat) :
    startsAfterNewlines o cs = [] := by
  rw [← List.length_eq_zero_iff, length_startsAfterNewlines]
  exact List.count_eq_zero_of_not_mem h

theorem lineCount_eq (d : Document) : d.lineCount = d.text.toList.count '\n' + 1 := by
  rw [lineCount, lineStarts, List.length_cons, length_startsAfterNewlines]

/-! ## The text around a line -/

/-- The text of a document around its `i`th line. -/
structure HasLine (d : Document) (i : Nat) (before line after : List Char) : Prop where
  text : d.text.toList = before ++ line ++ after
  count : before.count '\n' = i
  unbroken : '\n' ∉ line
  starts : before = [] ∨ ∃ front, before = front ++ ['\n']
  ends : after = [] ∨ ∃ rest, after = '\n' :: rest

/-- A text goes on without newlines up to its end or to a newline. -/
theorem exists_line (cs : List Char) :
    ∃ line after, cs = line ++ after ∧ '\n' ∉ line ∧
      (after = [] ∨ ∃ rest, after = '\n' :: rest) := by
  refine ⟨cs.takeWhile (· != '\n'), cs.dropWhile (· != '\n'),
    List.takeWhile_append_dropWhile.symm, ?_, ?_⟩
  · intro hmem
    simpa using List.mem_takeWhile_imp hmem
  · cases hafter : cs.dropWhile (· != '\n') with
    | nil => exact .inl rfl
    | cons c rest =>
        have hc := List.head?_dropWhile_not (· != '\n') cs
        rw [hafter] at hc
        refine .inr ⟨rest, ?_⟩
        simpa using hc

variable {d : Document} {i : Nat} {before line after : List Char}

/-- What follows a newline is the next line. -/
theorem HasLine.exists_next {rest : List Char} (h : HasLine d i before line ('\n' :: rest)) :
    ∃ before line after, HasLine d (i + 1) before line after := by
  obtain ⟨next, after, hrest, hunbroken, hends⟩ := exists_line rest
  refine ⟨before ++ line ++ ['\n'], next, after, ?_, ?_, hunbroken, .inr ⟨_, rfl⟩, hends⟩
  · rw [h.text, hrest]
    simp only [List.append_assoc, List.cons_append, List.nil_append]
  · rw [List.count_append, List.count_append, h.count, List.count_eq_zero_of_not_mem h.unbroken]
    rfl

/-- A document has all the lines that it counts. -/
theorem exists_hasLine (h : i < d.lineCount) :
    ∃ before line after, HasLine d i before line after := by
  induction i with
  | zero =>
      obtain ⟨line, after, htext, hunbroken, hends⟩ := exists_line d.text.toList
      exact ⟨[], line, after, htext, rfl, hunbroken, .inl rfl, hends⟩
  | succ i ih =>
      obtain ⟨before, line, after, hline⟩ := ih (by omega)
      rcases hline.ends with rfl | ⟨rest, rfl⟩
      · -- all newlines stand before the line, so it is the last one
        rw [lineCount_eq, hline.text, List.append_nil, List.count_append, hline.count,
          List.count_eq_zero_of_not_mem hline.unbroken] at h
        omega
      · exact hline.exists_next

/-! ## The table of line starts -/

/-- The last line that starts in what stands before a line is that line. -/
theorem HasLine.getElem?_starts (h : HasLine d i before line after) :
    (0 :: startsAfterNewlines 0 before)[i]? = some before.length := by
  have hcount := h.count
  rcases h.starts with rfl | ⟨front, rfl⟩
  · rw [← hcount]
    rfl
  · rw [List.count_append, List.count_singleton_self] at hcount
    have hlast : startsAfterNewlines 0 (front ++ ['\n']) =
        startsAfterNewlines 0 front ++ [front.length + 1] := by
      rw [startsAfterNewlines_append, Nat.zero_add]
      rfl
    have hlength := length_startsAfterNewlines 0 front
    rw [hlast, ← hcount, List.getElem?_cons_succ, ← hlength, List.getElem?_concat_length,
      List.length_append]
    rfl

theorem HasLine.lineStarts_eq (h : HasLine d i before line after) :
    d.lineStarts = (0 :: startsAfterNewlines 0 before) ++
      startsAfterNewlines (before.length + line.length) after := by
  rw [lineStarts, h.text, startsAfterNewlines_append, startsAfterNewlines_append,
    startsAfterNewlines_of_not_mem h.unbroken, List.append_nil, List.length_append, Nat.zero_add,
    List.cons_append]

/-- A line reaches from where it starts over its newline, if it has one. -/
theorem HasLine.lineBounds?_eq (h : HasLine d i before line after) :
    d.lineBounds? i =
      some (before.length, before.length + line.length + (after.take 1).length) := by
  have hlength : (0 :: startsAfterNewlines 0 before).length = i + 1 := by
    rw [List.length_cons, length_startsAfterNewlines, h.count]
  have hstart : d.lineStarts[i]? = some before.length := by
    rw [h.lineStarts_eq, List.getElem?_append_left (by omega), h.getElem?_starts]
  have hnext : d.lineStarts[i + 1]? =
      (startsAfterNewlines (before.length + line.length) after)[0]? := by
    rw [h.lineStarts_eq, List.getElem?_append_right (by omega), hlength, Nat.sub_self]
  rw [lineBounds?, hstart, hnext]
  rcases h.ends with rfl | ⟨rest, rfl⟩
  · have hsize : d.size = before.length + line.length := by
      rw [size, ← String.length_toList, h.text, List.append_nil, List.length_append]
    simp [startsAfterNewlines, hsize]
  · simp [startsAfterNewlines]

/-! ## What is read of a line -/

/-- Of a line without its newline, only carriage returns are trimmed. -/
theorem trimRight_of_unbroken {cs : List Char} (h : '\n' ∉ cs) :
    Text.trimRight isTerminator cs = cs.rdropWhile (· == '\r') := by
  induction cs using List.reverseRecOn with
  | nil => rfl
  | append_singleton cs c ih =>
      simp only [List.mem_append, List.mem_singleton, not_or] at h
      obtain ⟨hcs, hc⟩ := h
      by_cases hreturn : c = '\r'
      · subst hreturn
        rw [Text.trimRight_concat_of_blank rfl, List.rdropWhile_concat_pos _ _ _ rfl, ih hcs]
      · have hkept : isTerminator c = false := by
          simp [isTerminator, hreturn, Ne.symm hc]
        rw [Text.trimRight_concat hkept, List.rdropWhile_concat_neg _ _ _ (by simpa using hreturn)]

theorem HasLine.getLine_eq (h : HasLine d i before line after) :
    d.getLine i = .ok (String.ofList (line.rdropWhile (· == '\r'))) := by
  have hslice : (d.text.toList.drop before.length).take
      (before.length + line.length + (after.take 1).length - before.length) =
        line ++ after.take 1 := by
    have hsplit : line ++ after = (line ++ after.take 1) ++ after.drop 1 := by
      rw [List.append_assoc, List.take_append_drop]
    rw [h.text, List.append_assoc, List.drop_left, Nat.add_assoc, Nat.add_sub_cancel_left,
      ← List.length_append, hsplit, List.take_left]
  have hends : ∀ c ∈ after.take 1, isTerminator c = true := by
    rcases h.ends with rfl | ⟨rest, rfl⟩
    · simp
    · simp [isTerminator]
  have hsign : ¬ (i : Int) < 0 := by omega
  rw [getLine, if_neg hsign, Int.toNat_natCast, h.lineBounds?_eq]
  show Except.ok _ = _
  rw [hslice, Text.trimRight_append_of_forall _ hends, trimRight_of_unbroken h.unbroken]

theorem lineBounds?_of_beyond {n : Int} (h : d.lineCount ≤ n) : d.lineBounds? n.toNat = none := by
  have hnone : d.lineStarts[n.toNat]? = none := by
    apply List.getElem?_eq_none
    show d.lineCount ≤ n.toNat
    omega
  rw [lineBounds?, hnone]

theorem getLine_of_outside {n : Int} (h : n < 0 ∨ d.lineCount ≤ n) :
    d.getLine n = .error ⟨n, d.lineCount⟩ := by
  rw [getLine]
  split
  · rfl
  · rw [lineBounds?_of_beyond (by omega)]

/-! ## Where the characters of a line are -/

/-- An offset is clamped to the line of its position. -/
theorem HasLine.offsetAt_clamped (h : HasLine d i before line after) (c : Int) :
    (d.offsetAt ⟨i, c⟩ : Int) =
      max (min (before.length + c) (before.length + line.length + (after.take 1).length))
        before.length := by
  have hsign : ¬ (i : Int) < 0 := by omega
  rw [offsetAt, if_neg hsign, Int.toNat_natCast, h.lineBounds?_eq]
  show ((max (min _ _) _ : Int).toNat : Int) = _
  push_cast
  omega

/-- A column of a line is found in the text as far behind the start of the line. -/
theorem HasLine.offsetAt_eq (h : HasLine d i before line after) {c : Nat} (hc : c ≤ line.length) :
    d.offsetAt ⟨i, c⟩ = before.length + c := by
  have hclamped := h.offsetAt_clamped c
  omega

theorem length_splitOn (c : Char) (cs : List Char) : (cs.splitOn c).length = cs.count c + 1 := by
  induction cs with
  | nil => rfl
  | cons d cs ih =>
      rw [List.splitOn_cons_eq_if_modifyHead]
      by_cases hd : d = c
      · subst hd
        rw [if_pos (beq_self_eq_true d), List.length_cons, ih, List.count_cons_self]
      · rw [if_neg (by simpa using hd), List.length_modifyHead, ih, List.count_cons_of_ne hd]

/-- The pieces of the text between newlines are its lines. -/
theorem HasLine.getElem?_splitOn (h : HasLine d i before line after) :
    (d.text.toList.splitOn '\n')[i]? = some line := by
  have hline : ∃ lines, (line ++ after).splitOn '\n' = line :: lines := by
    rcases h.ends with rfl | ⟨rest, rfl⟩
    · exact ⟨[], by rw [List.append_nil, List.splitOn_eq_singleton h.unbroken]⟩
    · exact ⟨_, List.splitOn_append_cons_self_of_not_mem h.unbroken rest⟩
  obtain ⟨lines, hlines⟩ := hline
  have hcount := h.count
  rw [h.text, List.append_assoc]
  rcases h.starts with rfl | ⟨front, rfl⟩
  · rw [← hcount, List.nil_append, hlines]
    rfl
  · rw [List.count_append, List.count_singleton_self] at hcount
    rw [List.append_assoc, List.singleton_append, List.splitOn_append_cons_self, hlines, ← hcount,
      ← length_splitOn, List.getElem?_append_right (Nat.le_refl _), Nat.sub_self]
    rfl

/-- What is read of a line at a column is the character of the text at the column's offset. -/
theorem HasLine.exists_char {code : String} (h : HasLine d i before line after)
    (hcode : d.getLine i = .ok code) {c : Nat} (hc : c < code.length) :
    ∃ x, code.toList[c]? = some x ∧ d.text.toList[d.offsetAt ⟨i, c⟩]? = some x := by
  have hread : code.toList = line.rdropWhile (· == '\r') := by
    rw [h.getLine_eq, Except.ok.injEq] at hcode
    rw [← hcode, String.toList_ofList]
  obtain ⟨returns, hline⟩ := List.rdropWhile_prefix (· == '\r') line
  rw [← hread] at hline
  rw [← String.length_toList] at hc
  have hcolumn : c < line.length := by
    rw [← hline, List.length_append]
    omega
  refine ⟨code.toList[c], List.getElem?_eq_getElem hc, ?_⟩
  rw [h.offsetAt_eq (Nat.le_of_lt hcolumn), h.text, List.append_assoc,
    List.getElem?_append_right (Nat.le_add_right _ _), Nat.add_sub_cancel_left,
    List.getElem?_append_left hcolumn, ← hline, List.getElem?_append_left hc,
    List.getElem?_eq_getElem hc]

/-- A document has one line more than newlines. Its lines are the pieces of its text between the
newlines without the carriage returns at their ends, and it has no other lines. The characters of a
line are those of the text at the offsets of its columns. -/
theorem lines_agree_with_offsets (d : Document) :
    d.lineCount = d.text.toList.count '\n' + 1 ∧
    (∀ n : Int, n < 0 ∨ d.lineCount ≤ n → d.getLine n = .error ⟨n, d.lineCount⟩) ∧
    ∀ i < d.lineCount, ∃ piece code,
      (d.text.toList.splitOn '\n')[i]? = some piece ∧ d.getLine i = .ok code ∧
      code.toList = piece.rdropWhile (· == '\r') ∧
      ∀ c < code.length,
        ∃ x, code.toList[c]? = some x ∧ d.text.toList[d.offsetAt ⟨i, c⟩]? = some x := by
  refine ⟨d.lineCount_eq, fun n => getLine_of_outside, ?_⟩
  intro i hi
  obtain ⟨before, line, after, hline⟩ := exists_hasLine hi
  refine ⟨line, _, hline.getElem?_splitOn, hline.getLine_eq, String.toList_ofList, ?_⟩
  intro c hc
  exact hline.exists_char hline.getLine_eq hc

/-- A document with both kinds of line ends and with carriage returns within a line. -/
def mixedEnds : Document := ⟨"file:///a.vue", "vue", 0, "a\r\n\rb\r\r\n"⟩

/-- Of its second line only the carriage returns at the end are dropped. -/
theorem lines_agree_with_offsets_mixed :
    mixedEnds.lineCount = 3 ∧ mixedEnds.getLine (-1) = .error ⟨-1, 3⟩ ∧
    (mixedEnds.text.toList.splitOn '\n')[1]? = some ['\r', 'b', '\r', '\r'] ∧
    mixedEnds.getLine 1 = .ok "\rb" ∧
    ∃ x, "\rb".toList[1]? = some x ∧
      mixedEnds.text.toList[mixedEnds.offsetAt ⟨1, 1⟩]? = some x := by
  obtain ⟨hcount, houtside, hlines⟩ := lines_agree_with_offsets mixedEnds
  obtain ⟨piece, code, hpiece, hcode, -, hchars⟩ := hlines 1 (by decide)
  have hread : "\rb" = code := Except.ok.inj hcode
  subst hread
  exact ⟨hcount, houtside (-1) (by decide), rfl, hcode, hchars 1 (by decide)⟩

end SfcCheck.Document
