import SfcCheck.Proofs.Document.Lines

/-!
# Positions and offsets

Every line of a document starts within it, so the offset of a position never lies outside, wherever
the position does. Positions are read line by line: a position that comes later has no smaller
offset. Each offset has a position of its own, the newlines before it and the characters since the
last of them, and is the offset of that position.
-/

namespace SfcCheck.Document

theorem startsAfterNewlines_le {o p : Nat} {cs : List Char} (h : p ∈ startsAfterNewlines o cs) :
    p ≤ o + cs.length := by
  induction cs generalizing o with
  | nil => simp [startsAfterNewlines] at h
  | cons c cs ih =>
      have next : p ∈ startsAfterNewlines (o + 1) cs → p ≤ o + (c :: cs).length := by
        intro hp
        have := ih hp
        simp only [List.length_cons]
        omega
      simp only [startsAfterNewlines] at h
      split at h
      · rcases List.mem_cons.mp h with rfl | h
        · simp only [List.length_cons]
          omega
        · exact next h
      · exact next h

theorem lineStarts_le_size {d : Document} {p : Nat} (h : p ∈ d.lineStarts) : p ≤ d.size := by
  rcases List.mem_cons.mp h with rfl | h
  · exact Nat.zero_le _
  · have hp := startsAfterNewlines_le h
    rwa [Nat.zero_add, String.length_toList] at hp

theorem lineBounds?_le_size {d : Document} {line start stop : Nat}
    (h : d.lineBounds? line = some (start, stop)) : start ≤ d.size ∧ stop ≤ d.size := by
  simp only [lineBounds?] at h
  split at h
  · cases h
  · next first hfirst =>
      obtain ⟨rfl, rfl⟩ := Prod.mk.injEq .. ▸ Option.some.inj h
      refine ⟨lineStarts_le_size (List.mem_of_getElem? hfirst), ?_⟩
      cases hnext : d.lineStarts[line + 1]? with
      | none => exact Nat.le_refl _
      | some next => exact lineStarts_le_size (List.mem_of_getElem? hnext)

/-- The clamped offset of any position lies in the document. -/
theorem offsetAt_le_size (d : Document) (p : Position) : d.offsetAt p ≤ d.size := by
  simp only [offsetAt]
  split
  · exact Nat.zero_le _
  · split
    · exact Nat.le_refl _
    · next start stop h =>
        obtain ⟨hstart, hstop⟩ := lineBounds?_le_size h
        omega

/-- A line can be had just if the document has it. -/
theorem exists_getLine_iff {d : Document} {line : Int} :
    (∃ code, d.getLine line = .ok code) ↔ 0 ≤ line ∧ line < d.lineCount := by
  have hbounds : d.lineBounds? line.toNat = none ↔ d.lineCount ≤ line.toNat := by
    rw [lineBounds?, lineCount, ← List.getElem?_eq_none_iff]
    split <;> simp_all
  rw [getLine]
  by_cases hline : line < 0
  · rw [if_pos hline]
    constructor
    · rintro ⟨code, h⟩
      cases h
    · intro h
      omega
  · rw [if_neg hline]
    cases hlookup : d.lineBounds? line.toNat with
    | none =>
        have hcount := hbounds.mp hlookup
        constructor
        · rintro ⟨code, h⟩
          cases h
        · intro h
          omega
    | some bounds =>
        have hcount : ¬ d.lineCount ≤ line.toNat := by
          rw [← hbounds, hlookup]
          exact Option.some_ne_none bounds
        constructor
        · intro _
          omega
        · intro _
          exact ⟨_, rfl⟩

/-! ## Positions in reading order -/

/-- Positions in the order in which they are read: by lines, within a line by characters. -/
instance : LE Position where
  le p q := p.line < q.line ∨ p.line = q.line ∧ p.character ≤ q.character

theorem offsetAt_of_negative {d : Document} {p : Position} (h : p.line < 0) : d.offsetAt p = 0 := by
  rw [offsetAt, if_pos h]

theorem offsetAt_of_beyond {d : Document} {p : Position} (h : d.lineCount ≤ p.line) :
    d.offsetAt p = d.size := by
  have hsign : ¬ p.line < 0 := by omega
  rw [offsetAt, if_neg hsign, lineBounds?_of_beyond h]

/-- A line ends, its newline included, before any later one starts. -/
theorem HasLine.end_le {d : Document} {i j : Nat} {before line after : List Char}
    {before' line' after' : List Char} (h : HasLine d i before line after)
    (h' : HasLine d j before' line' after') (hij : i < j) :
    before.length + line.length + (after.take 1).length ≤ before'.length := by
  have hlonger : (before ++ line).length < before'.length := by
    by_contra hle
    -- else the later line would have no more newlines before it than the earlier one
    have hearlier : before ++ line <+: d.text.toList := ⟨after, h.text.symm⟩
    have hlater : before' <+: d.text.toList :=
      ⟨line' ++ after', by rw [h'.text, List.append_assoc]⟩
    have hwithin := List.prefix_of_prefix_length_le hlater hearlier (Nat.not_lt.mp hle)
    have hcount := hwithin.sublist.count_le '\n'
    rw [h'.count, List.count_append, h.count, List.count_eq_zero_of_not_mem h.unbroken] at hcount
    omega
  have hnewline : (after.take 1).length ≤ 1 := List.length_take_le 1 after
  rw [List.length_append] at hlonger
  omega

/-- A later position has no smaller offset. -/
theorem offsetAt_mono {d : Document} {p q : Position} (h : p ≤ q) :
    d.offsetAt p ≤ d.offsetAt q := by
  by_cases hp : p.line < 0
  · rw [offsetAt_of_negative hp]
    exact Nat.zero_le _
  by_cases hq : d.lineCount ≤ q.line
  · rw [offsetAt_of_beyond hq]
    exact offsetAt_le_size d p
  -- both lines are in the document, so both offsets are clamped to their lines
  obtain ⟨line, c⟩ := p
  obtain ⟨line', c'⟩ := q
  obtain ⟨i, rfl⟩ := Int.eq_ofNat_of_zero_le (Int.not_lt.mp hp)
  change (i : Int) < line' ∨ (i : Int) = line' ∧ c ≤ c' at h
  obtain ⟨j, rfl⟩ := Int.eq_ofNat_of_zero_le (a := line') (by omega)
  dsimp only at hp hq
  obtain ⟨before, text, after, hi⟩ := exists_hasLine (d := d) (i := i) (by omega)
  have hfirst := hi.offsetAt_clamped c
  rcases h with hlines | ⟨hlines, hcolumns⟩
  · obtain ⟨before', text', after', hj⟩ := exists_hasLine (d := d) (i := j) (by omega)
    have hsecond := hj.offsetAt_clamped c'
    have hend := hi.end_le hj (by omega)
    omega
  · obtain rfl : i = j := by omega
    have hsecond := hi.offsetAt_clamped c'
    omega

/-! ## The position of an offset -/

/-- The position of an offset: the newlines before it, and the characters since the last of them. -/
def positionAt (d : Document) (o : Nat) : Position :=
  let before := d.text.toList.take o
  ⟨before.count '\n', (before.rtakeWhile (· != '\n')).length⟩

/-- The line of an offset starts behind the last newline before it. -/
theorem exists_hasLine_of_offset (d : Document) (o : Nat) :
    ∃ line after, HasLine d ((d.text.toList.take o).count '\n')
        ((d.text.toList.take o).rdropWhile (· != '\n')) line after ∧
      ((d.text.toList.take o).rtakeWhile (· != '\n')).length ≤ line.length := by
  obtain ⟨next, after, hrest, hnext, hends⟩ := exists_line (d.text.toList.drop o)
  have htext : d.text.toList = d.text.toList.take o ++ d.text.toList.drop o :=
    (List.take_append_drop o _).symm
  generalize d.text.toList.take o = read at htext ⊢
  have hread : read.rdropWhile (· != '\n') ++ read.rtakeWhile (· != '\n') = read :=
    List.rdropWhile_append_rtakeWhile
  have hcolumn : '\n' ∉ read.rtakeWhile (· != '\n') := by
    intro hmem
    simpa using List.mem_rtakeWhile_imp hmem
  refine ⟨read.rtakeWhile (· != '\n') ++ next, after, ⟨?_, ?_, ?_, ?_, hends⟩, ?_⟩
  · rw [← List.append_assoc, hread, List.append_assoc, ← hrest]
    exact htext
  · conv_rhs => rw [← hread]
    rw [List.count_append, List.count_eq_zero_of_not_mem hcolumn, Nat.add_zero]
  · rw [List.mem_append, not_or]
    exact ⟨hcolumn, hnext⟩
  · by_cases hnil : read.rdropWhile (· != '\n') = []
    · exact .inl hnil
    · have hlast := List.rdropWhile_last_not (· != '\n') read hnil
      have hnewline : (read.rdropWhile (· != '\n')).getLast hnil = '\n' := by simpa using hlast
      have hsplit := List.dropLast_append_getLast hnil
      rw [hnewline] at hsplit
      exact .inr ⟨_, hsplit.symm⟩
  · rw [List.length_append]
    exact Nat.le_add_right _ _

theorem offsetAt_positionAt {d : Document} {o : Nat} (h : o ≤ d.size) :
    d.offsetAt (d.positionAt o) = o := by
  obtain ⟨line, after, hline, hcolumn⟩ := d.exists_hasLine_of_offset o
  have hlength := congrArg List.length
    (List.rdropWhile_append_rtakeWhile (p := (· != '\n')) (l := d.text.toList.take o))
  rw [List.length_append, List.length_take, String.length_toList, ← size,
    Nat.min_eq_left h] at hlength
  rw [positionAt, hline.offsetAt_eq hcolumn, hlength]

/-- Offsets lie in the document and follow the order of the positions, and each offset is that of
its own position. -/
theorem offsetAt_bounded_mono_inverse (d : Document) :
    (∀ p, d.offsetAt p ≤ d.size) ∧ (∀ p q, p ≤ q → d.offsetAt p ≤ d.offsetAt q) ∧
    ∀ o ≤ d.size, d.offsetAt (d.positionAt o) = o :=
  ⟨d.offsetAt_le_size, fun _ _ => offsetAt_mono, fun _ => offsetAt_positionAt⟩

/-- A character far behind the first line and one far before the second have the same offset, and
the last character of the second line has the position that one expects. -/
theorem offsetAt_bounded_mono_inverse_clamped :
    let d : Document := ⟨"file:///a.vue", "vue", 0, "ab\ncde\nf"⟩
    (⟨0, 99⟩ : Position) ≤ ⟨1, -5⟩ ∧ d.offsetAt ⟨0, 99⟩ ≤ d.offsetAt ⟨1, -5⟩ ∧
    d.offsetAt ⟨0, 99⟩ = 3 ∧ 5 ≤ d.size ∧ d.positionAt 5 = ⟨1, 2⟩ ∧
    d.offsetAt (d.positionAt 5) = 5 := by
  intro d
  have horder : (⟨0, 99⟩ : Position) ≤ ⟨1, -5⟩ := .inl (by decide)
  have hsize : 5 ≤ d.size := by decide
  obtain ⟨-, hmono, hinverse⟩ := offsetAt_bounded_mono_inverse d
  exact ⟨horder, hmono _ _ horder, by decide, hsize, by decide, hinverse 5 hsize⟩

end SfcCheck.Document
