import SfcCheck.Text.Ranges

/-!
# Blank characters

White space in the wide sense: the Unicode white space characters together with the four
separators U+001C to U+001F. Trimming and skipping work on lists of characters.
-/

namespace SfcCheck.Text

/-- The ranges of blank characters. -/
def blankRanges : Ranges :=
  [(0x9, 0xd), (0x1c, 0x20), (0x85, 0x85), (0xa0, 0xa0), (0x1680, 0x1680), (0x2000, 0x200a),
   (0x2028, 0x2029), (0x202f, 0x202f), (0x205f, 0x205f), (0x3000, 0x3000)]

/-- Whether a character is blank. -/
def isBlank (c : Char) : Bool := inRanges blankRanges c

/-- The text without the leading characters that satisfy `p`. -/
def trimLeft (p : Char → Bool) (cs : List Char) : List Char := cs.dropWhile p

/-- The text without the trailing characters that satisfy `p`. -/
def trimRight (p : Char → Bool) : List Char → List Char
  | [] => []
  | c :: cs =>
    match trimRight p cs with
    | [] => if p c then [] else [c]
    | r => c :: r

/-- The text without blank characters at either end. -/
def trim (cs : List Char) : List Char := trimRight isBlank (trimLeft isBlank cs)

/-- Trimming on the right only drops characters at the end. -/
theorem trimRight_append (p : Char → Bool) (cs : List Char) :
    ∃ t, cs = trimRight p cs ++ t ∧ ∀ c ∈ t, p c = true := by
  induction cs with
  | nil => exact ⟨[], rfl, by simp⟩
  | cons c cs ih =>
    obtain ⟨t, ht, hp⟩ := ih
    simp only [trimRight]
    split
    · next h =>
      rw [h, List.nil_append] at ht
      split
      · next hc => exact ⟨c :: cs, rfl, by simp_all⟩
      · exact ⟨cs, rfl, by simp_all⟩
    · exact ⟨t, by rw [List.cons_append, ← ht], hp⟩

@[simp] theorem trimRight_nil (p : Char → Bool) : trimRight p [] = [] := rfl

/-- A character that stays keeps all before it. -/
theorem trimRight_concat {p : Char → Bool} {c : Char} (h : p c = false) (cs : List Char) :
    trimRight p (cs ++ [c]) = cs ++ [c] := by
  induction cs with
  | nil => simp [trimRight, h]
  | cons d cs ih =>
    rw [List.cons_append, trimRight, ih]
    split
    · next hnil => simp at hnil
    · rfl

theorem trimLeft_of_head {p : Char → Bool} {c : Char} (h : p c = false) (cs : List Char) :
    trimLeft p (c :: cs) = c :: cs :=
  List.dropWhile_cons_of_neg (by simp [h])

/-! ## Runs of characters

What satisfies `p` is taken up to the end of a run, and what follows the run is left.
-/

section Runs

variable {p : Char → Bool} {cs rest : List Char}

theorem takeWhile_append_of_boundary (hcs : ∀ c ∈ cs, p c = true)
    (hrest : ∀ c ∈ rest.head?, p c = false) : (cs ++ rest).takeWhile p = cs := by
  rw [List.takeWhile_append_of_pos hcs]
  cases rest with
  | nil => simp
  | cons c rest => simp [hrest c rfl]

theorem dropWhile_append_of_boundary (hcs : ∀ c ∈ cs, p c = true)
    (hrest : ∀ c ∈ rest.head?, p c = false) : (cs ++ rest).dropWhile p = rest := by
  rw [List.dropWhile_append_of_pos hcs]
  cases rest with
  | nil => rfl
  | cons c rest => simp [hrest c rfl]

/-- What is trimmed anyway makes no difference. -/
theorem trimLeft_append (hcs : ∀ c ∈ cs, p c = true) (rest : List Char) :
    trimLeft p (cs ++ rest) = trimLeft p rest :=
  List.dropWhile_append_of_pos hcs

theorem trimRight_of_forall (hrest : ∀ c ∈ rest, p c = true) : trimRight p rest = [] := by
  induction rest with
  | nil => rfl
  | cons c rest ih =>
      rw [trimRight, ih fun d hd => hrest d (.tail _ hd)]
      exact if_pos (hrest c (.head _))

theorem trimRight_append_of_forall (cs : List Char) (hrest : ∀ c ∈ rest, p c = true) :
    trimRight p (cs ++ rest) = trimRight p cs := by
  induction cs with
  | nil => rw [List.nil_append, trimRight_of_forall hrest, trimRight_nil]
  | cons c cs ih => rw [List.cons_append, trimRight, ih, trimRight]

theorem trimRight_concat_of_blank {c : Char} (h : p c = true) (cs : List Char) :
    trimRight p (cs ++ [c]) = trimRight p cs :=
  trimRight_append_of_forall cs (by simpa using h)

end Runs

/-- A text that starts with a character that stays is not trimmed away. -/
theorem trim_ne_nil {c : Char} (h : isBlank c = false) (cs : List Char) : trim (c :: cs) ≠ [] := by
  rw [trim, trimLeft_of_head h, trimRight]
  split
  · simp [h]
  · simp

end SfcCheck.Text
