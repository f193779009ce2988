import Mathlib.Algebra.Group.Nat.Defs
import Mathlib.Data.List.TakeDrop
import Mathlib.Data.List.TakeWhile
import SfcCheck.Json.Parser
import SfcCheck.Json.Printer

/-!
# Numbers and words are read as they were written

A number ends where nothing more of it can follow, so it is read in the middle of a text as it is
read alone, as long as the text goes on as a list or an object does.
-/

namespace SfcCheck.Json

/-- Whether a value that is no string, list or object may end before a character: before blanks and
before what closes or goes on with a list or an object. -/
def isEnding (c : Char) : Bool := isSpace c || c == ',' || c == ']' || c == '}'

/-- What may follow a value. -/
inductive Ends : List Char → Prop where
  | nil : Ends []
  | cons {c : Char} (h : isEnding c = true) (t : List Char) : Ends (c :: t)

variable {cs rest t : List Char} {v : Json}

@[elab_as_elim]
theorem Ends.of_each {motive : List Char → Prop} (h : Ends t) (nil : motive [])
    (mark : ∀ t, motive (',' :: t) ∧ motive (']' :: t) ∧ motive ('}' :: t))
    (blank : ∀ t, motive (' ' :: t) ∧ motive ('\t' :: t) ∧ motive ('\n' :: t) ∧
      motive ('\r' :: t)) : motive t := by
  cases h with
  | nil => exact nil
  | cons h t =>
      simp only [isEnding, isSpace, Bool.or_eq_true, beq_iff_eq] at h
      obtain ⟨hcomma, hbracket, hbrace⟩ := mark t
      obtain ⟨hspace, htab, hnewline, hreturn⟩ := blank t
      rcases h with (((((rfl | rfl) | rfl) | rfl) | rfl) | rfl) | rfl <;> assumption

theorem Ends.takeWhile_isDigit (h : Ends t) (cs : List Char) :
    (cs ++ t).takeWhile Char.isDigit = cs.takeWhile Char.isDigit := by
  induction cs with
  | nil => exact h.of_each rfl (fun _ => ⟨rfl, rfl, rfl⟩) fun _ => ⟨rfl, rfl, rfl, rfl⟩
  | cons c cs ih =>
      rw [List.cons_append, List.takeWhile_cons, List.takeWhile_cons, ih]

theorem Ends.dropWhile_isDigit (h : Ends t) (cs : List Char) :
    (cs ++ t).dropWhile Char.isDigit = cs.dropWhile Char.isDigit ++ t := by
  induction cs with
  | nil => exact h.of_each rfl (fun _ => ⟨rfl, rfl, rfl⟩) fun _ => ⟨rfl, rfl, rfl, rfl⟩
  | cons c cs ih =>
      rw [List.cons_append, List.dropWhile_cons, List.dropWhile_cons, ih]
      split <;> rfl

theorem spanDigits_eq (cs : List Char) :
    spanDigits cs = (cs.takeWhile Char.isDigit, cs.dropWhile Char.isDigit) :=
  List.span_eq_takeWhile_dropWhile _ cs

theorem spanDigits_append (h : Ends t) (cs : List Char) :
    spanDigits (cs ++ t) = ((spanDigits cs).1, (spanDigits cs).2 ++ t) := by
  rw [spanDigits_eq, spanDigits_eq, h.takeWhile_isDigit, h.dropWhile_isDigit]

theorem fraction_append (h : Ends t) (cs : List Char) :
    fraction (cs ++ t) = (fraction cs).map fun r => (r.1, r.2 ++ t) := by
  cases cs with
  | nil => exact h.of_each rfl (fun _ => ⟨rfl, rfl, rfl⟩) fun _ => ⟨rfl, rfl, rfl, rfl⟩
  | cons c cs =>
      by_cases hc : c = '.'
      · subst hc
        rcases hspan : spanDigits cs with ⟨_ | ⟨d, ds⟩, rest⟩
        · simp [fraction, spanDigits_append h, hspan]
        · simp [fraction, spanDigits_append h, hspan]
      · simp [fraction, hc]

theorem splitSign_append (h : Ends t) (cs : List Char) :
    splitSign (cs ++ t) = ((splitSign cs).1, (splitSign cs).2 ++ t) := by
  rcases cs with _ | ⟨c, cs⟩
  · exact h.of_each rfl (fun _ => ⟨rfl, rfl, rfl⟩) fun _ => ⟨rfl, rfl, rfl, rfl⟩
  · by_cases hminus : c = '-'
    · subst hminus
      rfl
    · by_cases hplus : c = '+'
      · subst hplus
        rfl
      · simp [splitSign, hminus, hplus]

theorem exponent_append (h : Ends t) (cs : List Char) :
    exponent (cs ++ t) = (exponent cs).map fun r => (r.1, r.2 ++ t) := by
  rcases cs with _ | ⟨c, cs⟩
  · exact h.of_each rfl (fun _ => ⟨rfl, rfl, rfl⟩) fun _ => ⟨rfl, rfl, rfl, rfl⟩
  · by_cases hc : c = 'e' ∨ c = 'E'
    · simp only [List.cons_append, exponent, if_pos hc, splitSign_append h, spanDigits_append h]
      rcases hspan : spanDigits (splitSign cs).2 with ⟨_ | ⟨d, ds⟩, rest⟩ <;> rfl
    · simp only [List.cons_append, exponent, if_neg hc, Option.map_none]

theorem wholeDigits_append (h : Ends t) (cs : List Char) :
    wholeDigits (cs ++ t) = ((wholeDigits cs).1, (wholeDigits cs).2 ++ t) := by
  rcases cs with _ | ⟨c, cs⟩
  · exact h.of_each rfl (fun _ => ⟨rfl, rfl, rfl⟩) fun _ => ⟨rfl, rfl, rfl, rfl⟩
  · by_cases hc : c = '0'
    · subst hc
      rfl
    · have hspan := spanDigits_append h (c :: cs)
      simp only [List.cons_append] at hspan
      simp [wholeDigits, hc, hspan]

/-- A number is read in front of what may follow it as it is read by itself. -/
theorem unsigned_append {start start' : List Char} {negative : Bool} (h : Ends t)
    (hread : unsigned start negative cs = .ok (v, rest)) :
    unsigned start' negative (cs ++ t) = .ok (v, rest ++ t) := by
  unfold unsigned at hread ⊢
  rw [wholeDigits_append h]
  generalize wholeDigits cs = whole at hread
  obtain ⟨_ | ⟨d, ds⟩, after⟩ := whole
  · cases hread
  · dsimp only at hread ⊢
    rw [fraction_append h]
    generalize fraction after = part at hread
    obtain _ | ⟨fs, after'⟩ := part
    · dsimp only [Option.map] at hread ⊢
      rw [exponent_append h]
      generalize exponent after = power at hread
      obtain _ | ⟨e, after'⟩ := power
      · dsimp only [Option.map] at hread ⊢
        split at hread
        · cases hread
        · next hdigits =>
            cases hread
            rw [if_neg hdigits]
      · cases hread
        rfl
    · dsimp only [Option.map] at hread ⊢
      rw [exponent_append h]
      generalize exponent after' = power at hread
      obtain _ | ⟨e, after''⟩ := power
      · cases hread
        rfl
      · cases hread
        rfl

theorem word?_append (h : Ends t) {w : List Char} (hw : ∀ c ∈ w, isEnding c = false)
    (cs : List Char) : word? w (cs ++ t) = (word? w cs).map (· ++ t) := by
  induction w generalizing cs with
  | nil => rfl
  | cons c w ih =>
      rcases cs with _ | ⟨d, cs⟩
      · cases h with
        | nil => rfl
        | @cons d hd t =>
            have hne : ¬ c = d := by
              rintro rfl
              rw [hw c (.head _)] at hd
              cases hd
            simp [word?, hne]
      · simp only [List.cons_append, word?]
        split
        · exact ih (fun c hc => hw c (.tail _ hc)) cs
        · rfl

theorem literals_plain : ∀ w ∈ literals, ∀ c ∈ w.1.toList, isEnding c = false := by
  simp [literals, isEnding, isSpace]

theorem literal?_append (h : Ends t) (cs : List Char) :
    literal? (cs ++ t) = (literal? cs).map fun r => (r.1, r.2 ++ t) := by
  have hwords := literals_plain
  unfold literal?
  generalize literals = ws at hwords
  induction ws with
  | nil => rfl
  | cons w ws ih =>
      rw [List.findSome?_cons, List.findSome?_cons, word?_append h (hwords w (.head _))]
      cases word? w.1.toList cs with
      | some rest => rfl
      | none => exact ih fun w hw => hwords w (.tail _ hw)

theorem number_of_ne_minus {c : Char} (h : c ≠ '-') (cs : List Char) :
    number (c :: cs) = unsigned (c :: cs) false (c :: cs) := by
  rw [number]
  intro r hr
  exact h (List.cons.inj hr).1

theorem number_append (h : Ends t) (hread : number cs = .ok (v, rest)) :
    number (cs ++ t) = .ok (v, rest ++ t) := by
  rcases cs with _ | ⟨c, cs⟩
  · cases hread
  · by_cases hc : c = '-'
    · subst hc
      exact unsigned_append h hread
    · rw [number_of_ne_minus hc] at hread
      rw [List.cons_append, number_of_ne_minus hc]
      exact unsigned_append h hread

/-- A value that is no string, list or object is read in front of what may follow it as it is read
by itself. -/
theorem scalar_append (h : Ends t) (hread : scalar cs = .ok (v, rest)) :
    scalar (cs ++ t) = .ok (v, rest ++ t) := by
  unfold scalar at hread ⊢
  rw [literal?_append h]
  cases hword : literal? cs with
  | some r =>
      rw [hword] at hread
      cases hread
      rfl
  | none =>
      rw [hword] at hread
      exact number_append h hread

/-! ## Integers -/

theorem digitsValue_eq_ofDigitChars (ds : List Char) :
    digitsValue ds = Nat.ofDigitChars 10 ds 0 := by
  rw [Nat.ofDigitChars_eq_foldl, digitsValue]
  congr 1
  funext n c
  rw [Nat.mul_comm]
  rfl

theorem digitsValue_natText (n : Nat) : digitsValue (Decimal.natText n) = n := by
  rw [digitsValue_eq_ofDigitChars, Decimal.natText, Nat.ofDigitChars_ten_toDigits]

theorem isDigit_of_mem_natText {n : Nat} {c : Char} (h : c ∈ Decimal.natText n) :
    c.isDigit = true :=
  Nat.isDigit_of_mem_toDigits (by decide) (by decide) h

theorem length_natText_le {n k : Nat} (h : n < 10 ^ k) (hk : 0 < k) :
    (Decimal.natText n).length ≤ k :=
  (Nat.length_toDigits_le_iff (by decide) hk).mpr h

/-- Only zero is written with a leading zero. -/
theorem exists_natText_cons {n : Nat} (h : n ≠ 0) :
    ∃ d ds, Decimal.natText n = d :: ds ∧ d ≠ '0' := by
  induction n using Nat.strongRecOn with
  | ind n ih =>
      rw [Decimal.natText, Nat.toDigits_eq_if (by decide)]
      split
      · exact ⟨n.digitChar, [], rfl, by simpa using h⟩
      · next hlarge =>
          obtain ⟨d, ds, htext, hd⟩ := ih (n / 10) (by omega) (by omega)
          rw [Decimal.natText] at htext
          exact ⟨d, ds ++ [(n % 10).digitChar], by rw [htext]; rfl, hd⟩

theorem wholeDigits_natText (n : Nat) :
    wholeDigits (Decimal.natText n) = (Decimal.natText n, []) := by
  by_cases hn : n = 0
  · subst hn
    rfl
  · obtain ⟨d, ds, htext, hd⟩ := exists_natText_cons hn
    have hdigits : ∀ c ∈ Decimal.natText n, c.isDigit = true := fun c => isDigit_of_mem_natText
    rw [htext] at hdigits ⊢
    have hspan : spanDigits (d :: ds) = (d :: ds, []) := by
      rw [spanDigits_eq, List.takeWhile_eq_self_iff.mpr hdigits,
        List.dropWhile_eq_nil_iff.mpr hdigits]
    simpa [wholeDigits, hd] using hspan

theorem unsigned_natText {n : Nat} (start : List Char) (negative : Bool)
    (h : n < 10 ^ digitLimit) :
    unsigned start negative (Decimal.natText n) =
      .ok (.int (if negative then -(n : Int) else n), []) := by
  have hdigits : ¬ digitLimit < (Decimal.natText n).length :=
    Nat.not_lt.mpr (length_natText_le h (by decide))
  unfold unsigned
  rw [wholeDigits_natText]
  cases htext : Decimal.natText n with
  | nil => exact absurd htext Nat.toDigits_ne_nil
  | cons d ds =>
      rw [htext] at hdigits
      dsimp only [fraction, exponent]
      rw [if_neg hdigits, ← htext, digitsValue_natText]

theorem literal?_of_digit {c : Char} (h : c.isDigit = true) (cs : List Char) :
    literal? (c :: cs) = none := by
  have hne {d : Char} (hd : d.isDigit = false) : ¬ d = c := by
    rintro rfl
    rw [h] at hd
    cases hd
  simp [literal?, literals, word?, hne (d := 'n') rfl, hne (d := 't') rfl, hne (d := 'f') rfl,
    hne (d := 'N') rfl, hne (d := 'I') rfl, hne (d := '-') rfl]

theorem literal?_of_minus_digit {c : Char} (h : c.isDigit = true) (cs : List Char) :
    literal? ('-' :: c :: cs) = none := by
  have hne : ¬ 'I' = c := by
    rintro rfl
    cases h
  simp [literal?, literals, word?, hne]

/-- An integer is read as it was written, unless it has too many digits. -/
theorem scalar_intText {n : Int} (h : n.natAbs < 10 ^ digitLimit) :
    scalar (Decimal.intText n).toList = .ok (.int n, []) := by
  cases htext : Decimal.natText n.natAbs with
  | nil => exact absurd htext Nat.toDigits_ne_nil
  | cons d ds =>
      have hmem : d ∈ Decimal.natText n.natAbs := by
        rw [htext]
        exact .head ds
      have hd := isDigit_of_mem_natText hmem
      rw [Decimal.intText, String.toList_ofList, htext]
      by_cases hn : n < 0
      · rw [if_pos hn, scalar, literal?_of_minus_digit hd, ← htext]
        refine (unsigned_natText _ true h).trans ?_
        rw [if_pos rfl, Int.ofNat_natAbs_of_nonpos (Int.le_of_lt hn), Int.neg_neg]
      · have hminus : d ≠ '-' := by
          rintro rfl
          cases hd
        rw [if_neg hn, scalar, literal?_of_digit hd]
        dsimp only
        rw [number_of_ne_minus hminus, ← htext]
        refine (unsigned_natText _ false h).trans ?_
        rw [if_neg (by decide), Int.natAbs_of_nonneg (Int.not_lt.mp hn)]

end SfcCheck.Json
