import Mathlib
import SfcCheck.Proofs.Json.Numbers
import SfcCheck.Text.Blank

/-!
# What the reader of numbers and words takes

Whatever the reader takes for a value that is no string, list or object stands at the start of the
text, and is read so by itself. So it does not matter what comes after it, and such a value is known
by its own text.
-/

namespace SfcCheck.Json

variable {cs rest t : List Char} {v : Json}

/-- The characters of a value that is no string, list or object. -/
def isScalarChar (c : Char) : Bool := c.isAlphanum || c == '+' || c == '-' || c == '.'

/-- Whether a text goes on with digits. -/
def GoesOn (t : List Char) : Prop := ∃ c ∈ t.head?, c.isDigit = true

theorem isScalarChar_of_isDigit {c : Char} (h : c.isDigit = true) : isScalarChar c = true := by
  simp [isScalarChar, Char.isAlphanum, h]

theorem ne_of_isScalarChar {c x : Char} (h : isScalarChar c = true) (hx : isScalarChar x = false) :
    c ≠ x := by
  rintro rfl
  rw [h] at hx
  cases hx

theorem toNat_of_isScalarChar {c : Char} (h : isScalarChar c = true) :
    (48 ≤ c.toNat ∧ c.toNat ≤ 57) ∨ (65 ≤ c.toNat ∧ c.toNat ≤ 90) ∨
      (97 ≤ c.toNat ∧ c.toNat ≤ 122) ∨ c.toNat = 43 ∨ c.toNat = 45 ∨ c.toNat = 46 := by
  simp only [isScalarChar, Char.isAlphanum, Char.isAlpha, Char.isUpper, Char.isLower,
    Char.isDigit, Bool.or_eq_true, Bool.and_eq_true, decide_eq_true_eq, beq_iff_eq,
    UInt32.le_iff_toNat_le, ge_iff_le] at h
  rcases h with ((((h | h) | h) | rfl) | rfl) | rfl
  · exact .inr (.inl h)
  · exact .inr (.inr (.inl h))
  · exact .inl h
  all_goals decide

theorem spanDigits_takes {ds : List Char} (h : spanDigits cs = (ds, rest)) :
    cs = ds ++ rest ∧ (∀ c ∈ ds, c.isDigit = true) ∧
      ∀ t, ¬ GoesOn t → spanDigits (ds ++ t) = (ds, t) := by
  rw [spanDigits_eq, Prod.mk.injEq] at h
  obtain ⟨rfl, rfl⟩ := h
  have hdigits : ∀ c ∈ cs.takeWhile Char.isDigit, c.isDigit = true :=
    fun c hc => List.mem_takeWhile_imp hc
  refine ⟨List.takeWhile_append_dropWhile.symm, hdigits, fun t ht => ?_⟩
  have hboundary : ∀ c ∈ t.head?, c.isDigit = false := by
    intro c hc
    by_contra hdigit
    exact ht ⟨c, hc, by simpa using hdigit⟩
  rw [spanDigits_eq, Text.takeWhile_append_of_boundary hdigits hboundary,
    Text.dropWhile_append_of_boundary hdigits hboundary]

theorem wholeDigits_takes {ds : List Char} (h : wholeDigits cs = (ds, rest)) :
    cs = ds ++ rest ∧ (∀ c ∈ ds, c.isDigit = true) ∧
      ∀ t, ¬ GoesOn t → wholeDigits (ds ++ t) = (ds, t) := by
  by_cases hzero : ∃ cs', cs = '0' :: cs'
  · obtain ⟨cs', rfl⟩ := hzero
    cases h
    exact ⟨rfl, by simp [Char.isDigit], fun t _ => rfl⟩
  · have hspan {t : List Char} (ht : ∀ cs', t ≠ '0' :: cs') : wholeDigits t = spanDigits t := by
      rw [wholeDigits]
      exact ht
    rw [hspan fun cs' hcs => hzero ⟨cs', hcs⟩] at h
    obtain ⟨rfl, hdigits, htakes⟩ := spanDigits_takes h
    refine ⟨rfl, hdigits, fun t ht => (hspan ?_).trans (htakes t ht)⟩
    rcases ds with _ | ⟨d, ds⟩
    · rintro cs' rfl
      exact ht ⟨'0', rfl, rfl⟩
    · rintro cs' hcs
      exact hzero ⟨ds ++ rest, by rw [(List.cons.inj hcs).1]; rfl⟩

theorem fraction_takes {fs : List Char} (h : fraction cs = some (fs, rest)) :
    cs = '.' :: (fs ++ rest) ∧ (∀ c ∈ fs, c.isDigit = true) ∧
      ∀ t, ¬ GoesOn t → fraction ('.' :: (fs ++ t)) = some (fs, t) := by
  unfold fraction at h
  split at h
  · next cs' =>
      split at h
      · cases h
      · next ds rest' hne hspan =>
          cases h
          obtain ⟨rfl, hdigits, htakes⟩ := spanDigits_takes hspan
          refine ⟨rfl, hdigits, fun t ht => ?_⟩
          rw [fraction, htakes t ht]
          cases fs with
          | nil => exact (hne rfl).elim
          | cons d ds => rfl
  · cases h

theorem splitSign_takes (cs : List Char) : ∃ s, cs = s ++ (splitSign cs).2 ∧
    (∀ c ∈ s, isScalarChar c = true) ∧
      ∀ d t, d.isDigit = true → splitSign (s ++ d :: t) = ((splitSign cs).1, d :: t) := by
  have hdigit {d : Char} {t : List Char} (hd : d.isDigit = true) :
      splitSign (d :: t) = (false, d :: t) := by
    unfold splitSign
    split
    · next heq =>
        cases heq
        cases hd
    · next heq =>
        cases heq
        cases hd
    · rfl
  unfold splitSign
  split
  · exact ⟨['-'], rfl, List.forall_mem_singleton.mpr rfl, fun d t _ => rfl⟩
  · exact ⟨['+'], rfl, List.forall_mem_singleton.mpr rfl, fun d t _ => rfl⟩
  · exact ⟨[], rfl, by simp, fun d t hd => hdigit hd⟩

theorem isScalarChar_exponent {c : Char} (h : c = 'e' ∨ c = 'E') : isScalarChar c = true := by
  rcases h with rfl | rfl <;> rfl

/-- What an exponent takes starts with its letter. -/
theorem exponent_takes {e : Int} (h : exponent cs = some (e, rest)) :
    ∃ c t, cs = c :: t ++ rest ∧ (c = 'e' ∨ c = 'E') ∧ (∀ x ∈ c :: t, isScalarChar x = true) ∧
      exponent (c :: t) = some (e, []) := by
  cases cs with
  | nil => cases h
  | cons c cs =>
      rw [exponent] at h
      split at h
      · next hc =>
          obtain ⟨s, hs, hsign, hsplit⟩ := splitSign_takes cs
          dsimp only at h
          split at h
          · cases h
          · next ds rest' hne hspan =>
              cases h
              obtain ⟨hcs, hdigits, htakes⟩ := spanDigits_takes hspan
              refine ⟨c, s ++ ds, ?_, hc, ?_, ?_⟩
              · rw [hs, hcs, ← List.append_assoc]
                rfl
              · exact List.forall_mem_cons.mpr ⟨isScalarChar_exponent hc, List.forall_mem_append.mpr
                  ⟨hsign, fun x hx => isScalarChar_of_isDigit (hdigits x hx)⟩⟩
              · cases ds with
                | nil => exact (hne rfl).elim
                | cons d ds =>
                    have hspan' := htakes [] (by simp [GoesOn])
                    rw [List.append_nil] at hspan'
                    rw [exponent, if_pos hc, hsplit d ds (hdigits d (.head _))]
                    dsimp only
                    rw [hspan']
      · cases h

theorem not_goesOn_nil : ¬ GoesOn [] := by simp [GoesOn]

theorem not_goesOn_cons {c : Char} (h : c.isDigit = false) (t : List Char) : ¬ GoesOn (c :: t) := by
  simp [GoesOn, h]

theorem isDigit_exponent {c : Char} (h : c = 'e' ∨ c = 'E') : c.isDigit = false := by
  rcases h with rfl | rfl <;> rfl

theorem fraction_exponent {c : Char} (h : c = 'e' ∨ c = 'E') (t : List Char) :
    fraction (c :: t) = none := by
  rcases h with rfl | rfl <;> rfl

/-- What is read as a number is read so by itself, wherever it stands. -/
theorem unsigned_takes {start : List Char} {negative : Bool}
    (h : unsigned start negative cs = .ok (v, rest)) :
    ∃ t, cs = t ++ rest ∧ (∀ c ∈ t, isScalarChar c = true) ∧
      ∀ start', unsigned start' negative t = .ok (v, []) := by
  unfold unsigned at h
  rcases hwhole : wholeDigits cs with ⟨_ | ⟨d, ds⟩, after⟩
  · rw [hwhole] at h
    cases h
  obtain ⟨rfl, hdigits, htakes⟩ := wholeDigits_takes hwhole
  have hwholeChars (c : Char) (hc : c ∈ d :: ds) : isScalarChar c = true :=
    isScalarChar_of_isDigit (hdigits c hc)
  rw [hwhole] at h
  dsimp only at h
  cases hfraction : fraction after with
  | none =>
      cases hexponent : exponent after with
      | none =>
          rw [hfraction, hexponent] at h
          dsimp only at h
          split at h
          · cases h
          · next hlimit =>
              cases h
              refine ⟨d :: ds, rfl, hwholeChars, fun start' => ?_⟩
              have halone := htakes [] not_goesOn_nil
              rw [List.append_nil] at halone
              rw [unsigned, halone]
              dsimp only [fraction, exponent]
              rw [if_neg hlimit]
      | some r =>
          obtain ⟨e, rest'⟩ := r
          rw [hfraction, hexponent] at h
          cases h
          obtain ⟨c, t, rfl, hc, ht, hread⟩ := exponent_takes hexponent
          refine ⟨d :: ds ++ c :: t, by simp, List.forall_mem_append.mpr ⟨hwholeChars, ht⟩,
            fun start' => ?_⟩
          · rw [unsigned, htakes _ (not_goesOn_cons (isDigit_exponent hc) t)]
            dsimp only
            rw [fraction_exponent hc, hread]
  | some r =>
      obtain ⟨fs, after'⟩ := r
      obtain ⟨rfl, hfs, hfraction'⟩ := fraction_takes hfraction
      have hfsChars (c : Char) (hc : c ∈ fs) : isScalarChar c = true :=
        isScalarChar_of_isDigit (hfs c hc)
      cases hexponent : exponent after' with
      | none =>
          rw [hfraction] at h
          dsimp only at h
          rw [hexponent] at h
          cases h
          refine ⟨d :: ds ++ '.' :: fs, by simp, ?_, fun start' => ?_⟩
          · exact List.forall_mem_append.mpr ⟨hwholeChars, List.forall_mem_cons.mpr ⟨rfl, hfsChars⟩⟩
          · have halone := hfraction' [] not_goesOn_nil
            rw [List.append_nil] at halone
            rw [unsigned, htakes _ (not_goesOn_cons rfl fs)]
            dsimp only
            rw [halone]
            rfl
      | some r =>
          obtain ⟨e, rest'⟩ := r
          rw [hfraction] at h
          dsimp only at h
          rw [hexponent] at h
          cases h
          obtain ⟨c, t, rfl, hc, ht, hread⟩ := exponent_takes hexponent
          refine ⟨d :: ds ++ '.' :: (fs ++ c :: t), by simp, ?_, fun start' => ?_⟩
          · exact List.forall_mem_append.mpr ⟨hwholeChars, List.forall_mem_cons.mpr
              ⟨rfl, List.forall_mem_append.mpr ⟨hfsChars, ht⟩⟩⟩
          · rw [unsigned, htakes _ (not_goesOn_cons rfl _)]
            dsimp only
            rw [hfraction' _ (not_goesOn_cons (isDigit_exponent hc) t)]
            dsimp only
            rw [hread]

theorem word?_takes {w : List Char} (h : word? w cs = some rest) : cs = w ++ rest := by
  induction w generalizing cs with
  | nil =>
      cases h
      rfl
  | cons c w ih =>
      cases cs with
      | nil => cases h
      | cons d cs =>
          rw [word?] at h
          split at h
          · next hcd => rw [hcd, ih h, List.cons_append]
          · cases h

theorem word?_self_append (w t : List Char) : word? w (w ++ t) = some t := by
  induction w with
  | nil => rfl
  | cons c w ih => rw [List.cons_append, word?, if_pos rfl, ih]

/-- A word is read as its own value, no word being the start of another one. -/
theorem literal?_self : ∀ w ∈ literals, literal? w.1.toList = some (w.2, []) := by
  simp [literals, literal?, word?]

theorem literal?_takes (h : literal? cs = some (v, rest)) :
    ∃ w ∈ literals, cs = w.1.toList ++ rest ∧ w.2 = v := by
  obtain ⟨w, hw, hread⟩ := List.exists_of_findSome?_eq_some h
  obtain ⟨rest', hrest, heq⟩ := Option.map_eq_some_iff.mp hread
  cases heq
  exact ⟨w, hw, word?_takes hrest, rfl⟩

/-- Where no word stands, none stands in a shorter text. -/
theorem literal?_eq_none_of_append {t : List Char} (h : literal? (cs ++ t) = none) :
    literal? cs = none := by
  rw [literal?, List.findSome?_eq_none_iff] at h ⊢
  intro w hw
  have hnone := Option.map_eq_none_iff.mp (h w hw)
  rw [Option.map_eq_none_iff]
  cases hread : word? w.1.toList cs with
  | none => rfl
  | some r =>
      rw [word?_takes hread, List.append_assoc, word?_self_append] at hnone
      cases hnone

/-- What is read as a value that is no string, list or object is read so by itself. -/
theorem scalar_takes (h : scalar cs = .ok (v, rest)) :
    ∃ t, cs = t ++ rest ∧ (∀ c ∈ t, isScalarChar c = true) ∧ scalar t = .ok (v, []) := by
  unfold scalar at h
  cases hliteral : literal? cs with
  | some r =>
      rw [hliteral] at h
      cases h
      obtain ⟨w, hw, rfl, rfl⟩ := literal?_takes hliteral
      have hchars : ∀ w ∈ literals, ∀ c ∈ w.1.toList, isScalarChar c = true := by
        simp [literals, isScalarChar]
      refine ⟨w.1.toList, rfl, hchars w hw, ?_⟩
      rw [scalar, literal?_self w hw]
  | none =>
      rw [hliteral] at h
      dsimp only at h
      have hscalar {t : List Char} (hcs : cs = t ++ rest) (hread : number t = .ok (v, [])) :
          scalar t = .ok (v, []) := by
        rw [hcs] at hliteral
        rw [scalar, literal?_eq_none_of_append hliteral]
        exact hread
      rcases cs with _ | ⟨c, cs⟩
      · cases h
      · by_cases hc : c = '-'
        · subst hc
          obtain ⟨t, rfl, hchars, hread⟩ := unsigned_takes (show unsigned _ true cs = _ from h)
          refine ⟨'-' :: t, rfl, ?_, hscalar rfl (hread _)⟩
          simpa [isScalarChar] using hchars
        · rw [number_of_ne_minus hc] at h
          obtain ⟨t, hcs, hchars, hread⟩ := unsigned_takes h
          refine ⟨t, hcs, hchars, hscalar hcs ?_⟩
          cases t with
          | nil => cases hread []
          | cons d t =>
              have hd : d ≠ '-' := by
                rintro rfl
                exact hc (List.cons.inj hcs).1
              rw [number_of_ne_minus hd]
              exact hread _

theorem isScalarChar_of_scalar {text : List Char} (h : scalar text = .ok (v, [])) :
    ∀ c ∈ text, isScalarChar c = true := by
  obtain ⟨t, htext, hchars, -⟩ := scalar_takes h
  rw [List.append_nil] at htext
  rwa [htext]

end SfcCheck.Json
