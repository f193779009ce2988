import SfcCheck.Json.Relaxed
import SfcCheck.Proofs.Json.Grammar

/-!
# Trailing commas

Taking out trailing commas looks at characters, not at tokens, so it goes on inside strings. On a
text that is made of tokens it drops the commas in front of closing marks and passes over what
stands between the quotes of each string (`stripTrailingCommas_tokensText`). So it leaves a value
as it is unless one of its strings holds a trailing comma itself.
-/

namespace SfcCheck.Json

variable {cs rest raw : List Char} {c : Char} {d : Nat} {v : Json}

/-! ## Characters -/

/-- A text holds a comma with nothing but blanks between it and a closing bracket or brace. -/
def HoldsTrailingComma (cs : List Char) : Prop :=
  ∃ before blanks c after, cs = before ++ ',' :: (blanks ++ c :: after) ∧
    (∀ b ∈ blanks, Text.isBlank b = true) ∧ (c = '}' ∨ c = ']')

theorem closesNext_cons_of_blank (h : Text.isBlank c = true) (cs : List Char) :
    closesNext (c :: cs) = closesNext cs := by
  rw [closesNext, List.dropWhile_cons_of_pos h, ← closesNext]

theorem closesNext_cons_of_not_blank (h : Text.isBlank c = false) (cs : List Char) :
    closesNext (c :: cs) = (c == '}' || c == ']') := by
  rw [closesNext, List.dropWhile_cons_of_neg (by simp [h])]

theorem closesNext_iff : closesNext cs = true ↔ ∃ blanks c after, cs = blanks ++ c :: after ∧
    (∀ b ∈ blanks, Text.isBlank b = true) ∧ (c = '}' ∨ c = ']') := by
  have hcloses (c : Char) (hc : c = '}' ∨ c = ']') : Text.isBlank c = false := by
    rcases hc with rfl | rfl <;> decide
  induction cs with
  | nil => simp [closesNext]
  | cons x cs ih =>
      cases hx : Text.isBlank x with
      | true =>
          rw [closesNext_cons_of_blank hx]
          refine ih.trans ?_
          constructor
          · rintro ⟨blanks, c, after, rfl, hblanks, hc⟩
            exact ⟨x :: blanks, c, after, rfl, List.forall_mem_cons.mpr ⟨hx, hblanks⟩, hc⟩
          · rintro ⟨blanks, c, after, heq, hblanks, hc⟩
            cases blanks with
            | nil =>
                cases heq
                rw [hcloses _ hc] at hx
                cases hx
            | cons b blanks =>
                cases heq
                exact ⟨blanks, c, after, rfl, (List.forall_mem_cons.mp hblanks).2, hc⟩
      | false =>
          rw [closesNext_cons_of_not_blank hx, Bool.or_eq_true, beq_iff_eq, beq_iff_eq]
          constructor
          · exact fun hc => ⟨[], x, cs, rfl, by simp, hc⟩
          · rintro ⟨blanks, c, after, heq, hblanks, hc⟩
            cases blanks with
            | nil =>
                cases heq
                exact hc
            | cons b blanks =>
                cases heq
                rw [(List.forall_mem_cons.mp hblanks).1] at hx
                cases hx

theorem not_holdsTrailingComma_nil : ¬ HoldsTrailingComma [] := by
  rintro ⟨before, blanks, c, after, heq, -⟩
  simp at heq

theorem holdsTrailingComma_cons :
    HoldsTrailingComma (c :: cs) ↔ (c = ',' ∧ closesNext cs = true) ∨ HoldsTrailingComma cs := by
  rw [closesNext_iff]
  constructor
  · rintro ⟨before, blanks, x, after, heq, hblanks, hx⟩
    cases before with
    | nil =>
        cases heq
        exact .inl ⟨rfl, blanks, x, after, rfl, hblanks, hx⟩
    | cons b before =>
        cases heq
        exact .inr ⟨before, blanks, x, after, rfl, hblanks, hx⟩
  · rintro (⟨rfl, blanks, x, after, rfl, hblanks, hx⟩ |
      ⟨before, blanks, x, after, rfl, hblanks, hx⟩)
    · exact ⟨[], blanks, x, after, rfl, hblanks, hx⟩
    · exact ⟨c :: before, blanks, x, after, rfl, hblanks, hx⟩

instance HoldsTrailingComma.decide : (cs : List Char) → Decidable (HoldsTrailingComma cs)
  | [] => .isFalse not_holdsTrailingComma_nil
  | _ :: cs =>
    have := HoldsTrailingComma.decide cs
    decidable_of_iff _ holdsTrailingComma_cons.symm

theorem stripTrailingCommas_cons_of_ne (h : c ≠ ',') (cs : List Char) :
    stripTrailingCommas (c :: cs) = c :: stripTrailingCommas cs := by
  rw [stripTrailingCommas, if_neg fun hc => h hc.1]

/-- A text without trailing commas stays as it is. -/
theorem stripTrailingCommas_of_not_holds (h : ¬ HoldsTrailingComma cs) :
    stripTrailingCommas cs = cs := by
  induction cs with
  | nil => rfl
  | cons c cs ih =>
      rw [holdsTrailingComma_cons, not_or] at h
      rw [stripTrailingCommas, if_neg h.1, ih h.2]

theorem stripTrailingCommas_append_of_plain (h : ∀ c ∈ cs, c ≠ ',') (rest : List Char) :
    stripTrailingCommas (cs ++ rest) = cs ++ stripTrailingCommas rest := by
  induction cs with
  | nil => rfl
  | cons c cs ih =>
      obtain ⟨hc, hcs⟩ := List.forall_mem_cons.mp h
      rw [List.cons_append, stripTrailingCommas_cons_of_ne hc, ih hcs, List.cons_append]

/-- What stands behind a quote does not matter to what stands before it. -/
theorem closesNext_append_quote (cs rest : List Char) :
    closesNext (cs ++ '"' :: rest) = closesNext cs := by
  induction cs with
  | nil => rfl
  | cons c cs ih =>
      cases hc : Text.isBlank c with
      | true => rw [List.cons_append, closesNext_cons_of_blank hc, closesNext_cons_of_blank hc, ih]
      | false =>
          rw [List.cons_append, closesNext_cons_of_not_blank hc, closesNext_cons_of_not_blank hc]

theorem stripTrailingCommas_append_quote (cs rest : List Char) :
    stripTrailingCommas (cs ++ '"' :: rest) =
      stripTrailingCommas cs ++ '"' :: stripTrailingCommas rest := by
  induction cs with
  | nil => exact stripTrailingCommas_cons_of_ne (by decide) rest
  | cons c cs ih =>
      rw [List.cons_append, stripTrailingCommas, stripTrailingCommas, closesNext_append_quote, ih]
      split <;> rfl

/-! ## The contents of literals -/

theorem exists_hexDigit {c₁ c₂ c₃ c₄ : Char} {n : Nat} (h : unit? c₁ c₂ c₃ c₄ = some n) :
    ∀ c ∈ [c₁, c₂, c₃, c₄], ∃ k, Text.hexDigit? c = some k := by
  simp only [unit?, bind, Option.bind_eq_some_iff] at h
  obtain ⟨k₁, h₁, k₂, h₂, k₃, h₃, k₄, h₄, -⟩ := h
  simp [h₁, h₂, h₃, h₄]

theorem ne_of_hexDigit {x : Char} (h : ∃ k, Text.hexDigit? c = some k)
    (hx : Text.hexDigit? x = none) : c ≠ x := by
  rintro rfl
  obtain ⟨k, h⟩ := h
  rw [hx] at h
  cases h

section Escapes

variable {l c₁ c₂ c₃ c₄ : Char} {n : Nat}

theorem letter_plain (h : escaped? l = some c) : ∀ x ∈ ['\\', l], x ≠ ',' := by
  have hl : l ≠ ',' := by
    rintro rfl
    cases h
  simp [hl]

theorem unit_plain (h : unit? c₁ c₂ c₃ c₄ = some n) :
    ∀ c ∈ ['\\', 'u', c₁, c₂, c₃, c₄], c ≠ ',' := by
  have hhex := exists_hexDigit h
  intro c hc
  rcases List.mem_cons.mp hc with rfl | hc
  · decide
  rcases List.mem_cons.mp hc with rfl | hc
  · decide
  · exact ne_of_hexDigit (hhex c hc) (by decide)

theorem stripTrailingCommas_letter (h : escaped? l = some c) (cs : List Char) :
    stripTrailingCommas ('\\' :: l :: cs) = '\\' :: l :: stripTrailingCommas cs :=
  stripTrailingCommas_append_of_plain (letter_plain h) cs

theorem stripTrailingCommas_unit (h : unit? c₁ c₂ c₃ c₄ = some n) (cs : List Char) :
    stripTrailingCommas ('\\' :: 'u' :: c₁ :: c₂ :: c₃ :: c₄ :: cs) =
      '\\' :: 'u' :: c₁ :: c₂ :: c₃ :: c₄ :: stripTrailingCommas cs :=
  stripTrailingCommas_append_of_plain (unit_plain h) cs

theorem holdsTrailingComma_append_of_plain (h : ∀ c ∈ cs, c ≠ ',') :
    HoldsTrailingComma (cs ++ rest) ↔ HoldsTrailingComma rest := by
  induction cs with
  | nil => rfl
  | cons c cs ih =>
      obtain ⟨hc, hcs⟩ := List.forall_mem_cons.mp h
      rw [List.cons_append, holdsTrailingComma_cons, ih hcs]
      simp [hc]

theorem holdsTrailingComma_letter (h : escaped? l = some c) :
    HoldsTrailingComma ('\\' :: l :: cs) ↔ HoldsTrailingComma cs :=
  holdsTrailingComma_append_of_plain (letter_plain h)

theorem holdsTrailingComma_unit (h : unit? c₁ c₂ c₃ c₄ = some n) :
    HoldsTrailingComma ('\\' :: 'u' :: c₁ :: c₂ :: c₃ :: c₄ :: cs) ↔ HoldsTrailingComma cs :=
  holdsTrailingComma_append_of_plain (unit_plain h)

end Escapes

theorem Quoting.closesNext {s : List Char} (h : Quoting raw s) (hcloses : closesNext raw = true) :
    closesNext s = true := by
  induction h with
  | nil => exact hcloses
  | @plain c raw s hquote hslash hcontrol h ih =>
      cases hc : Text.isBlank c with
      | true =>
          rw [closesNext_cons_of_blank hc] at hcloses ⊢
          exact ih hcloses
      | false =>
          rw [closesNext_cons_of_not_blank hc] at hcloses ⊢
          exact hcloses
  | letter | unit | pair => cases hcloses

/-- A literal that holds a trailing comma stands for a string that holds one. -/
theorem Quoting.holdsTrailingComma {s : List Char} (h : Quoting raw s)
    (hholds : HoldsTrailingComma raw) : HoldsTrailingComma s := by
  induction h with
  | nil => exact hholds
  | plain hquote hslash hcontrol h ih =>
      rw [holdsTrailingComma_cons] at hholds ⊢
      exact hholds.imp (fun hc => ⟨hc.1, h.closesNext hc.2⟩) ih
  | letter hletter h ih =>
      rw [holdsTrailingComma_letter hletter] at hholds
      exact holdsTrailingComma_cons.mpr (.inr (ih hholds))
  | unit hunit hlone h ih =>
      rw [holdsTrailingComma_unit hunit] at hholds
      exact holdsTrailingComma_cons.mpr (.inr (ih hholds))
  | pair hhigh hn hlow hm h ih =>
      rw [holdsTrailingComma_unit hhigh, holdsTrailingComma_unit hlow] at hholds
      exact holdsTrailingComma_cons.mpr (.inr (ih hholds))

theorem stripTrailingCommas_of_quoting {s : List Char} (h : Quoting raw s)
    (hholds : ¬ HoldsTrailingComma s) : stripTrailingCommas raw = raw :=
  stripTrailingCommas_of_not_holds fun hraw => hholds (h.holdsTrailingComma hraw)

/-- Where a comma goes, no escape comes to stand. -/
theorem not_startsLow_of_closesNext (h : closesNext cs = true) :
    ¬ StartsLow (stripTrailingCommas cs) := by
  rintro ⟨a, b, c', d, m, more, heq, -⟩
  obtain ⟨blanks, c, after, rfl, hblanks, hc⟩ := closesNext_iff.mp h
  cases blanks with
  | nil =>
      rcases hc with rfl | rfl
      all_goals
        rw [List.nil_append, stripTrailingCommas_cons_of_ne (by decide)] at heq
        cases heq
  | cons b' blanks =>
      have hb := (List.forall_mem_cons.mp hblanks).1
      have hne : b' ≠ ',' := by
        rintro rfl
        cases hb
      rw [List.cons_append, stripTrailingCommas_cons_of_ne hne] at heq
      rw [(List.cons.inj heq).1] at hb
      cases hb

theorem StartsLow.of_stripTrailingCommas {s : List Char} (h : Quoting raw s)
    (hlow : StartsLow (stripTrailingCommas raw)) : StartsLow raw := by
  cases h with
  | nil => exact hlow
  | plain hquote hslash hcontrol h =>
      rw [stripTrailingCommas] at hlow
      split at hlow
      · next hc => exact absurd hlow (not_startsLow_of_closesNext hc.2)
      · obtain ⟨a, b, c', d, m, more, heq, -⟩ := hlow
        exact absurd (List.cons.inj heq).1 hslash
  | letter hletter h =>
      rw [stripTrailingCommas_letter hletter] at hlow
      obtain ⟨a, b, c', d, m, more, heq, -⟩ := hlow
      exact absurd (List.cons.inj (List.cons.inj heq).2).1 (letter_ne_u hletter)
  | unit hunit hlone h =>
      rw [stripTrailingCommas_unit hunit] at hlow
      obtain ⟨a, b, c, d, m, more, heq, hm⟩ := hlow
      cases heq
      exact ⟨_, _, _, _, m, _, rfl, hm⟩
  | pair hhigh hn hlow' hm' h =>
      rw [stripTrailingCommas_unit hhigh] at hlow
      obtain ⟨a, b, c, d, m, more, heq, hm⟩ := hlow
      cases heq
      exact ⟨_, _, _, _, m, _, rfl, hm⟩

/-- A literal is still one without its trailing commas. -/
theorem Quoting.exists_stripTrailingCommas {s : List Char} (h : Quoting raw s) :
    ∃ s', Quoting (stripTrailingCommas raw) s' := by
  induction h with
  | nil => exact ⟨[], .nil⟩
  | plain hquote hslash hcontrol h ih =>
      obtain ⟨s', ih⟩ := ih
      rw [stripTrailingCommas]
      split
      · exact ⟨s', ih⟩
      · exact ⟨_, .plain hquote hslash hcontrol ih⟩
  | letter hletter h ih =>
      obtain ⟨s', ih⟩ := ih
      rw [stripTrailingCommas_letter hletter]
      exact ⟨_, .letter hletter ih⟩
  | unit hunit hlone h ih =>
      obtain ⟨s', ih⟩ := ih
      rw [stripTrailingCommas_unit hunit]
      exact ⟨_, .unit hunit (fun hn hlow => hlone hn (hlow.of_stripTrailingCommas h)) ih⟩
  | pair hhigh hn hlow hm h ih =>
      obtain ⟨s', ih⟩ := ih
      rw [stripTrailingCommas_unit hhigh, stripTrailingCommas_unit hlow]
      exact ⟨_, .pair hhigh hn hlow hm ih⟩

/-! ## Tokens -/

variable {t : Token} {ts us : List Token}

/-- A token without the trailing commas that it holds. -/
def Token.stripped : Token → Token
  | string raw => string (stripTrailingCommas raw)
  | t => t

/-- Whether the next token of the grammar closes a list or an object. -/
def nextCloses (ts : List Token) : Bool := (lexemes ts).head?.any Token.isClosing

/-- Tokens without the commas in front of closing marks. -/
def dropTrailingCommas : List Token → List Token
  | [] => []
  | t :: ts =>
    if t = .mark .comma ∧ nextCloses ts then dropTrailingCommas ts else t :: dropTrailingCommas ts

theorem nextCloses_cons_of_lexeme (h : t.isLexeme = true) (ts : List Token) :
    nextCloses (t :: ts) = t.isClosing := by
  rw [nextCloses, lexemes_cons_of_lexeme h]
  rfl

theorem nextCloses_cons_of_layout (h : t.isLexeme = false) (ts : List Token) :
    nextCloses (t :: ts) = nextCloses ts := by
  rw [nextCloses, lexemes_cons_of_layout h, ← nextCloses]

theorem dropTrailingCommas_cons_of_ne (h : t ≠ .mark .comma) (ts : List Token) :
    dropTrailingCommas (t :: ts) = t :: dropTrailingCommas ts := by
  rw [dropTrailingCommas, if_neg fun ht => h ht.1]

theorem dropTrailingCommas_comma_of_closes (h : nextCloses ts = true) :
    dropTrailingCommas (.mark .comma :: ts) = dropTrailingCommas ts := by
  rw [dropTrailingCommas, if_pos ⟨rfl, h⟩]

theorem dropTrailingCommas_comma (h : nextCloses ts = false) :
    dropTrailingCommas (.mark .comma :: ts) = .mark .comma :: dropTrailingCommas ts := by
  rw [dropTrailingCommas, if_neg (by simp [h])]

theorem isBlank_of_isSpace (h : isSpace c = true) : Text.isBlank c = true := by
  simp only [isSpace, Bool.or_eq_true, beq_iff_eq] at h
  rcases h with ((rfl | rfl) | rfl) | rfl <;> decide

theorem isBlank_of_isScalarChar (h : isScalarChar c = true) : Text.isBlank c = false := by
  have hcode := toNat_of_isScalarChar h
  simp only [Text.isBlank, Text.inRanges, Text.blankRanges]
  simp
  omega

theorem closesNext_cons_of_isScalarChar (h : isScalarChar c = true) (cs : List Char) :
    closesNext (c :: cs) = false := by
  rw [closesNext_cons_of_not_blank (isBlank_of_isScalarChar h)]
  simp [ne_of_isScalarChar h (x := '}') rfl, ne_of_isScalarChar h (x := ']') rfl]

/-- A comma in a text goes just where the next token closes. -/
theorem closesNext_tokensText (hplain : Plain ts) :
    closesNext (tokensText ts) = nextCloses ts := by
  induction ts with
  | nil => rfl
  | cons t ts ih =>
      obtain ⟨⟨hvalid, hcomment⟩, hrest⟩ := plain_cons.mp hplain
      cases t with
      | blank c =>
          rw [nextCloses_cons_of_layout rfl, ← ih hrest]
          exact closesNext_cons_of_blank (isBlank_of_isSpace hvalid) _
      | lineComment content | blockComment content => cases hcomment
      | mark m =>
          rw [nextCloses_cons_of_lexeme rfl]
          cases m <;> exact closesNext_cons_of_not_blank (by decide) _
      | string raw =>
          rw [nextCloses_cons_of_lexeme rfl]
          exact closesNext_cons_of_not_blank (by decide) _
      | scalar text =>
          obtain ⟨v, hscalar⟩ := hvalid
          obtain ⟨c, cs, rfl, -⟩ := startsScalar_of_scalar hscalar
          rw [nextCloses_cons_of_lexeme rfl]
          exact closesNext_cons_of_isScalarChar (isScalarChar_of_scalar hscalar c (.head _)) _

/-- On tokens, taking out trailing commas drops commas in front of closing marks and goes into the
strings. -/
theorem stripTrailingCommas_tokensText (hplain : Plain ts) :
    stripTrailingCommas (tokensText ts) =
      tokensText ((dropTrailingCommas ts).map Token.stripped) := by
  induction ts with
  | nil => rfl
  | cons t ts ih =>
      obtain ⟨⟨hvalid, hcomment⟩, hrest⟩ := plain_cons.mp hplain
      have hplainText (hne : t ≠ .mark .comma) (hstripped : t.stripped = t)
          (htext : ∀ c ∈ t.text, c ≠ ',') : stripTrailingCommas (tokensText (t :: ts)) =
            tokensText ((dropTrailingCommas (t :: ts)).map Token.stripped) := by
        rw [tokensText_cons, stripTrailingCommas_append_of_plain htext, ih hrest,
          dropTrailingCommas_cons_of_ne hne, List.map_cons, tokensText_cons, hstripped]
      cases t with
      | blank c =>
          have hc : c ≠ ',' := by
            rintro rfl
            cases hvalid
          exact hplainText (by simp) rfl (by simpa [Token.text] using hc)
      | lineComment content | blockComment content => cases hcomment
      | mark m =>
          cases m with
          | comma =>
              have hcloses := closesNext_tokensText hrest
              cases hnext : nextCloses ts with
              | true =>
                  rw [dropTrailingCommas_comma_of_closes hnext, ← ih hrest]
                  exact if_pos ⟨rfl, hcloses.trans hnext⟩
              | false =>
                  rw [dropTrailingCommas_comma hnext, List.map_cons, tokensText_cons,
                    tokensText_cons, ← ih hrest]
                  refine if_neg fun h => ?_
                  have hnone := hnext.symm.trans (hcloses.symm.trans h.2)
                  cases hnone
          | openList | closeList | openObject | closeObject | colon =>
              exact hplainText (by simp) rfl (by simp [Token.text, Mark.char])
      | string raw =>
          rw [dropTrailingCommas_cons_of_ne (by simp), List.map_cons, tokensText_cons,
            tokensText_cons, ← ih hrest, Token.stripped, Token.text, Token.text, List.cons_append,
            stripTrailingCommas_cons_of_ne (by decide), List.append_assoc, List.singleton_append,
            stripTrailingCommas_append_quote]
          simp
      | scalar text =>
          obtain ⟨v, hscalar⟩ := hvalid
          exact hplainText (by simp) rfl fun c hc =>
            ne_of_isScalarChar (isScalarChar_of_scalar hscalar c hc) rfl

@[simp] theorem Token.isLexeme_stripped (t : Token) : t.stripped.isLexeme = t.isLexeme := by
  cases t <;> rfl

@[simp] theorem Token.isClosing_stripped (t : Token) : t.stripped.isClosing = t.isClosing := by
  cases t <;> rfl

theorem lexemes_map_stripped (ts : List Token) :
    lexemes (ts.map Token.stripped) = (lexemes ts).map Token.stripped := by
  rw [lexemes, lexemes, List.filter_map]
  congr 2
  funext t
  exact t.isLexeme_stripped

theorem lexemes_lexemes (ts : List Token) : lexemes (lexemes ts) = lexemes ts := by
  rw [lexemes, lexemes, List.filter_filter]
  simp

theorem nextCloses_lexemes (ts : List Token) : nextCloses (lexemes ts) = nextCloses ts := by
  rw [nextCloses, lexemes_lexemes, ← nextCloses]

theorem lexemes_dropTrailingCommas (ts : List Token) :
    lexemes (dropTrailingCommas ts) = dropTrailingCommas (lexemes ts) := by
  induction ts with
  | nil => rfl
  | cons t ts ih =>
      cases hlexeme : t.isLexeme with
      | true =>
          rw [lexemes_cons_of_lexeme hlexeme, dropTrailingCommas, dropTrailingCommas,
            nextCloses_lexemes, ← ih]
          split
          · rfl
          · rw [lexemes_cons_of_lexeme hlexeme]
      | false =>
          have hne : t ≠ .mark .comma := by
            rintro rfl
            cases hlexeme
          rw [lexemes_cons_of_layout hlexeme, dropTrailingCommas_cons_of_ne hne,
            lexemes_cons_of_layout hlexeme, ih]

theorem stripped_eq_comma {t : Token} : t.stripped = .mark .comma ↔ t = .mark .comma := by
  cases t <;> simp [Token.stripped]

theorem nextCloses_map_stripped (ts : List Token) :
    nextCloses (ts.map Token.stripped) = nextCloses ts := by
  rw [nextCloses, nextCloses, lexemes_map_stripped, List.head?_map, Option.any_map]
  congr 1
  funext t
  exact t.isClosing_stripped

theorem dropTrailingCommas_map_stripped (ts : List Token) :
    dropTrailingCommas (ts.map Token.stripped) = (dropTrailingCommas ts).map Token.stripped := by
  induction ts with
  | nil => rfl
  | cons t ts ih =>
      rw [List.map_cons, dropTrailingCommas, dropTrailingCommas, nextCloses_map_stripped, ih]
      simp only [stripped_eq_comma]
      split <;> rfl

theorem length_dropTrailingCommas_le (ts : List Token) :
    (dropTrailingCommas ts).length ≤ ts.length := by
  induction ts with
  | nil => exact Nat.le_refl _
  | cons t ts ih =>
      rw [dropTrailingCommas]
      split
      · exact Nat.le_succ_of_le ih
      · exact Nat.succ_le_succ ih

/-- Whether commas go is seen without the blanks. -/
theorem dropTrailingCommas_of_lexemes (h : dropTrailingCommas (lexemes ts) = lexemes ts) :
    dropTrailingCommas ts = ts := by
  induction ts with
  | nil => rfl
  | cons t ts ih =>
      cases hlexeme : t.isLexeme with
      | true =>
          rw [lexemes_cons_of_lexeme hlexeme, dropTrailingCommas, nextCloses_lexemes] at h
          split at h
          · have hle := length_dropTrailingCommas_le (lexemes ts)
            rw [h, List.length_cons] at hle
            omega
          · next hkeeps => rw [dropTrailingCommas, if_neg hkeeps, ih (List.cons.inj h).2]
      | false =>
          have hne : t ≠ .mark .comma := by
            rintro rfl
            cases hlexeme
          rw [lexemes_cons_of_layout hlexeme] at h
          rw [dropTrailingCommas_cons_of_ne hne, ih h]

theorem Plain.dropTrailingCommas (h : Plain ts) : Plain (dropTrailingCommas ts) := by
  induction ts with
  | nil => exact h
  | cons t ts ih =>
      obtain ⟨ht, hts⟩ := plain_cons.mp h
      rw [Json.dropTrailingCommas]
      split
      · exact ih hts
      · exact plain_cons.mpr ⟨ht, ih hts⟩

theorem Plain.map_stripped (h : Plain ts) : Plain (ts.map Token.stripped) := by
  intro t ht
  obtain ⟨t, hmem, rfl⟩ := List.mem_map.mp ht
  obtain ⟨hvalid, hcomment⟩ := h t hmem
  cases t with
  | blank | mark | scalar => exact ⟨hvalid, rfl⟩
  | lineComment | blockComment => cases hcomment
  | string raw =>
      obtain ⟨s, hquoting⟩ := hvalid
      exact ⟨hquoting.exists_stripTrailingCommas, rfl⟩

/-! ## Values -/

section Values

variable {style : Style} {p : Part} {rest : List Token}

/-- In front of what is not closed at once, a comma stays. -/
theorem Written.dropTrailingCommas_comma (h : Written style d p ts rest) :
    dropTrailingCommas (.mark .comma :: ts) = .mark .comma :: dropTrailingCommas ts := by
  obtain ⟨t, us, rfl, hlexeme, hclosing⟩ := h.starts
  exact Json.dropTrailingCommas_comma ((nextCloses_cons_of_lexeme hlexeme us).trans hclosing)

theorem Closing.dropTrailingCommas {m : Mark} (hm : m.closes = true)
    (h : Closing style m ts rest) :
    dropTrailingCommas ts = .mark m :: dropTrailingCommas rest := by
  have hne : Token.mark m ≠ .mark .comma := by
    rintro hmark
    cases hmark
    cases hm
  cases h with
  | plain => exact dropTrailingCommas_cons_of_ne hne rest
  | comma h =>
      have hnext : nextCloses (.mark m :: rest) = true := (nextCloses_cons_of_lexeme rfl _).trans hm
      rw [dropTrailingCommas_comma_of_closes hnext, dropTrailingCommas_cons_of_ne hne]

/-- Without its trailing commas a part is written as the reader of JSON wants it. -/
theorem Written.dropTrailingCommas (h : Written style d p ts rest) :
    Written .strict d p (dropTrailingCommas ts) (dropTrailingCommas rest) := by
  induction h with
  | scalar depth h rest =>
      rw [dropTrailingCommas_cons_of_ne (by simp)]
      exact .scalar depth h _
  | string depth h rest =>
      rw [dropTrailingCommas_cons_of_ne (by simp)]
      exact .string depth h _
  | emptyList depth rest =>
      rw [dropTrailingCommas_cons_of_ne (by simp), dropTrailingCommas_cons_of_ne (by simp)]
      exact .emptyList depth _
  | list h ih =>
      rw [dropTrailingCommas_cons_of_ne (by simp)]
      exact .list ih
  | emptyObject depth rest =>
      rw [dropTrailingCommas_cons_of_ne (by simp), dropTrailingCommas_cons_of_ne (by simp)]
      exact .emptyObject depth _
  | object hkeys h ih =>
      rw [dropTrailingCommas_cons_of_ne (by simp)]
      exact .object (.inl rfl) ih
  | lastItem h hclose ih =>
      rw [hclose.dropTrailingCommas rfl] at ih
      exact .lastItem ih (.plain _)
  | item h hrest ih ihrest =>
      rw [hrest.dropTrailingCommas_comma] at ih
      exact .item ih ihrest
  | lastField hkey h hclose ih =>
      rw [hclose.dropTrailingCommas rfl] at ih
      rw [dropTrailingCommas_cons_of_ne (by simp), dropTrailingCommas_cons_of_ne (by simp)]
      exact .lastField hkey ih (.plain _)
  | field hkey h hrest ih ihrest =>
      rw [hrest.dropTrailingCommas_comma] at ih
      rw [dropTrailingCommas_cons_of_ne (by simp), dropTrailingCommas_cons_of_ne (by simp)]
      exact .field hkey ih ihrest

/-- Where no trailing comma is allowed, none is there to go. -/
theorem Written.dropTrailingCommas_eq (h : Written .strict d p ts rest)
    (hrest : Json.dropTrailingCommas rest = rest) : Json.dropTrailingCommas ts = ts := by
  induction h with
  | scalar | string | emptyList | emptyObject =>
      simp only [dropTrailingCommas_cons_of_ne, ne_eq, reduceCtorEq, not_false_eq_true, hrest,
        Token.mark.injEq]
  | list h ih | object hkeys h ih =>
      rw [dropTrailingCommas_cons_of_ne (by simp), ih hrest]
  | lastItem h hclose ih =>
      obtain rfl := hclose.eq_of_strict
      exact ih (by rw [dropTrailingCommas_cons_of_ne (by simp), hrest])
  | item h hmore ih ihmore =>
      exact ih (by rw [hmore.dropTrailingCommas_comma, ihmore hrest])
  | lastField hkey h hclose ih =>
      obtain rfl := hclose.eq_of_strict
      rw [dropTrailingCommas_cons_of_ne (by simp), dropTrailingCommas_cons_of_ne (by simp),
        ih (by rw [dropTrailingCommas_cons_of_ne (by simp), hrest])]
  | field hkey h hmore ih ihmore =>
      rw [dropTrailingCommas_cons_of_ne (by simp), dropTrailingCommas_cons_of_ne (by simp),
        ih (by rw [hmore.dropTrailingCommas_comma, ihmore hrest])]

theorem Closing.map_stripped {m : Mark} (h : Closing style m ts rest) :
    Closing style m (ts.map Token.stripped) (rest.map Token.stripped) := by
  cases h with
  | plain rest => exact .plain _
  | comma h rest => exact .comma h _

/-- Tokens without the commas in their strings are still those of a part of the same kind. -/
def StaysWritten (depth : Nat) : Part → List Token → List Token → Prop
  | .value _, ts, rest =>
      ∃ v, Written .strict depth (.value v) (ts.map Token.stripped) (rest.map Token.stripped)
  | .items _, ts, rest =>
      ∃ vs, Written .strict depth (.items vs) (ts.map Token.stripped) (rest.map Token.stripped)
  | .fields _, ts, rest =>
      ∃ fs, Written .strict depth (.fields fs) (ts.map Token.stripped) (rest.map Token.stripped)

theorem Quoting.exists_stripped {raw : List Char} {s : String} (h : Quoting raw s.toList) :
    ∃ s' : String, Quoting (stripTrailingCommas raw) s'.toList := by
  obtain ⟨s', h⟩ := h.exists_stripTrailingCommas
  exact ⟨String.ofList s', by rwa [String.toList_ofList]⟩

theorem Written.staysWritten (h : Written .strict d p ts rest) : StaysWritten d p ts rest := by
  induction h with
  | scalar depth h rest => exact ⟨_, .scalar depth h _⟩
  | string depth h rest =>
      obtain ⟨s', h⟩ := h.exists_stripped
      exact ⟨_, .string depth h _⟩
  | emptyList depth rest => exact ⟨_, .emptyList depth _⟩
  | list h ih =>
      obtain ⟨vs, ih⟩ := ih
      exact ⟨_, .list ih⟩
  | emptyObject depth rest => exact ⟨_, .emptyObject depth _⟩
  | object hkeys h ih =>
      obtain ⟨fs, ih⟩ := ih
      exact ⟨_, .object (.inl rfl) ih⟩
  | lastItem h hclose ih =>
      obtain ⟨v, ih⟩ := ih
      exact ⟨_, .lastItem ih hclose.map_stripped⟩
  | item h hrest ih ihrest =>
      obtain ⟨v, ih⟩ := ih
      obtain ⟨vs, ihrest⟩ := ihrest
      exact ⟨_, .item ih ihrest⟩
  | lastField hkey h hclose ih =>
      obtain ⟨k, hkey⟩ := hkey.exists_stripped
      obtain ⟨v, ih⟩ := ih
      exact ⟨_, .lastField hkey ih hclose.map_stripped⟩
  | field hkey h hrest ih ihrest =>
      obtain ⟨k, hkey⟩ := hkey.exists_stripped
      obtain ⟨v, ih⟩ := ih
      obtain ⟨fs, ihrest⟩ := ihrest
      exact ⟨_, .field hkey ih ihrest⟩

end Values

mutual

/-- The strings of a value, keys included. -/
def strings : Json → List String
  | str s => [s]
  | arr items => itemStrings items
  | obj fields => fieldStrings fields
  | _ => []

/-- The strings of the items of a list. -/
def itemStrings : List Json → List String
  | [] => []
  | v :: vs => strings v ++ itemStrings vs

/-- The strings of the fields of an object. -/
def fieldStrings : List (String × Json) → List String
  | [] => []
  | (k, v) :: fs => k :: (strings v ++ fieldStrings fs)

end

/-- The strings of a part. -/
def Part.strings : Part → List String
  | .value v => v.strings
  | .items vs => itemStrings vs
  | .fields fs => fieldStrings fs

theorem stripped_string {s : String} (h : Quoting raw s.toList)
    (hs : ¬ HoldsTrailingComma s.toList) : (Token.string raw).stripped = .string raw := by
  rw [Token.stripped, stripTrailingCommas_of_quoting h hs]

/-- Where no string holds a trailing comma, the commas in strings are not touched. -/
theorem Written.map_stripped {p : Part} {rest : List Token} (h : Written .relaxed d p ts rest)
    (hstrings : ∀ s ∈ p.strings, ¬ HoldsTrailingComma s.toList) :
    Written .relaxed d p (ts.map Token.stripped) (rest.map Token.stripped) := by
  induction h with
  | scalar depth h rest => exact .scalar depth h _
  | string depth h rest =>
      rw [List.map_cons, stripped_string h (hstrings _ (.head _))]
      exact .string depth h _
  | emptyList depth rest => exact .emptyList depth _
  | list h ih => exact .list (ih hstrings)
  | emptyObject depth rest => exact .emptyObject depth _
  | object hkeys h ih =>
      have hnodup := hkeys.resolve_left (by simp [Style.relaxed])
      rw [Part.strings, Json.ofFields, Table.ofList_of_nodup hnodup] at hstrings
      exact .object hkeys (ih hstrings)
  | lastItem h hclose ih =>
      refine .lastItem (ih fun s hs => hstrings s ?_) hclose.map_stripped
      simpa [Part.strings, itemStrings] using hs
  | item h hrest ih ihrest =>
      obtain ⟨hfirst, hmore⟩ := List.forall_mem_append.mp hstrings
      exact .item (ih hfirst) (ihrest hmore)
  | lastField hkey h hclose ih =>
      obtain ⟨hk, hv⟩ := List.forall_mem_cons.mp hstrings
      rw [List.map_cons, stripped_string hkey hk]
      refine .lastField hkey (ih fun s hs => hv s ?_) hclose.map_stripped
      simpa [Part.strings, fieldStrings] using hs
  | field hkey h hrest ih ihrest =>
      obtain ⟨hk, hmore⟩ := List.forall_mem_cons.mp hstrings
      obtain ⟨hv, hmore⟩ := List.forall_mem_append.mp hmore
      rw [List.map_cons, stripped_string hkey hk]
      exact .field hkey (ih hv) (ihrest hmore)

end SfcCheck.Json
