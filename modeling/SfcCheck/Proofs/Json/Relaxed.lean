import Mathlib.Data.List.Chain
import SfcCheck.Proofs.Json.Commas

/-!
# Texts with comments and trailing commas

Comments are taken out first. A text that is made of tokens loses just its comments then
(`stripComments_tokensText`), whatever they and the strings hold. The commas that may go after that
are those in front of closing marks and those that strings hold, so a value may be written with
comments and trailing commas unless a string holds a trailing comma itself.
-/

namespace SfcCheck.Json

variable {cs rest raw : List Char} {c : Char} {d : Nat} {v : Json} {ts us : List Token}

/-! ## Comments -/

theorem quotedToken?_cons (hquote : c ≠ '"') (hslash : c ≠ '\\') (cs : List Char) :
    quotedToken? (c :: cs) = (quotedToken? cs).map fun r => (c :: r.1, r.2) := by
  rw [quotedToken?]
  all_goals simp_all

theorem quotedToken?_escape (c : Char) (cs : List Char) :
    quotedToken? ('\\' :: c :: cs) = (quotedToken? cs).map fun r => ('\\' :: c :: r.1, r.2) := by
  rw [quotedToken?]

/-- What stands between the quotes of a literal is what the pass over comments takes for it. -/
theorem Quoting.quotedToken? {s : List Char} (h : Quoting raw s) (rest : List Char) :
    quotedToken? (raw ++ '"' :: rest) = some (raw ++ ['"'], rest) := by
  have hunit {c₁ c₂ c₃ c₄ : Char} {n : Nat} {cs t : List Char}
      (hunit : unit? c₁ c₂ c₃ c₄ = some n) (h : Json.quotedToken? cs = some (t, rest)) :
      Json.quotedToken? ('\\' :: 'u' :: c₁ :: c₂ :: c₃ :: c₄ :: cs) =
        some ('\\' :: 'u' :: c₁ :: c₂ :: c₃ :: c₄ :: t, rest) := by
    have hhex := exists_hexDigit hunit
    simp only [List.forall_mem_cons] at hhex
    obtain ⟨h₁, h₂, h₃, h₄, -⟩ := hhex
    have hstep {c : Char} {cs t : List Char} (hc : ∃ k, Text.hexDigit? c = some k)
        (h : Json.quotedToken? cs = some (t, rest)) :
        Json.quotedToken? (c :: cs) = some (c :: t, rest) := by
      rw [quotedToken?_cons (ne_of_hexDigit hc (by decide)) (ne_of_hexDigit hc (by decide)), h]
      rfl
    rw [quotedToken?_escape, hstep h₁ (hstep h₂ (hstep h₃ (hstep h₄ h)))]
    rfl
  induction h with
  | nil => rfl
  | plain hquote hslash hcontrol h ih =>
      rw [List.cons_append, quotedToken?_cons hquote hslash, ih]
      rfl
  | letter hletter h ih =>
      rw [List.cons_append, List.cons_append, quotedToken?_escape, ih]
      rfl
  | unit hcode hlone h ih => exact hunit hcode ih
  | pair hhigh hn hlow hm h ih => exact hunit hhigh (hunit hlow ih)

theorem stripComments_cons (hquote : c ≠ '"') (hslash : c ≠ '/') (cs : List Char) :
    stripComments (c :: cs) = c :: stripComments cs := by
  rw [stripComments]
  all_goals simp_all

theorem stripComments_append_of_plain (h : ∀ c ∈ cs, c ≠ '"' ∧ c ≠ '/') (rest : List Char) :
    stripComments (cs ++ rest) = cs ++ stripComments rest := by
  induction cs with
  | nil => rfl
  | cons c cs ih =>
      obtain ⟨hc, hcs⟩ := List.forall_mem_cons.mp h
      rw [List.cons_append, stripComments_cons hc.1 hc.2, ih hcs, List.cons_append]

theorem stripComments_string {s : List Char} (h : Quoting raw s) (rest : List Char) :
    stripComments ('"' :: (raw ++ '"' :: rest)) = '"' :: (raw ++ '"' :: stripComments rest) := by
  rw [stripComments]
  split
  · next t rest' heq =>
      rw [h.quotedToken?] at heq
      cases heq
      simp
  · next heq =>
      rw [h.quotedToken?] at heq
      cases heq

theorem stripComments_lineComment {content : List Char} (h : '\n' ∉ content)
    (hrest : ∀ c ∈ rest.head?, c = '\n') :
    stripComments ('/' :: '/' :: (content ++ rest)) = stripComments rest := by
  have hafter : afterLineComment (content ++ rest) = rest := by
    refine Text.dropWhile_append_of_boundary (fun c hc => ?_) fun c hc => ?_
    · have hne : c ≠ '\n' := by
        rintro rfl
        exact h hc
      simpa using hne
    · simp [hrest c hc]
  rw [stripComments, hafter]

theorem afterBlockComment?_append {content : List Char} (h : ¬ ['*', '/'] <:+: content)
    (rest : List Char) : afterBlockComment? (content ++ '*' :: '/' :: rest) = some rest := by
  induction content with
  | nil => rfl
  | cons c content ih =>
      have hinner : ¬ ['*', '/'] <:+: content :=
        fun hc => h (hc.trans (List.suffix_cons c _).isInfix)
      rw [List.cons_append, afterBlockComment?]
      · exact ih hinner
      · rintro cs rfl hcs
        cases content with
        | nil => cases hcs
        | cons c content =>
            cases hcs
            exact h (List.prefix_append ['*', '/'] content).isInfix

theorem stripComments_blockComment {content : List Char} (h : ¬ ['*', '/'] <:+: content)
    (rest : List Char) :
    stripComments ('/' :: '*' :: (content ++ '*' :: '/' :: rest)) = stripComments rest := by
  rw [stripComments]
  split
  · next rest' heq =>
      rw [afterBlockComment?_append h] at heq
      cases heq
      rfl
  · next heq =>
      rw [afterBlockComment?_append h] at heq
      cases heq

/-- Behind a comment that goes up to the end of its line stands a line feed, if anything does. -/
def EndsLine (t u : Token) : Prop := ∀ content, t = .lineComment content → u = .blank '\n'

theorem head?_tokensText_of_endsLine {content : List Char}
    (h : (Token.lineComment content :: ts).IsChain EndsLine) :
    ∀ c ∈ (tokensText ts).head?, c = '\n' := by
  cases ts with
  | nil => simp
  | cons t ts =>
      rw [List.isChain_cons_cons] at h
      rw [h.1 content rfl, tokensText_cons]
      simp [Token.text]

/-- A text that is made of tokens loses just its comments. -/
theorem stripComments_tokensText (hvalid : ∀ t ∈ ts, t.Valid) (hlines : ts.IsChain EndsLine) :
    stripComments (tokensText ts) = tokensText (ts.filter fun t => !t.isComment) := by
  induction ts with
  | nil => simp [stripComments]
  | cons t ts ih =>
      obtain ⟨ht, hts⟩ := List.forall_mem_cons.mp hvalid
      replace ih := ih hts hlines.tail
      have hplainText (hcomment : t.isComment = false) (htext : ∀ c ∈ t.text, c ≠ '"' ∧ c ≠ '/') :
          stripComments (tokensText (t :: ts)) =
            tokensText ((t :: ts).filter fun t => !t.isComment) := by
        rw [List.filter_cons_of_pos (by simp [hcomment]), tokensText_cons, tokensText_cons,
          stripComments_append_of_plain htext, ih]
      cases t with
      | blank c =>
          have hc : c ≠ '"' ∧ c ≠ '/' := by
            constructor
            all_goals
              rintro rfl
              cases ht
          exact hplainText rfl (by simpa [Token.text] using hc)
      | lineComment content =>
          rw [List.filter_cons_of_neg (by simp [Token.isComment]), ← ih]
          exact stripComments_lineComment ht (head?_tokensText_of_endsLine hlines)
      | blockComment content =>
          rw [List.filter_cons_of_neg (by simp [Token.isComment]), ← ih, tokensText_cons,
            Token.text, List.cons_append, List.cons_append, List.append_assoc]
          exact stripComments_blockComment ht _
      | mark m => exact hplainText rfl (by cases m <;> simp [Token.text, Mark.char])
      | string raw =>
          obtain ⟨s, hquoting⟩ := ht
          rw [List.filter_cons_of_pos (by simp [Token.isComment]), tokensText_cons,
            tokensText_cons, ← ih, Token.text, List.cons_append, List.append_assoc,
            List.singleton_append, stripComments_string hquoting]
          simp
      | scalar text =>
          obtain ⟨v, hscalar⟩ := ht
          exact hplainText rfl fun c hc =>
            ⟨ne_of_isScalarChar (isScalarChar_of_scalar hscalar c hc) rfl,
              ne_of_isScalarChar (isScalarChar_of_scalar hscalar c hc) rfl⟩

theorem plain_filter (hvalid : ∀ t ∈ ts, t.Valid) :
    Plain (ts.filter fun t => !t.isComment) := by
  intro t ht
  rw [List.mem_filter, Bool.not_eq_true'] at ht
  exact ⟨hvalid t ht.1, ht.2⟩

theorem Token.isLexeme_of_isComment {t : Token} (h : t.isComment = true) : t.isLexeme = false := by
  cases t with
  | lineComment | blockComment => rfl
  | blank | mark | string | scalar => cases h

theorem lexemes_filter (ts : List Token) :
    lexemes (ts.filter fun t => !t.isComment) = lexemes ts := by
  rw [lexemes, lexemes, List.filter_filter]
  refine List.filter_congr fun t ht => ?_
  cases hcomment : t.isComment with
  | true => simp [t.isLexeme_of_isComment hcomment]
  | false => simp

/-- The text that is read in place of one that is made of tokens. -/
theorem parseRelaxed_tokensText (hvalid : ∀ t ∈ ts, t.Valid) (hlines : ts.IsChain EndsLine) :
    parseRelaxed (tokensText ts) = parseText (tokensText
      ((dropTrailingCommas (ts.filter fun t => !t.isComment)).map Token.stripped)) := by
  rw [parseRelaxed, stripComments_tokensText hvalid hlines,
    stripTrailingCommas_tokensText (plain_filter hvalid)]

/-! ## Texts of values -/

/-- What is made of tokens does not start with a byte order mark. -/
theorem parseText_tokensText (hplain : Plain us) :
    parseText (tokensText us) = parse (tokensText us) := by
  have hcons {c : Char} {cs : List Char} (hc : c.toNat ≠ 0xfeff) :
      parseText (c :: cs) = parse (c :: cs) := if_neg hc
  cases us with
  | nil => rfl
  | cons u us =>
      obtain ⟨⟨hvalid, hcomment⟩, -⟩ := plain_cons.mp hplain
      cases u with
      | blank c =>
          refine hcons fun hc => ?_
          have hspace : isSpace (Char.ofNat 0xfeff) = true := by
            rw [← hc, Char.ofNat_toNat]
            exact hvalid
          cases hspace
      | lineComment | blockComment => cases hcomment
      | mark m => exact hcons (by cases m <;> decide)
      | string raw => exact hcons (by decide)
      | scalar text =>
          obtain ⟨v, hscalar⟩ := hvalid
          obtain ⟨c, cs, rfl, -⟩ := startsScalar_of_scalar hscalar
          have hcode := toNat_of_isScalarChar (isScalarChar_of_scalar hscalar c (.head _))
          exact hcons (by omega)

theorem parse_of_parseText (h : parseText cs = .ok v) : parse cs = .ok v := by
  unfold parseText at h
  split at h
  · split at h
    · cases h
    · exact h
  · exact h

/-- JSON is read as it is, apart from the trailing commas that strings hold. -/
theorem parseRelaxed_of_parseText (h : parseText cs = .ok v) :
    ∃ us, Plain us ∧ cs = tokensText us ∧
      parseRelaxed cs = parseText (tokensText (us.map Token.stripped)) ∧
      (∃ w, parseRelaxed cs = .ok w) ∧
      ((∀ raw, .string raw ∈ us → ¬ HoldsTrailingComma raw) → parseRelaxed cs = .ok v) := by
  obtain ⟨us, hplain, rfl, hwritten⟩ := parse_eq_ok_iff.mp (parse_of_parseText h)
  have hvalid : ∀ t ∈ us, t.Valid := fun t ht => (hplain t ht).1
  have hnone : ∀ t ∈ us, (!t.isComment) = true := fun t ht => by simp [(hplain t ht).2]
  have hlines : us.IsChain EndsLine := by
    refine (List.pairwise_of_forall_mem_list fun t ht u hu content hcontent => ?_).isChain
    have hcomment := (hplain t ht).2
    rw [hcontent] at hcomment
    cases hcomment
  have hrelaxed :
      parseRelaxed (tokensText us) = parseText (tokensText (us.map Token.stripped)) := by
    rw [parseRelaxed_tokensText hvalid hlines, List.filter_eq_self.mpr hnone,
      dropTrailingCommas_of_lexemes (hwritten.dropTrailingCommas_eq rfl)]
  refine ⟨us, hplain, rfl, hrelaxed, ?_, fun hstrings => ?_⟩
  · obtain ⟨w, hw⟩ := hwritten.staysWritten
    rw [← lexemes_map_stripped] at hw
    exact ⟨w, by rw [hrelaxed, parseText_tokensText hplain.map_stripped,
      parse_tokensText hplain.map_stripped hw]⟩
  · have hstripped : us.map Token.stripped = us := by
      refine (List.map_congr_left fun t ht => ?_).trans (List.map_id us)
      cases t with
      | blank | lineComment | blockComment | mark | scalar => rfl
      | string raw =>
          rw [Token.stripped, stripTrailingCommas_of_not_holds (hstrings raw ht), id]
    rw [hrelaxed, hstripped, h]

/-- A pattern of file names with a comma at the end of its braces. -/
def patternText : List Char := "\x7b\"files\": [\"*.\x7bts,\x7d\"]\x7d".toList

theorem parseRelaxed_of_parseText_pattern :
    ∃ us, Plain us ∧ patternText = tokensText us ∧
      parseRelaxed patternText = parseText (tokensText (us.map Token.stripped)) ∧
      (∃ w, parseRelaxed patternText = .ok w) ∧
      ((∀ raw, .string raw ∈ us → ¬ HoldsTrailingComma raw) →
        parseRelaxed patternText = .ok (.obj [("files", .arr [.str "*.\x7bts,\x7d"])])) :=
  parseRelaxed_of_parseText (by cbv)

/-- Such a pattern loses its comma. -/
theorem parseRelaxed_pattern :
    parseText patternText = .ok (.obj [("files", .arr [.str "*.\x7bts,\x7d"])]) ∧
      parseRelaxed patternText = .ok (.obj [("files", .arr [.str "*.\x7bts\x7d"])]) :=
  ⟨by cbv, by cbv⟩

/-- A text of a value, with blanks and comments before, between and behind its tokens. -/
structure Rendering (v : Json) where
  tokens : List Token
  valid : ∀ t ∈ tokens, t.Valid
  lines : tokens.IsChain EndsLine
  written : Written .relaxed depthLimit (.value v) (lexemes tokens) []

/-- The characters of a text of a value. -/
def Rendering.text (r : Rendering v) : List Char := tokensText r.tokens

/-- A value is read back from any of its texts. -/
theorem parseRelaxed_text (r : Rendering v) (h : ∀ s ∈ v.strings, ¬ HoldsTrailingComma s.toList) :
    parseRelaxed r.text = .ok v := by
  have hplain := ((plain_filter r.valid).dropTrailingCommas).map_stripped
  have hwritten := (r.written.map_stripped h).dropTrailingCommas
  rw [dropTrailingCommas_map_stripped, ← lexemes_filter, ← lexemes_dropTrailingCommas,
    ← lexemes_map_stripped] at hwritten
  rw [Rendering.text, parseRelaxed_tokensText r.valid r.lines, parseText_tokensText hplain,
    parse_tokensText hplain hwritten]

/-- A text with brackets in its comments and with two trailing commas. -/
def annotated : Rendering (.obj [("a", .arr [.int 1, .int 2])]) where
  tokens := [.blockComment " \"a\": [ ".toList, .mark .openObject, .string ['a'], .mark .colon,
    .blank ' ', .mark .openList, .scalar ['1'], .mark .comma, .blank ' ',
    .lineComment " one]".toList, .blank '\n', .scalar ['2'], .mark .comma, .mark .closeList,
    .mark .comma, .mark .closeObject]
  valid := by
    have hkey : Quoting ['a'] ['a'] := .plain (by decide) (by decide) (by decide) .nil
    have hone : scalar ['1'] = .ok (.int 1, []) := rfl
    have htwo : scalar ['2'] = .ok (.int 2, []) := rfl
    have hblock : ¬ ['*', '/'] <:+: " \"a\": [ ".toList := by decide +kernel
    have hline : '\n' ∉ " one]".toList := by decide
    simp only [List.forall_mem_cons]
    exact ⟨hblock, trivial, ⟨_, hkey⟩, trivial, rfl, trivial, ⟨_, hone⟩, trivial, rfl, hline, rfl,
      ⟨_, htwo⟩, trivial, trivial, trivial, trivial, by simp⟩
  lines := by simp [EndsLine]
  written := .object (.inr (by decide))
    (.lastField (.plain (by decide) (by decide) (by decide) .nil)
      (.list (.item (.scalar _ rfl _) (.lastItem (.scalar _ rfl _) (.comma rfl _))))
      (.comma rfl _))

theorem parseRelaxed_annotated :
    parseRelaxed "/* \"a\": [ */\x7b\"a\": [1, // one]\n2,],\x7d".toList =
      .ok (.obj [("a", .arr [.int 1, .int 2])]) :=
  parseRelaxed_text annotated (by decide)

/-! ## Limits -/

theorem stripComments_of_plain (h : ∀ c ∈ cs, c ≠ '"' ∧ c ≠ '/') : stripComments cs = cs := by
  have hplain := stripComments_append_of_plain h []
  rwa [List.append_nil, stripComments, List.append_nil] at hplain

theorem stripTrailingCommas_of_plain (h : ∀ c ∈ cs, c ≠ ',') : stripTrailingCommas cs = cs := by
  have hplain := stripTrailingCommas_append_of_plain h []
  rwa [List.append_nil, stripTrailingCommas, List.append_nil] at hplain

/-- A text with no strings, comments and commas is read as it is. -/
theorem parseRelaxed_of_plain (h : ∀ c ∈ cs, c ≠ '"' ∧ c ≠ '/' ∧ c ≠ ',') :
    parseRelaxed cs = parseText cs := by
  rw [parseRelaxed, stripComments_of_plain fun c hc => ⟨(h c hc).1, (h c hc).2.1⟩,
    stripTrailingCommas_of_plain fun c hc => (h c hc).2.2]

/-- Lists that nest deeper than allowed are refused, whatever follows. -/
theorem value_brackets {n d k : Nat} (hdeep : d < k) (hn : 2 * d < n) (t : List Char) :
    value n d (List.replicate k '[' ++ t) = .error (.tooDeep .list) := by
  induction d generalizing n k with
  | zero =>
      obtain ⟨n, rfl⟩ : ∃ m, n = m + 1 := ⟨n - 1, by omega⟩
      obtain ⟨k, rfl⟩ : ∃ m, k = m + 1 := ⟨k - 1, by omega⟩
      rw [List.replicate_succ, List.cons_append, value]
  | succ d ih =>
      obtain ⟨n, rfl⟩ : ∃ m, n = m + 2 := ⟨n - 2, by omega⟩
      obtain ⟨k, rfl⟩ : ∃ m, k = m + 2 := ⟨k - 2, by omega⟩
      have hskip : skipSpace (List.replicate (k + 1) '[' ++ t) = List.replicate (k + 1) '[' ++ t :=
        skipSpace_cons rfl _
      have hclose (cs : List Char) : skipSpace (List.replicate (k + 1) '[' ++ t) ≠ ']' :: cs := by
        rw [hskip]
        intro h
        cases h
      rw [List.replicate_succ, List.cons_append, value_list hclose, hskip,
        items_error (ih (by omega) (by omega))]
      rfl

theorem parse_of_value_error {e : Refusal} (h : value (2 * cs.length + 1) depthLimit cs = .error e)
    (hskip : skipSpace cs = cs) : parse cs = .error (.ofRefusal cs e) := by
  rw [parse, document, hskip, h]
  rfl

theorem parseRelaxed_brackets {k : Nat} (h : depthLimit < k) :
    parseRelaxed (List.replicate k '[' ++ List.replicate k ']') = .error (.tooDeep .list) := by
  have hplain : ∀ c ∈ List.replicate k '[' ++ List.replicate k ']',
      c ≠ '"' ∧ c ≠ '/' ∧ c ≠ ',' := by
    intro c hc
    rcases List.mem_append.mp hc with hc | hc <;> rw [List.eq_of_mem_replicate hc] <;> decide
  have hsteps : 2 * depthLimit <
      2 * (List.replicate k '[' ++ List.replicate k ']').length + 1 := by
    rw [List.length_append, List.length_replicate]
    omega
  have hvalue := value_brackets h hsteps (List.replicate k ']')
  rw [parseRelaxed_of_plain hplain]
  obtain ⟨k, rfl⟩ : ∃ m, k = m + 1 := ⟨k - 1, by omega⟩
  have hparse := parse_of_value_error hvalue (skipSpace_cons rfl _)
  exact hparse

/-- Integers with too many digits are refused, whatever ends them. -/
theorem scalar_ones {k : Nat} (h : digitLimit < k) {t : List Char} (ht : Ends t) :
    scalar (List.replicate k '1' ++ t) = .error (.tooManyDigits k) := by
  obtain ⟨k, rfl⟩ : ∃ j, k = j + 1 := ⟨k - 1, by omega⟩
  have hdigits : ∀ c ∈ List.replicate (k + 1) '1', c.isDigit = true := by
    intro c hc
    rw [List.eq_of_mem_replicate hc]
    rfl
  have hspan : wholeDigits (List.replicate (k + 1) '1') = (List.replicate (k + 1) '1', []) := by
    have hspan : spanDigits (List.replicate (k + 1) '1') = (List.replicate (k + 1) '1', []) := by
      rw [spanDigits_eq, List.takeWhile_eq_self_iff.mpr hdigits,
        List.dropWhile_eq_nil_iff.mpr hdigits]
    exact hspan
  have hwhole : wholeDigits (List.replicate (k + 1) '1' ++ t) =
      (List.replicate (k + 1) '1', t) := by
    rw [wholeDigits_append ht, hspan, List.nil_append]
  have hfraction : fraction t = none := fraction_append ht []
  have hexponent : exponent t = none := exponent_append ht []
  rw [List.replicate_succ, List.cons_append] at hwhole ⊢
  rw [scalar, literal?_of_digit rfl]
  dsimp only
  rw [number_of_ne_minus (by decide), unsigned, hwhole]
  simp only [hfraction, hexponent]
  rw [List.length_cons, List.length_replicate, if_pos h]

/-- As a value they are refused as well. -/
theorem value_ones {k n d : Nat} (h : digitLimit < k) {t : List Char} (ht : Ends t) :
    value (n + 1) d (List.replicate k '1' ++ t) = .error (.tooManyDigits k) := by
  have hscalar := scalar_ones h ht
  obtain ⟨k, rfl⟩ : ∃ m, k = m + 1 := ⟨k - 1, by omega⟩
  rw [List.replicate_succ, List.cons_append] at hscalar ⊢
  rw [← hscalar, value]
  all_goals simp

theorem parseRelaxed_ones {k : Nat} (h : digitLimit < k) :
    parseRelaxed (List.replicate k '1') = .error (.tooManyDigits k) := by
  have hplain : ∀ c ∈ List.replicate k '1', c ≠ '"' ∧ c ≠ '/' ∧ c ≠ ',' := by
    intro c hc
    rw [List.eq_of_mem_replicate hc]
    decide
  rw [parseRelaxed_of_plain hplain]
  have hvalue : value (2 * (List.replicate k '1').length + 1) depthLimit
      (List.replicate k '1') = .error (.tooManyDigits k) := by
    rw [← value_ones h .nil, List.append_nil]
  obtain ⟨k, rfl⟩ : ∃ m, k = m + 1 := ⟨k - 1, by omega⟩
  exact parse_of_value_error hvalue (skipSpace_cons rfl _)

/-- What is no text of a value for this reader: other blanks than those of JSON between the tokens,
integers with more digits and lists with more levels than there may be. -/
theorem parseRelaxed_limits :
    parseRelaxed "[1,\u00a02]".toList = .error (.malformed .expectedValue 1 4 3) ∧
      parseRelaxed (List.replicate 4301 '1') = .error (.tooManyDigits 4301) ∧
      parseRelaxed (List.replicate 1500 '[' ++ List.replicate 1500 ']') =
        .error (.tooDeep .list) := by
  have hblank :
      stripTrailingCommas (stripComments "[1,\u00a02]".toList) = "[1,\u00a02]".toList := by
    decide +kernel
  refine ⟨?_, parseRelaxed_ones (by decide), parseRelaxed_brackets (by decide)⟩
  rw [parseRelaxed, hblank]
  rfl

end SfcCheck.Json
