import SfcCheck.Proofs.Json.RoundTrip
import SfcCheck.Proofs.Json.Scalars
import SfcCheck.Proofs.Results

/-!
# The grammar of JSON texts

A text is cut into tokens: blanks and comments, marks, strings between quotes, and what else is a
value by itself. `Written` says which tokens stand for a value, blanks and comments left aside.
What the reader of JSON accepts is just what this grammar describes, with nothing but blanks between
the tokens (`parse_eq_ok_iff`). Comments and trailing commas are in the grammar for the sake of
texts that are read after both were taken out.
-/

namespace SfcCheck.Json

/-! ## Tokens -/

/-- What structures lists and objects. -/
inductive Mark where
  | openList
  | closeList
  | openObject
  | closeObject
  | colon
  | comma
deriving DecidableEq, Repr

namespace Mark

/-- A mark as it is written. -/
def char : Mark → Char
  | openList => '['
  | closeList => ']'
  | openObject => '{'
  | closeObject => '}'
  | colon => ':'
  | comma => ','

/-- Whether a mark closes a list or an object. -/
def closes : Mark → Bool
  | closeList | closeObject => true
  | _ => false

theorem closes_iff {m : Mark} : m.closes = true ↔ m = .closeList ∨ m = .closeObject := by
  cases m <;> simp [closes]

end Mark

/-- A piece of a text. -/
inductive Token where
  | blank (c : Char)
  /-- Two slashes and the rest of the line. -/
  | lineComment (content : List Char)
  | blockComment (content : List Char)
  | mark (m : Mark)
  /-- A string, known by what stands between its quotes. -/
  | string (raw : List Char)
  /-- Any other value that holds no others. -/
  | scalar (text : List Char)
deriving DecidableEq, Repr

namespace Token

/-- A token as it is written. -/
def text : Token → List Char
  | blank c => [c]
  | lineComment content => '/' :: '/' :: content
  | blockComment content => '/' :: '*' :: (content ++ ['*', '/'])
  | mark m => [m.char]
  | string raw => '"' :: (raw ++ ['"'])
  | scalar text => text

def isComment : Token → Bool
  | lineComment _ | blockComment _ => true
  | _ => false

/-- Whether a token belongs to the grammar. -/
def isLexeme : Token → Bool
  | blank _ | lineComment _ | blockComment _ => false
  | _ => true

/-- Whether a token closes a list or an object. -/
def isClosing : Token → Bool
  | mark m => m.closes
  | _ => false

/-- What a token may hold. A comment does not hold its own end. -/
def Valid : Token → Prop
  | blank c => isSpace c = true
  | lineComment content => '\n' ∉ content
  | blockComment content => ¬ ['*', '/'] <:+: content
  | mark _ => True
  | string raw => ∃ s, Quoting raw s
  | scalar text => ∃ v, Json.scalar text = .ok (v, [])

end Token

/-- Tokens as they are written. -/
def tokensText (ts : List Token) : List Char := ts.flatMap Token.text

/-- Tokens without blanks and comments. -/
def lexemes (ts : List Token) : List Token := ts.filter Token.isLexeme

/-- Tokens with nothing but blanks between those of the grammar. -/
def Plain (ts : List Token) : Prop := ∀ t ∈ ts, t.Valid ∧ t.isComment = false

@[simp] theorem tokensText_nil : tokensText [] = [] := rfl

@[simp] theorem tokensText_cons (t : Token) (ts : List Token) :
    tokensText (t :: ts) = t.text ++ tokensText ts := rfl

@[simp] theorem tokensText_append (ts us : List Token) :
    tokensText (ts ++ us) = tokensText ts ++ tokensText us := List.flatMap_append

@[simp] theorem lexemes_nil : lexemes [] = [] := rfl

@[simp] theorem lexemes_append (ts us : List Token) :
    lexemes (ts ++ us) = lexemes ts ++ lexemes us := List.filter_append ..

@[simp] theorem plain_nil : Plain [] := by simp [Plain]

@[simp] theorem plain_cons {t : Token} {ts : List Token} :
    Plain (t :: ts) ↔ (t.Valid ∧ t.isComment = false) ∧ Plain ts := List.forall_mem_cons

@[simp] theorem plain_append {ts us : List Token} : Plain (ts ++ us) ↔ Plain ts ∧ Plain us :=
  List.forall_mem_append

theorem lexemes_cons_of_lexeme {t : Token} (h : t.isLexeme = true) (ts : List Token) :
    lexemes (t :: ts) = t :: lexemes ts := List.filter_cons_of_pos h

theorem lexemes_cons_of_layout {t : Token} (h : t.isLexeme = false) (ts : List Token) :
    lexemes (t :: ts) = lexemes ts := List.filter_cons_of_neg (by simp [h])

/-! ## Values -/

/-- What a text may do that its value does not show. -/
structure Style where
  /-- Whether a comma may stand behind the last item or field. -/
  trailingComma : Bool
  /-- Whether a key may come again in one object. -/
  repeatedKey : Bool

/-- What the reader of JSON allows. -/
def Style.strict : Style := ⟨false, true⟩

/-- Trailing commas, and every key at most once. -/
def Style.relaxed : Style := ⟨true, false⟩

/-- What tokens stand for: a value, the items of a list, or the fields of an object, the latter two
up to the closing mark. -/
inductive Part where
  | value (v : Json)
  | items (vs : List Json)
  | fields (fs : List (String × Json))

/-- The end of a list or an object and the tokens behind it. -/
inductive Closing (style : Style) (m : Mark) : List Token → List Token → Prop where
  | plain (rest : List Token) : Closing style m (.mark m :: rest) rest
  | comma (h : style.trailingComma = true) (rest : List Token) :
      Closing style m (.mark .comma :: .mark m :: rest) rest

/-- The tokens of a part with no more than `depth` levels of lists and objects, and the tokens
behind it. An object with a repeated key is the one with the last value of that key. -/
inductive Written (style : Style) : Nat → Part → List Token → List Token → Prop where
  | scalar (depth : Nat) {text : List Char} {v : Json} (h : scalar text = .ok (v, []))
      (rest : List Token) : Written style depth (.value v) (.scalar text :: rest) rest
  | string (depth : Nat) {raw : List Char} {s : String} (h : Quoting raw s.toList)
      (rest : List Token) : Written style depth (.value (.str s)) (.string raw :: rest) rest
  | emptyList (depth : Nat) (rest : List Token) :
      Written style (depth + 1) (.value (.arr []))
        (.mark .openList :: .mark .closeList :: rest) rest
  | list {depth : Nat} {vs : List Json} {ts rest : List Token}
      (h : Written style depth (.items vs) ts rest) :
      Written style (depth + 1) (.value (.arr vs)) (.mark .openList :: ts) rest
  | emptyObject (depth : Nat) (rest : List Token) :
      Written style (depth + 1) (.value (.obj []))
        (.mark .openObject :: .mark .closeObject :: rest) rest
  | object {depth : Nat} {fs : List (String × Json)} {ts rest : List Token}
      (hkeys : style.repeatedKey = true ∨ (Table.keys fs).Nodup)
      (h : Written style depth (.fields fs) ts rest) :
      Written style (depth + 1) (.value (.ofFields fs)) (.mark .openObject :: ts) rest
  | lastItem {depth : Nat} {v : Json} {ts us rest : List Token}
      (h : Written style depth (.value v) ts us) (hclose : Closing style .closeList us rest) :
      Written style depth (.items [v]) ts rest
  | item {depth : Nat} {v : Json} {vs : List Json} {ts us rest : List Token}
      (h : Written style depth (.value v) ts (.mark .comma :: us))
      (hrest : Written style depth (.items vs) us rest) :
      Written style depth (.items (v :: vs)) ts rest
  | lastField {depth : Nat} {raw : List Char} {k : String} {v : Json} {ts us rest : List Token}
      (hkey : Quoting raw k.toList) (h : Written style depth (.value v) ts us)
      (hclose : Closing style .closeObject us rest) :
      Written style depth (.fields [(k, v)]) (.string raw :: .mark .colon :: ts) rest
  | field {depth : Nat} {raw : List Char} {k : String} {v : Json} {fs : List (String × Json)}
      {ts us rest : List Token} (hkey : Quoting raw k.toList)
      (h : Written style depth (.value v) ts (.mark .comma :: us))
      (hrest : Written style depth (.fields fs) us rest) :
      Written style depth (.fields ((k, v) :: fs)) (.string raw :: .mark .colon :: ts) rest

/-! ## Reading tokens -/

variable {cs rest : List Char} {v : Json} {d n : Nat} {t : Token} {ts us : List Token}

theorem string_quoting {raw : List Char} {s : String} (h : Quoting raw s.toList)
    (rest : List Char) : string ((raw ++ ['"']) ++ rest) = .ok (s, rest) := by
  rw [List.append_assoc, List.singleton_append, string, h.stringRest]
  simp

theorem value_string {s : String} (h : string cs = .ok (s, rest)) :
    value (n + 1) d ('"' :: cs) = .ok (.str s, rest) := by
  rw [value, h]
  · rfl
  · simp

theorem value_emptyList (h : skipSpace cs = ']' :: rest) :
    value (n + 1) (d + 1) ('[' :: cs) = .ok (.arr [], rest) := by
  rw [value, h]
  rfl

theorem value_emptyObject (h : skipSpace cs = '}' :: rest) :
    value (n + 1) (d + 1) ('{' :: cs) = .ok (.obj [], rest) := by
  rw [value, h]
  rfl

theorem Mark.startsLexeme (m : Mark) : isSpace m.char = false := by
  cases m <;> rfl

/-- A token of the grammar starts with no blank. -/
theorem Token.text_starts (hvalid : t.Valid) (hlexeme : t.isLexeme = true) :
    ∃ c cs, t.text = c :: cs ∧ isSpace c = false := by
  cases t with
  | blank c | lineComment content | blockComment content => cases hlexeme
  | mark m => exact ⟨m.char, [], rfl, m.startsLexeme⟩
  | string raw => exact ⟨'"', _, rfl, rfl⟩
  | scalar text =>
      obtain ⟨v, h⟩ := hvalid
      obtain ⟨c, cs, rfl, hstart⟩ := startsScalar_of_scalar h
      have hvalue := startsValue_of_startsScalar hstart
      rw [startsValue, Bool.and_eq_true, Bool.not_eq_true'] at hvalue
      exact ⟨c, cs, rfl, hvalue.1⟩

theorem skipSpace_lexeme (hvalid : t.Valid) (hlexeme : t.isLexeme = true) (cs : List Char) :
    skipSpace (t.text ++ cs) = t.text ++ cs := by
  obtain ⟨c, cs', htext, hc⟩ := t.text_starts hvalid hlexeme
  rw [htext, skipSpace, List.cons_append, List.dropWhile_cons_of_neg (by simp [hc])]

/-- A token of a plain text is either a blank or in the grammar. -/
theorem blank_or_lexeme (hvalid : t.Valid) (hcomment : t.isComment = false) :
    (∃ c, t = .blank c ∧ isSpace c = true) ∨ t.isLexeme = true := by
  cases t with
  | blank c => exact .inl ⟨c, rfl, hvalid⟩
  | lineComment content | blockComment content => cases hcomment
  | mark m | string raw | scalar text => exact .inr rfl

/-- Behind the blanks of a text stands its first lexeme. -/
theorem exists_skipSpace (hplain : Plain us) (h : lexemes us = t :: ts) :
    t.Valid ∧ t.isLexeme = true ∧ ∃ us', Plain us' ∧ lexemes us' = ts ∧
      skipSpace (tokensText us) = t.text ++ tokensText us' := by
  induction us with
  | nil => cases h
  | cons u us ih =>
      obtain ⟨⟨hvalid, hcomment⟩, hrest⟩ := plain_cons.mp hplain
      rcases blank_or_lexeme hvalid hcomment with ⟨c, rfl, hc⟩ | hlexeme
      · rw [lexemes_cons_of_layout rfl] at h
        obtain ⟨hvalid, hlexeme, us', hplain', hlexemes, hskip⟩ := ih hrest h
        refine ⟨hvalid, hlexeme, us', hplain', hlexemes, ?_⟩
        rw [tokensText_cons, Token.text, List.singleton_append, skipSpace,
          List.dropWhile_cons_of_pos hc]
        exact hskip
      · rw [lexemes_cons_of_lexeme hlexeme] at h
        cases h
        exact ⟨hvalid, hlexeme, us, hrest, rfl, skipSpace_lexeme hvalid hlexeme _⟩

theorem skipSpace_of_no_lexemes (hplain : Plain us) (h : lexemes us = []) :
    skipSpace (tokensText us) = [] := by
  induction us with
  | nil => rfl
  | cons u us ih =>
      obtain ⟨⟨hvalid, hcomment⟩, hrest⟩ := plain_cons.mp hplain
      rcases blank_or_lexeme hvalid hcomment with ⟨c, rfl, hc⟩ | hlexeme
      · rw [lexemes_cons_of_layout rfl] at h
        rw [tokensText_cons, Token.text, List.singleton_append, skipSpace,
          List.dropWhile_cons_of_pos hc]
        exact ih hrest h
      · rw [lexemes_cons_of_lexeme hlexeme] at h
        cases h

/-- What may stand behind a value. -/
def Follows (rest : List Token) : Prop :=
  rest = [] ∨ ∃ m ts, rest = .mark m :: ts ∧ (m = .comma ∨ m.closes = true)

theorem follows_nil : Follows [] := .inl rfl

theorem follows_comma (ts : List Token) : Follows (.mark .comma :: ts) :=
  .inr ⟨.comma, ts, rfl, .inl rfl⟩

theorem follows_closes {m : Mark} (h : m.closes = true) (ts : List Token) :
    Follows (.mark m :: ts) := .inr ⟨m, ts, rfl, .inr h⟩

theorem ends_of_follows (hplain : Plain us) (h : Follows (lexemes us)) : Ends (tokensText us) := by
  rcases us with _ | ⟨u, us⟩
  · exact .nil
  · obtain ⟨⟨hvalid, hcomment⟩, -⟩ := plain_cons.mp hplain
    rcases blank_or_lexeme hvalid hcomment with ⟨c, rfl, hc⟩ | hlexeme
    · exact .cons (by simp [isEnding, hc]) _
    · rw [lexemes_cons_of_lexeme hlexeme] at h
      rcases h with h | ⟨m, ts, h, hm⟩
      · cases h
      · cases h
        rcases hm with rfl | hm
        · exact .cons rfl _
        · rcases Mark.closes_iff.mp hm with rfl | rfl <;> exact .cons rfl _

/-- A strict ending is its mark alone. -/
theorem Closing.eq_of_strict {m : Mark} {ts rest : List Token} (h : Closing .strict m ts rest) :
    ts = .mark m :: rest := by
  cases h with
  | plain => rfl
  | comma h => cases h

/-- A part is read from its tokens with blanks between them, up to the tokens behind it. -/
def ReadsPart (depth : Nat) : Part → List Token → List Token → Prop
  | .value v, ts, rest => ∀ n us, ts.length ≤ n + rest.length → Plain us → lexemes us = ts →
      Follows rest → ∃ us', Plain us' ∧ lexemes us' = rest ∧
        value n depth (skipSpace (tokensText us)) = .ok (v, tokensText us')
  | .items vs, ts, rest => ∀ n us, ts.length ≤ n + rest.length → Plain us → lexemes us = ts →
      ∃ us', Plain us' ∧ lexemes us' = rest ∧
        items n depth (skipSpace (tokensText us)) = .ok (vs, tokensText us')
  | .fields fs, ts, rest => ∀ n us, ts.length ≤ n + rest.length → Plain us → lexemes us = ts →
      ∃ us', Plain us' ∧ lexemes us' = rest ∧
        fields n depth (skipSpace (tokensText us)) = .ok (fs, tokensText us')

/-- A part has at least one token. -/
theorem Written.length_lt {style : Style} {p : Part} {ts rest : List Token}
    (h : Written style d p ts rest) : rest.length < ts.length := by
  induction h with
  | scalar | string | emptyList | emptyObject => simp only [List.length_cons]; omega
  | list h ih | object hkeys h ih => simp only [List.length_cons]; omega
  | lastItem h hclose ih | lastField hkey h hclose ih =>
      cases hclose <;> (simp only [List.length_cons] at ih ⊢; omega)
  | item h hrest ih ihrest | field hkey h hrest ih ihrest =>
      simp only [List.length_cons] at ih ⊢
      omega

/-- No value starts with a closing mark. -/
theorem Written.starts {style : Style} {p : Part} {ts rest : List Token}
    (h : Written style d p ts rest) :
    ∃ t us, ts = t :: us ∧ t.isLexeme = true ∧ t.isClosing = false := by
  induction h with
  | scalar | string | lastField | field | emptyList | list | emptyObject | object =>
      exact ⟨_, _, rfl, rfl, rfl⟩
  | lastItem h hclose ih => exact ih
  | item h hrest ih ihrest => exact ih

/-- A token that starts with a mark is that mark. -/
theorem Token.eq_mark_of_text {m : Mark} {cs' : List Char} (hvalid : t.Valid)
    (hlexeme : t.isLexeme = true) (h : t.text ++ cs = m.char :: cs') : t = .mark m := by
  cases t with
  | blank c | lineComment content | blockComment content => cases hlexeme
  | mark m' =>
      have hchar := (List.cons.inj h).1
      revert hchar
      cases m <;> cases m' <;> decide
  | string raw =>
      have hchar := (List.cons.inj h).1
      cases m <;> cases hchar
  | scalar text =>
      obtain ⟨v, hscalar⟩ := hvalid
      obtain ⟨c, rest, rfl, hstart⟩ := startsScalar_of_scalar hscalar
      rw [(List.cons.inj h).1] at hstart
      cases m <;> cases hstart

/-- The text of a part does not start with a closing mark. -/
theorem Written.no_closing {style : Style} {p : Part} {rest : List Token} {m : Mark}
    (h : Written style d p ts rest) (hplain : Plain us) (hlexemes : lexemes us = ts)
    (hm : m.closes = true) (cs : List Char) : skipSpace (tokensText us) ≠ m.char :: cs := by
  obtain ⟨t, ts', rfl, -, hstart⟩ := h.starts
  obtain ⟨hvalid, hlexeme, us', -, -, hskip⟩ := exists_skipSpace hplain hlexemes
  rw [hskip]
  intro htext
  rw [Token.eq_mark_of_text hvalid hlexeme htext, Token.isClosing, hm] at hstart
  cases hstart

/-- What is written is read: the tokens of a part give a reader as many steps as it takes. -/
theorem Written.readsPart {p : Part} {rest : List Token} (h : Written .strict d p ts rest) :
    ReadsPart d p ts rest := by
  induction h with
  | @scalar depth text v hscalar rest =>
      intro n us hn hplain hlexemes hfollows
      obtain ⟨-, -, us', hplain', hlexemes', hskip⟩ := exists_skipSpace hplain hlexemes
      rw [List.length_cons] at hn
      obtain ⟨n, rfl⟩ : ∃ k, n = k + 1 := ⟨n - 1, by omega⟩
      refine ⟨us', hplain', hlexemes', ?_⟩
      rw [hskip]
      exact value_of_scalar (scalar_append (ends_of_follows hplain' (hlexemes' ▸ hfollows)) hscalar)
  | @string depth raw s hquoting rest =>
      intro n us hn hplain hlexemes hfollows
      obtain ⟨-, -, us', hplain', hlexemes', hskip⟩ := exists_skipSpace hplain hlexemes
      rw [List.length_cons] at hn
      obtain ⟨n, rfl⟩ : ∃ k, n = k + 1 := ⟨n - 1, by omega⟩
      refine ⟨us', hplain', hlexemes', ?_⟩
      rw [hskip]
      exact value_string (string_quoting hquoting _)
  | @emptyList depth rest =>
      intro n us hn hplain hlexemes hfollows
      obtain ⟨-, -, us₁, hplain₁, hlexemes₁, hskip₁⟩ := exists_skipSpace hplain hlexemes
      obtain ⟨-, -, us₂, hplain₂, hlexemes₂, hskip₂⟩ := exists_skipSpace hplain₁ hlexemes₁
      rw [List.length_cons, List.length_cons] at hn
      obtain ⟨n, rfl⟩ : ∃ k, n = k + 1 := ⟨n - 1, by omega⟩
      refine ⟨us₂, hplain₂, hlexemes₂, ?_⟩
      rw [hskip₁]
      exact value_emptyList hskip₂
  | @list depth vs ts rest h ih =>
      intro n us hn hplain hlexemes hfollows
      obtain ⟨-, -, us₁, hplain₁, hlexemes₁, hskip₁⟩ := exists_skipSpace hplain hlexemes
      rw [List.length_cons] at hn
      obtain ⟨n, rfl⟩ : ∃ k, n = k + 1 := ⟨n - 1, by have := h.length_lt; omega⟩
      obtain ⟨us₂, hplain₂, hlexemes₂, hread⟩ := ih n us₁ (by omega) hplain₁ hlexemes₁
      refine ⟨us₂, hplain₂, hlexemes₂, ?_⟩
      have hclose := h.no_closing (m := .closeList) hplain₁ hlexemes₁ rfl
      rw [hskip₁]
      exact (value_list hclose).trans (by rw [hread]; rfl)
  | @emptyObject depth rest =>
      intro n us hn hplain hlexemes hfollows
      obtain ⟨-, -, us₁, hplain₁, hlexemes₁, hskip₁⟩ := exists_skipSpace hplain hlexemes
      obtain ⟨-, -, us₂, hplain₂, hlexemes₂, hskip₂⟩ := exists_skipSpace hplain₁ hlexemes₁
      rw [List.length_cons, List.length_cons] at hn
      obtain ⟨n, rfl⟩ : ∃ k, n = k + 1 := ⟨n - 1, by omega⟩
      refine ⟨us₂, hplain₂, hlexemes₂, ?_⟩
      rw [hskip₁]
      exact value_emptyObject hskip₂
  | @object depth fs ts rest hkeys h ih =>
      intro n us hn hplain hlexemes hfollows
      obtain ⟨-, -, us₁, hplain₁, hlexemes₁, hskip₁⟩ := exists_skipSpace hplain hlexemes
      rw [List.length_cons] at hn
      obtain ⟨n, rfl⟩ : ∃ k, n = k + 1 := ⟨n - 1, by have := h.length_lt; omega⟩
      obtain ⟨us₂, hplain₂, hlexemes₂, hread⟩ := ih n us₁ (by omega) hplain₁ hlexemes₁
      refine ⟨us₂, hplain₂, hlexemes₂, ?_⟩
      have hclose := h.no_closing (m := .closeObject) hplain₁ hlexemes₁ rfl
      rw [hskip₁]
      exact (value_object hclose).trans (by rw [hread]; rfl)
  | @lastItem depth v ts us rest h hclose ih =>
      intro n ws hn hplain hlexemes
      obtain rfl := hclose.eq_of_strict
      have hlt := h.length_lt
      rw [List.length_cons] at hlt
      obtain ⟨n, rfl⟩ : ∃ k, n = k + 1 := ⟨n - 1, by omega⟩
      obtain ⟨ws₁, hplain₁, hlexemes₁, hread⟩ := ih n ws (by simp only [List.length_cons]; omega)
        hplain hlexemes (follows_closes rfl rest)
      obtain ⟨-, -, ws₂, hplain₂, hlexemes₂, hskip⟩ := exists_skipSpace hplain₁ hlexemes₁
      exact ⟨ws₂, hplain₂, hlexemes₂, items_last hread hskip⟩
  | @item depth v vs ts us rest h hrest ih ihrest =>
      intro n ws hn hplain hlexemes
      have hlt := h.length_lt
      have hltrest := hrest.length_lt
      rw [List.length_cons] at hlt
      obtain ⟨n, rfl⟩ : ∃ k, n = k + 1 := ⟨n - 1, by omega⟩
      obtain ⟨ws₁, hplain₁, hlexemes₁, hread⟩ := ih n ws (by simp only [List.length_cons]; omega)
        hplain hlexemes (follows_comma us)
      obtain ⟨-, -, ws₂, hplain₂, hlexemes₂, hskip⟩ := exists_skipSpace hplain₁ hlexemes₁
      obtain ⟨ws₃, hplain₃, hlexemes₃, hmore⟩ := ihrest n ws₂ (by omega) hplain₂ hlexemes₂
      exact ⟨ws₃, hplain₃, hlexemes₃, items_next hread hskip hmore⟩
  | @lastField depth raw k v ts us rest hkey h hclose ih =>
      intro n ws hn hplain hlexemes
      obtain rfl := hclose.eq_of_strict
      have hlt := h.length_lt
      rw [List.length_cons] at hlt
      rw [List.length_cons, List.length_cons] at hn
      obtain ⟨n, rfl⟩ : ∃ k, n = k + 1 := ⟨n - 1, by omega⟩
      obtain ⟨-, -, ws₁, hplain₁, hlexemes₁, hskip₁⟩ := exists_skipSpace hplain hlexemes
      obtain ⟨-, -, ws₂, hplain₂, hlexemes₂, hskip₂⟩ := exists_skipSpace hplain₁ hlexemes₁
      obtain ⟨ws₃, hplain₃, hlexemes₃, hread⟩ := ih n ws₂ (by simp only [List.length_cons]; omega)
        hplain₂ hlexemes₂ (follows_closes rfl rest)
      obtain ⟨-, -, ws₄, hplain₄, hlexemes₄, hskip₄⟩ := exists_skipSpace hplain₃ hlexemes₃
      refine ⟨ws₄, hplain₄, hlexemes₄, ?_⟩
      rw [hskip₁]
      exact fields_last (string_quoting hkey _) hskip₂ hread hskip₄
  | @field depth raw k v fs ts us rest hkey h hrest ih ihrest =>
      intro n ws hn hplain hlexemes
      have hlt := h.length_lt
      have hltrest := hrest.length_lt
      rw [List.length_cons] at hlt
      rw [List.length_cons, List.length_cons] at hn
      obtain ⟨n, rfl⟩ : ∃ k, n = k + 1 := ⟨n - 1, by omega⟩
      obtain ⟨-, -, ws₁, hplain₁, hlexemes₁, hskip₁⟩ := exists_skipSpace hplain hlexemes
      obtain ⟨-, -, ws₂, hplain₂, hlexemes₂, hskip₂⟩ := exists_skipSpace hplain₁ hlexemes₁
      obtain ⟨ws₃, hplain₃, hlexemes₃, hread⟩ := ih n ws₂ (by simp only [List.length_cons]; omega)
        hplain₂ hlexemes₂ (follows_comma us)
      obtain ⟨-, -, ws₄, hplain₄, hlexemes₄, hskip₄⟩ := exists_skipSpace hplain₃ hlexemes₃
      obtain ⟨ws₅, hplain₅, hlexemes₅, hmore⟩ := ihrest n ws₄ (by omega) hplain₄ hlexemes₄
      refine ⟨ws₅, hplain₅, hlexemes₅, ?_⟩
      rw [hskip₁]
      exact fields_next (string_quoting hkey _) hskip₂ hread hskip₄ hmore

/-! ## Only what is written is read -/

/-- How a value is read, with `n` steps left for its parts. -/
inductive ValueStep (n : Nat) : Nat → List Char → Json → List Char → Prop where
  | scalar {d : Nat} {cs rest : List Char} {v : Json} (h : scalar cs = .ok (v, rest)) :
      ValueStep n d cs v rest
  | string {d : Nat} {cs rest : List Char} {s : String} (h : string cs = .ok (s, rest)) :
      ValueStep n d ('"' :: cs) (.str s) rest
  | emptyList {d : Nat} {cs rest : List Char} (h : skipSpace cs = ']' :: rest) :
      ValueStep n (d + 1) ('[' :: cs) (.arr []) rest
  | list {d : Nat} {cs rest : List Char} {vs : List Json}
      (h : items n d (skipSpace cs) = .ok (vs, rest)) :
      ValueStep n (d + 1) ('[' :: cs) (.arr vs) rest
  | emptyObject {d : Nat} {cs rest : List Char} (h : skipSpace cs = '}' :: rest) :
      ValueStep n (d + 1) ('{' :: cs) (.obj []) rest
  | object {d : Nat} {cs rest : List Char} {fs : List (String × Json)}
      (h : fields n d (skipSpace cs) = .ok (fs, rest)) :
      ValueStep n (d + 1) ('{' :: cs) (.ofFields fs) rest

theorem valueStep (h : value (n + 1) d cs = .ok (v, rest)) : ValueStep n d cs v rest := by
  unfold value at h
  split at h
  · cases h
  · next cs' _ =>
      obtain ⟨r, hstring, h⟩ := exists_of_bind_ok h
      cases h
      exact .string hstring
  · cases h
  · cases h
  · next d' cs' heq =>
      cases heq
      split at h
      · next hskip =>
          cases h
          exact .emptyList hskip
      · obtain ⟨r, hitems, h⟩ := exists_of_bind_ok h
        cases h
        exact .list hitems
  · next d' cs' heq =>
      cases heq
      split at h
      · next hskip =>
          cases h
          exact .emptyObject hskip
      · obtain ⟨r, hfields, h⟩ := exists_of_bind_ok h
        cases h
        exact .object hfields
  · exact .scalar h

/-- How items are read. -/
inductive ItemsStep (n d : Nat) : List Char → List Json → List Char → Prop where
  | last {cs rest after : List Char} {v : Json} (h : value n d cs = .ok (v, rest))
      (hclose : skipSpace rest = ']' :: after) : ItemsStep n d cs [v] after
  | next {cs rest more after : List Char} {v : Json} {vs : List Json}
      (h : value n d cs = .ok (v, rest)) (hcomma : skipSpace rest = ',' :: more)
      (hmore : items n d (skipSpace more) = .ok (vs, after)) : ItemsStep n d cs (v :: vs) after

theorem itemsStep {vs : List Json} (h : items (n + 1) d cs = .ok (vs, rest)) :
    ItemsStep n d cs vs rest := by
  rw [items] at h
  obtain ⟨⟨v, rest'⟩, hvalue, h⟩ := exists_of_bind_ok h
  dsimp only at h
  split at h
  · next hskip =>
      cases h
      exact .last hvalue hskip
  · next more hskip =>
      obtain ⟨r, hitems, h⟩ := exists_of_bind_ok h
      cases h
      exact .next hvalue hskip hitems
  · cases h

/-- How fields are read. -/
inductive FieldsStep (n d : Nat) : List Char → List (String × Json) → List Char → Prop where
  | last {cs rest rest' rest'' after : List Char} {k : String} {v : Json}
      (hkey : string cs = .ok (k, rest)) (hcolon : skipSpace rest = ':' :: rest')
      (h : value n d (skipSpace rest') = .ok (v, rest''))
      (hclose : skipSpace rest'' = '}' :: after) : FieldsStep n d ('"' :: cs) [(k, v)] after
  | next {cs rest rest' rest'' more after : List Char} {k : String} {v : Json}
      {fs : List (String × Json)} (hkey : string cs = .ok (k, rest))
      (hcolon : skipSpace rest = ':' :: rest')
      (h : value n d (skipSpace rest') = .ok (v, rest''))
      (hcomma : skipSpace rest'' = ',' :: more)
      (hmore : fields n d (skipSpace more) = .ok (fs, after)) :
      FieldsStep n d ('"' :: cs) ((k, v) :: fs) after

theorem fieldsStep {fs : List (String × Json)} (h : fields (n + 1) d cs = .ok (fs, rest)) :
    FieldsStep n d cs fs rest := by
  unfold fields at h
  split at h
  · cases h
  · next heq =>
      cases heq
      obtain ⟨⟨k, rest'⟩, hkey, h⟩ := exists_of_bind_ok h
      dsimp only at h
      split at h
      · next after hcolon =>
          obtain ⟨⟨v, rest''⟩, hvalue, h⟩ := exists_of_bind_ok h
          dsimp only at h
          split at h
          · next hclose =>
              cases h
              exact .last hkey hcolon hvalue hclose
          · next more hcomma =>
              obtain ⟨r, hfields, h⟩ := exists_of_bind_ok h
              cases h
              exact .next hkey hcolon hvalue hcomma hfields
          · cases h
      · cases h
  · cases h

/-- A text up to `rest` is that of a part. -/
def Spells (depth : Nat) (p : Part) (cs rest : List Char) : Prop :=
  ∃ us, Plain us ∧ cs = tokensText us ++ rest ∧
    ∀ ts, Written .strict depth p (lexemes us ++ ts) ts

theorem exists_blanks (cs : List Char) :
    ∃ us, Plain us ∧ lexemes us = [] ∧ cs = tokensText us ++ skipSpace cs := by
  induction cs with
  | nil => exact ⟨[], plain_nil, rfl, rfl⟩
  | cons c cs ih =>
      by_cases hc : isSpace c = true
      · obtain ⟨us, hplain, hlexemes, hcs⟩ := ih
        refine ⟨.blank c :: us, plain_cons.mpr ⟨⟨hc, rfl⟩, hplain⟩, ?_, ?_⟩
        · rw [lexemes_cons_of_layout rfl, hlexemes]
        · rw [skipSpace, List.dropWhile_cons_of_pos hc, tokensText_cons]
          exact congrArg (c :: ·) hcs
      · refine ⟨[], plain_nil, rfl, ?_⟩
        rw [skipSpace, List.dropWhile_cons_of_neg hc]
        rfl

theorem exists_mark {m : Mark} (h : skipSpace cs = m.char :: rest) :
    ∃ us, Plain us ∧ cs = tokensText us ++ rest ∧ lexemes us = [.mark m] := by
  obtain ⟨us, hplain, hlexemes, hcs⟩ := exists_blanks cs
  refine ⟨us ++ [.mark m], ?_, ?_, ?_⟩
  · exact plain_append.mpr ⟨hplain, plain_cons.mpr ⟨⟨trivial, rfl⟩, plain_nil⟩⟩
  · rw [hcs, h]
    simp [Token.text]
  · rw [lexemes_append, hlexemes]
    rfl

theorem exists_string {s : String} (h : string cs = .ok (s, rest)) :
    ∃ raw, cs = raw ++ '"' :: rest ∧ Quoting raw s.toList := by
  unfold string at h
  split at h
  · next s' rest' hread =>
      cases h
      rw [String.toList_ofList]
      exact exists_quoting hread
  · cases h

theorem Spells.of_skipSpace {p : Part} (h : Spells d p (skipSpace cs) rest) :
    Spells d p cs rest := by
  obtain ⟨us, hplain, hcs, hwritten⟩ := h
  obtain ⟨bs, hplain', hlexemes, hcs'⟩ := exists_blanks cs
  refine ⟨bs ++ us, plain_append.mpr ⟨hplain', hplain⟩, ?_, fun ts => ?_⟩
  · rw [hcs', hcs, tokensText_append, List.append_assoc]
  · rw [lexemes_append, hlexemes]
    exact hwritten ts

/-- A mark in front of the text of a part. -/
theorem Spells.cons_mark {p q : Part} {d' : Nat} (m : Mark) (h : Spells d p cs rest)
    (hmark : ∀ {ts us}, Written .strict d p ts us → Written .strict d' q (.mark m :: ts) us) :
    Spells d' q (m.char :: cs) rest := by
  obtain ⟨us, hplain, rfl, hwritten⟩ := h
  exact ⟨.mark m :: us, plain_cons.mpr ⟨⟨trivial, rfl⟩, hplain⟩, rfl, fun ts => hmark (hwritten ts)⟩

/-- Two marks with blanks between them. -/
theorem spells_marks {p : Part} (m m' : Mark) (h : skipSpace cs = m'.char :: rest)
    (hmarks : ∀ ts, Written .strict d p (.mark m :: .mark m' :: ts) ts) :
    Spells d p (m.char :: cs) rest := by
  obtain ⟨us, hplain, rfl, hlexemes⟩ := exists_mark h
  refine ⟨.mark m :: us, plain_cons.mpr ⟨⟨trivial, rfl⟩, hplain⟩, rfl, fun ts => ?_⟩
  rw [lexemes_cons_of_lexeme rfl, hlexemes]
  exact hmarks ts

theorem spells_items {vs : List Json} (h : ItemsStep n d cs vs rest)
    (hvalue : ∀ {cs v rest}, value n d cs = .ok (v, rest) → Spells d (.value v) cs rest)
    (hitems : ∀ {cs vs rest}, items n d cs = .ok (vs, rest) → Spells d (.items vs) cs rest) :
    Spells d (.items vs) cs rest := by
  cases h with
  | last h hclose =>
      obtain ⟨us, hplain, rfl, hwritten⟩ := hvalue h
      obtain ⟨us', hplain', rfl, hlexemes⟩ := exists_mark (m := .closeList) hclose
      refine ⟨us ++ us', plain_append.mpr ⟨hplain, hplain'⟩, by simp, fun ts => ?_⟩
      rw [lexemes_append, List.append_assoc, hlexemes]
      exact .lastItem (hwritten _) (.plain ts)
  | next h hcomma hmore =>
      obtain ⟨us, hplain, rfl, hwritten⟩ := hvalue h
      obtain ⟨us', hplain', rfl, hlexemes⟩ := exists_mark (m := .comma) hcomma
      obtain ⟨us'', hplain'', rfl, hwritten'⟩ := (hitems hmore).of_skipSpace
      refine ⟨us ++ (us' ++ us''), ?_, by simp, fun ts => ?_⟩
      · exact plain_append.mpr ⟨hplain, plain_append.mpr ⟨hplain', hplain''⟩⟩
      · rw [lexemes_append, lexemes_append, List.append_assoc, List.append_assoc, hlexemes]
        exact .item (hwritten _) (hwritten' ts)

/-- A key with its colon and its value. -/
theorem exists_field {k : String} {v : Json} {rest' rest'' : List Char}
    (hkey : string cs = .ok (k, rest)) (hcolon : skipSpace rest = ':' :: rest')
    (hvalue : Spells d (.value v) rest' rest'') :
    ∃ raw us, Plain (.string raw :: us) ∧ Quoting raw k.toList ∧
      '"' :: cs = tokensText (.string raw :: us) ++ rest'' ∧
      ∀ ts, ∃ ts', lexemes us ++ ts = .mark .colon :: ts' ∧
        Written .strict d (.value v) ts' ts := by
  obtain ⟨raw, rfl, hquoting⟩ := exists_string hkey
  obtain ⟨us, hplain, rfl, hlexemes⟩ := exists_mark (m := .colon) hcolon
  obtain ⟨us', hplain', rfl, hwritten⟩ := hvalue
  refine ⟨raw, us ++ us', ?_, hquoting, by simp [Token.text], fun ts => ?_⟩
  · exact plain_cons.mpr ⟨⟨⟨_, hquoting⟩, rfl⟩, plain_append.mpr ⟨hplain, hplain'⟩⟩
  · refine ⟨_, ?_, hwritten ts⟩
    rw [lexemes_append, hlexemes]
    rfl

theorem spells_fields {fs : List (String × Json)} (h : FieldsStep n d cs fs rest)
    (hvalue : ∀ {cs v rest}, value n d cs = .ok (v, rest) → Spells d (.value v) cs rest)
    (hfields : ∀ {cs fs rest}, fields n d cs = .ok (fs, rest) → Spells d (.fields fs) cs rest) :
    Spells d (.fields fs) cs rest := by
  cases h with
  | last hkey hcolon h hclose =>
      obtain ⟨raw, us, hplain, hquoting, hcs, hwritten⟩ :=
        exists_field hkey hcolon (hvalue h).of_skipSpace
      obtain ⟨us', hplain', rfl, hlexemes⟩ := exists_mark (m := .closeObject) hclose
      refine ⟨.string raw :: us ++ us', plain_append.mpr ⟨hplain, hplain'⟩, ?_, fun ts => ?_⟩
      · rw [hcs, tokensText_append, List.append_assoc]
      · obtain ⟨ts', hts, hv⟩ := hwritten (.mark .closeObject :: ts)
        rw [lexemes_append, List.append_assoc, hlexemes, lexemes_cons_of_lexeme rfl,
          List.cons_append, List.singleton_append, hts]
        exact .lastField hquoting hv (.plain ts)
  | next hkey hcolon h hcomma hmore =>
      obtain ⟨raw, us, hplain, hquoting, hcs, hwritten⟩ :=
        exists_field hkey hcolon (hvalue h).of_skipSpace
      obtain ⟨us', hplain', rfl, hlexemes⟩ := exists_mark (m := .comma) hcomma
      obtain ⟨us'', hplain'', rfl, hwritten'⟩ := (hfields hmore).of_skipSpace
      refine ⟨.string raw :: us ++ (us' ++ us''), ?_, ?_, fun ts => ?_⟩
      · exact plain_append.mpr ⟨hplain, plain_append.mpr ⟨hplain', hplain''⟩⟩
      · rw [hcs, tokensText_append, tokensText_append, List.append_assoc, List.append_assoc]
      · obtain ⟨ts', hts, hv⟩ := hwritten (.mark .comma :: (lexemes us'' ++ ts))
        rw [lexemes_append, lexemes_append, List.append_assoc, List.append_assoc, hlexemes,
          lexemes_cons_of_lexeme rfl, List.cons_append, List.singleton_append, hts]
        exact .field hquoting hv (hwritten' ts)

/-- Whatever is read is written there. By induction on the number of steps, for all three readers
at once. -/
theorem spells (n : Nat) :
    (∀ {d cs v rest}, value n d cs = .ok (v, rest) → Spells d (.value v) cs rest) ∧
    (∀ {d cs vs rest}, items n d cs = .ok (vs, rest) → Spells d (.items vs) cs rest) ∧
    (∀ {d cs fs rest}, fields n d cs = .ok (fs, rest) → Spells d (.fields fs) cs rest) := by
  induction n with
  | zero =>
      refine ⟨fun h => ?_, fun h => ?_, fun h => ?_⟩
      · rw [value] at h
        cases h
      · rw [items] at h
        cases h
      · rw [fields] at h
        cases h
  | succ n ih =>
      obtain ⟨ihvalue, ihitems, ihfields⟩ := ih
      refine ⟨fun h => ?_, fun h => spells_items (itemsStep h) ihvalue ihitems,
        fun h => spells_fields (fieldsStep h) ihvalue ihfields⟩
      cases valueStep h with
      | scalar h =>
          obtain ⟨text, rfl, -, hscalar⟩ := scalar_takes h
          exact ⟨[.scalar text], plain_cons.mpr ⟨⟨⟨_, hscalar⟩, rfl⟩, plain_nil⟩,
            by simp [Token.text], fun ts => .scalar _ hscalar ts⟩
      | string h =>
          obtain ⟨raw, rfl, hquoting⟩ := exists_string h
          exact ⟨[.string raw], plain_cons.mpr ⟨⟨⟨_, hquoting⟩, rfl⟩, plain_nil⟩,
            by simp [Token.text], fun ts => .string _ hquoting ts⟩
      | emptyList h => exact spells_marks .openList .closeList h fun ts => .emptyList _ ts
      | list h => exact (ihitems h).of_skipSpace.cons_mark .openList fun h => .list h
      | emptyObject h => exact spells_marks .openObject .closeObject h fun ts => .emptyObject _ ts
      | object h =>
          exact (ihfields h).of_skipSpace.cons_mark .openObject fun h => .object (.inl rfl) h

/-! ## Texts -/

theorem Token.text_ne_nil (hvalid : t.Valid) : t.text ≠ [] := by
  cases t with
  | blank c | lineComment content | blockComment content | mark m | string raw =>
      exact List.cons_ne_nil _ _
  | scalar text =>
      rintro htext
      obtain ⟨v, hscalar⟩ := hvalid
      rw [show text = [] from htext] at hscalar
      cases hscalar

theorem length_lexemes_le (hplain : Plain us) :
    (lexemes us).length ≤ (tokensText us).length := by
  induction us with
  | nil => exact Nat.le_refl _
  | cons u us ih =>
      obtain ⟨⟨hvalid, -⟩, hrest⟩ := plain_cons.mp hplain
      have htext := List.length_pos_iff.mpr (Token.text_ne_nil hvalid)
      have hle := ih hrest
      rw [tokensText_cons, List.length_append]
      cases hlexeme : u.isLexeme with
      | true =>
          rw [lexemes_cons_of_lexeme hlexeme, List.length_cons]
          omega
      | false =>
          rw [lexemes_cons_of_layout hlexeme]
          omega

theorem parse_tokensText (hplain : Plain us)
    (h : Written .strict depthLimit (.value v) (lexemes us) []) :
    parse (tokensText us) = .ok v := by
  have hlength := length_lexemes_le hplain
  obtain ⟨us', hplain', hlexemes, hread⟩ :=
    h.readsPart (2 * (tokensText us).length + 1) us (by rw [List.length_nil]; omega) hplain rfl
      follows_nil
  have hdocument : document (tokensText us) = .ok v := by
    rw [document, hread]
    dsimp only
    rw [skipSpace_of_no_lexemes hplain' hlexemes]
  rw [parse, hdocument]
  rfl

/-- A text is read as a value just if its tokens are those of the value, with blanks between. -/
theorem parse_eq_ok_iff : parse cs = .ok v ↔
    ∃ us, Plain us ∧ cs = tokensText us ∧
      Written .strict depthLimit (.value v) (lexemes us) [] := by
  constructor
  · intro h
    unfold parse document at h
    cases hread : value (2 * cs.length + 1) depthLimit (skipSpace cs) with
    | error e =>
        rw [hread] at h
        cases h
    | ok r =>
        obtain ⟨v', rest⟩ := r
        rw [hread] at h
        dsimp only at h
        split at h
        · next hrest =>
            cases h
            obtain ⟨us, hplain, rfl, hwritten⟩ := ((spells _).1 hread).of_skipSpace
            obtain ⟨bs, hplain', hlexemes, hblank⟩ := exists_blanks rest
            refine ⟨us ++ bs, plain_append.mpr ⟨hplain, hplain'⟩, ?_, ?_⟩
            · rw [tokensText_append, ← List.append_nil (tokensText bs), ← hrest, ← hblank]
            · rw [lexemes_append, hlexemes]
              exact hwritten []
        · cases h
  · rintro ⟨us, hplain, rfl, h⟩
    exact parse_tokensText hplain h

end SfcCheck.Json
