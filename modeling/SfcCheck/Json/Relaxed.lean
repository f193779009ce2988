import SfcCheck.Json.Parser
import SfcCheck.Text.Blank

/-!
# JSON with comments

Compiler configuration files may hold comments and trailing commas. Both are taken out before the
text is read: comments outside terminated strings, from left to right, and then every comma that is
followed by nothing but blanks and a closing bracket or brace. The second pass looks at the whole
text, strings included.
-/

namespace SfcCheck.Json

/-- What follows a string and the string itself with its quotes, given the text after the opening
quote; nothing if it is not terminated. A backslash takes the next character with it. -/
def quotedToken? : List Char → Option (List Char × List Char)
  | [] => none
  | '"' :: cs => some (['"'], cs)
  | '\\' :: c :: cs => (quotedToken? cs).map fun (t, rest) => ('\\' :: c :: t, rest)
  | ['\\'] => none
  | c :: cs => (quotedToken? cs).map fun (t, rest) => (c :: t, rest)

/-- What follows a block comment, given the text after its opening. -/
def afterBlockComment? : List Char → Option (List Char)
  | [] => none
  | '*' :: '/' :: cs => some cs
  | _ :: cs => afterBlockComment? cs

/-- The text after a line comment, from the line end on. -/
def afterLineComment (cs : List Char) : List Char := cs.dropWhile (· != '\n')

theorem length_of_quotedToken? {cs t rest : List Char} (h : quotedToken? cs = some (t, rest)) :
    rest.length < cs.length := by
  fun_induction quotedToken? cs generalizing t with
  | case1 => simp at h
  | case2 cs => simp only [Option.some.injEq, Prod.mk.injEq] at h; simp [h.2]
  | case3 c cs ih =>
    obtain ⟨⟨t', r'⟩, hr, he⟩ := Option.map_eq_some_iff.1 h
    cases he
    have := ih hr
    simp only [List.length_cons]; omega
  | case4 => simp at h
  | case5 c cs _ _ _ ih =>
    obtain ⟨⟨t', r'⟩, hr, he⟩ := Option.map_eq_some_iff.1 h
    cases he
    have := ih hr
    simp only [List.length_cons]; omega

theorem length_of_afterBlockComment? {cs rest : List Char}
    (h : afterBlockComment? cs = some rest) : rest.length < cs.length := by
  fun_induction afterBlockComment? cs with
  | case1 => simp at h
  | case2 cs => simp only [Option.some.injEq] at h; subst h; simp only [List.length_cons]; omega
  | case3 c cs _ ih => have := ih h; simp only [List.length_cons]; omega

theorem length_afterLineComment (cs : List Char) : (afterLineComment cs).length ≤ cs.length :=
  (List.dropWhile_sublist _).length_le

/-- A text without its comments. An opening that is never closed is kept as it is. -/
def stripComments : List Char → List Char
  | [] => []
  | '"' :: cs =>
    match h : quotedToken? cs with
    | some (t, rest) =>
      have := length_of_quotedToken? h
      '"' :: t ++ stripComments rest
    | none => '"' :: stripComments cs
  | '/' :: '/' :: cs =>
    have := length_afterLineComment cs
    stripComments (afterLineComment cs)
  | '/' :: '*' :: cs =>
    match h : afterBlockComment? cs with
    | some rest =>
      have := length_of_afterBlockComment? h
      stripComments rest
    | none => '/' :: stripComments ('*' :: cs)
  | c :: cs => c :: stripComments cs
termination_by cs => cs.length

/-- Whether the next character that is not blank closes a list or an object. -/
def closesNext (cs : List Char) : Bool :=
  match cs.dropWhile Text.isBlank with
  | c :: _ => c == '}' || c == ']'
  | [] => false

/-- A text without its trailing commas. -/
def stripTrailingCommas : List Char → List Char
  | [] => []
  | c :: cs =>
    if c = ',' ∧ closesNext cs then stripTrailingCommas cs else c :: stripTrailingCommas cs

/-- Reads a text that may hold comments and trailing commas. Places in a refusal are those of the
text without them. -/
def parseRelaxed (cs : List Char) : Except ReadError Json :=
  parseText (stripTrailingCommas (stripComments cs))

end SfcCheck.Json
