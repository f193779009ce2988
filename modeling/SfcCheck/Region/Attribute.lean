import SfcCheck.Table
import SfcCheck.Text.Blank
import SfcCheck.Text.LowerCase

/-!
# Attributes of a tag

Names with their values, as they stand between the tag name and the end of an opening tag. A value
is quoted either way or bare; a name without a value has the empty one. Names are lower-cased, and
of several equal names the last one counts. What is no attribute is skipped.
-/

namespace SfcCheck.Attribute

/-- The characters of a name. -/
def isNameChar (c : Char) : Bool :=
  !(Text.isBlank c || c == '"' || c == '\'' || c == '<' || c == '>' || c == '/' || c == '=')

/-- The characters of a bare value. -/
def isBareChar (c : Char) : Bool :=
  !(Text.isBlank c || c == '"' || c == '\'' || c == '=' || c == '<' || c == '>' || c == '`')

/-- A value up to the quote `q`, and what follows the quote. -/
def quoted? (q : Char) (cs : List Char) : Option (List Char × List Char) :=
  match cs.dropWhile (· != q) with
  | _ :: rest => some (cs.takeWhile (· != q), rest)
  | [] => none

/-- A value and what follows it. -/
def value? : List Char → Option (List Char × List Char)
  | [] => none
  | c :: cs =>
    if c = '"' ∨ c = '\'' then quoted? c cs
    else if isBareChar c then some (c :: cs.takeWhile isBareChar, cs.dropWhile isBareChar)
    else none

/-- The value that is assigned at the start of a text, and what follows it. -/
def assigned? (cs : List Char) : Option (List Char × List Char) :=
  match Text.trimLeft Text.isBlank cs with
  | '=' :: rest => value? (Text.trimLeft Text.isBlank rest)
  | _ => none

theorem length_quoted? {q : Char} {cs v rest : List Char} (h : quoted? q cs = some (v, rest)) :
    rest.length < cs.length := by
  have hl := (List.dropWhile_sublist (· != q) (l := cs)).length_le
  grind [quoted?]

theorem length_value? {cs v rest : List Char} (h : value? cs = some (v, rest)) :
    rest.length ≤ cs.length := by
  cases cs with
  | nil => simp [value?] at h
  | cons c cs =>
    simp only [value?] at h
    split at h
    · have := length_quoted? h
      simp only [List.length_cons]
      omega
    · have hl := (List.dropWhile_sublist isBareChar (l := cs)).length_le
      grind

theorem length_trimLeft_le (p : Char → Bool) (cs : List Char) :
    (Text.trimLeft p cs).length ≤ cs.length :=
  (List.dropWhile_sublist p).length_le

theorem length_assigned? {cs v rest : List Char} (h : assigned? cs = some (v, rest)) :
    rest.length ≤ cs.length := by
  simp only [assigned?] at h
  have h1 := length_trimLeft_le Text.isBlank cs
  split at h
  · next r hr =>
    rw [hr] at h1
    have h2 := length_value? h
    have h3 := length_trimLeft_le Text.isBlank r
    simp only [List.length_cons] at h1
    omega
  · simp at h

/-- The names and values in the order in which they are written. -/
def scan : List Char → List (String × String)
  | [] => []
  | c :: cs =>
    if isNameChar c then
      let name := String.ofList (Text.lowerCase (c :: cs.takeWhile isNameChar))
      match _h : assigned? (cs.dropWhile isNameChar) with
      | some (v, rest) => (name, String.ofList v) :: scan rest
      | none => (name, "") :: scan (cs.dropWhile isNameChar)
    else scan cs
termination_by cs => cs.length
decreasing_by
  · have h1 := length_assigned? _h
    have h2 := (List.dropWhile_sublist isNameChar (l := cs)).length_le
    simp only [List.length_cons]
    omega
  · have h2 := (List.dropWhile_sublist isNameChar (l := cs)).length_le
    simp only [List.length_cons]
    omega
  · simp

/-- The attributes of a tag. -/
def ofText (raw : List Char) : Table String := .ofList (scan raw)

end SfcCheck.Attribute
