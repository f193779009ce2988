import SfcCheck.Json.Basic
import SfcCheck.Decimal.Layout
import SfcCheck.Text.DecimalDigit

/-!
# Reading JSON

A reader for JSON text that also takes `NaN`, `Infinity` and `-Infinity`. A refusal names its cause
and the place in the text. Integers of more than 4300 digits and values nested too deep are refused
as well, numbers with a fraction or an exponent are rounded to nearest.

Every reader takes what is left of the text and returns its value with what is left after it, so
that a place is known by what remains there. A reader of values also takes the number of levels that
are left for nesting.

A surrogate without its partner is not kept but becomes U+FFFD, since a string has no place for it.
So texts and keys that differ in nothing else come out the same here, and a later key takes the
place of an earlier one.
-/

namespace SfcCheck.Json

/-- Why a text is no JSON. -/
inductive Cause where
  | expectedValue
  | expectedName
  | expectedColon
  | expectedComma
  | unterminatedString
  | controlCharacter
  | invalidEscape
  | invalidUnicodeEscape
  | extraData
  | byteOrderMark
deriving DecidableEq, Repr

def Cause.message : Cause → String
  | .expectedValue => "Expecting value"
  | .expectedName => "Expecting property name enclosed in double quotes"
  | .expectedColon => "Expecting ':' delimiter"
  | .expectedComma => "Expecting ',' delimiter"
  | .unterminatedString => "Unterminated string starting at"
  | .controlCharacter => "Invalid control character at"
  | .invalidEscape => "Invalid \\escape"
  | .invalidUnicodeEscape => "Invalid \\uXXXX escape"
  | .extraData => "Extra data"
  | .byteOrderMark => "Unexpected UTF-8 BOM (decode using utf-8-sig)"

/-- The number of digits that an integer may have in a text. -/
def digitLimit : Nat := 4300

/-- The number of levels to which lists and objects may be nested. It is no property of the format:
it is what a stack of a thousand frames leaves to the reader where the calls of a run stand, and it
shrinks with the frames that are in use there. -/
def depthLimit : Nat := 985

/-- The kinds of value that hold others. -/
inductive Container where
  | list
  | object
deriving DecidableEq, Repr

/-- The name of a container in messages. -/
def Container.name : Container → String
  | .list => "array"
  | .object => "object"

/-- A refusal. A place is an offset with its line and column, both counted from one. -/
inductive ReadError where
  | malformed (cause : Cause) (line column offset : Nat)
  | tooManyDigits (count : Nat)
  /-- A container is nested too deep. -/
  | tooDeep (container : Container)
deriving DecidableEq, Repr

/-- A refusal within a text, at the place where `rest` is left. -/
inductive Refusal where
  | at (cause : Cause) (rest : List Char)
  | tooManyDigits (count : Nat)
  | tooDeep (container : Container)

/-- The outcome of reading a part of a text. -/
abbrev Reading (α : Type) := Except Refusal (α × List Char)

/-- The characters that may stand between tokens. -/
def isSpace (c : Char) : Bool := c == ' ' || c == '\t' || c == '\n' || c == '\r'

def skipSpace (cs : List Char) : List Char := cs.dropWhile isSpace

/-! ## Strings -/

/-- The unit written by four hexadecimal digits. -/
def unit? (a b c d : Char) : Option Nat := do
  let a ← Text.hexDigit? a
  let b ← Text.hexDigit? b
  let c ← Text.hexDigit? c
  let d ← Text.hexDigit? d
  return ((a * 16 + b) * 16 + c) * 16 + d

/-- The character that a letter after a backslash stands for. -/
def escaped? (c : Char) : Option Char :=
  if c = '"' ∨ c = '\\' ∨ c = '/' then some c
  else if c = 'b' then some (Char.ofNat 8)
  else if c = 'f' then some (Char.ofNat 12)
  else if c = 'n' then some '\n'
  else if c = 'r' then some '\r'
  else if c = 't' then some '\t'
  else none

/-- A unit as a character. A surrogate without its partner becomes U+FFFD, whichever it is. -/
def unitChar (n : Nat) : Char := if 0xd800 ≤ n ∧ n < 0xe000 then Char.ofNat 0xfffd else Char.ofNat n

/-- The character of two surrogates. -/
def pairChar (high low : Nat) : Char :=
  Char.ofNat (0x10000 + (high - 0xd800) * 1024 + (low - 0xdc00))

/-- Puts a character in front of what was read after it. -/
def consRead (c : Char) : Reading (List Char) → Reading (List Char)
  | .ok (s, rest) => .ok (c :: s, rest)
  | .error e => .error e

/-- The rest of a string whose opening quote stands before `opening`. A `\u` escape needs a further
character after its digits, and the second half of a pair one after its own. -/
def stringRest (opening : List Char) : List Char → Reading (List Char)
  | [] => .error (.at .unterminatedString opening)
  | '"' :: cs => .ok ([], cs)
  | '\\' :: 'u' :: a :: b :: c :: d :: cs =>
    match cs, unit? a b c d with
    | [], _ => .error (.at .invalidUnicodeEscape ('u' :: a :: b :: c :: d :: cs))
    | _, none => .error (.at .invalidUnicodeEscape ('u' :: a :: b :: c :: d :: cs))
    | '\\' :: 'u' :: a' :: b' :: c' :: d' :: e :: cs', some n =>
      if 0xd800 ≤ n ∧ n < 0xdc00 then
        match unit? a' b' c' d' with
        | none => .error (.at .invalidUnicodeEscape ('u' :: a' :: b' :: c' :: d' :: e :: cs'))
        | some m =>
          if 0xdc00 ≤ m ∧ m < 0xe000 then
            consRead (pairChar n m) (stringRest opening (e :: cs'))
          else
            consRead (unitChar n)
              (stringRest opening ('\\' :: 'u' :: a' :: b' :: c' :: d' :: e :: cs'))
      else
        consRead (unitChar n)
          (stringRest opening ('\\' :: 'u' :: a' :: b' :: c' :: d' :: e :: cs'))
    | cs, some n => consRead (unitChar n) (stringRest opening cs)
  | '\\' :: 'u' :: cs => .error (.at .invalidUnicodeEscape ('u' :: cs))
  | ['\\'] => .error (.at .unterminatedString opening)
  | '\\' :: c :: cs =>
    match escaped? c with
    | some e => consRead e (stringRest opening cs)
    | none => .error (.at .invalidEscape ('\\' :: c :: cs))
  | c :: cs =>
    if c.toNat < 0x20 then .error (.at .controlCharacter (c :: cs))
    else consRead c (stringRest opening cs)
termination_by cs => cs.length

/-- A string, after its opening quote. -/
def string (cs : List Char) : Reading String :=
  match stringRest ('"' :: cs) cs with
  | .ok (s, rest) => .ok (String.ofList s, rest)
  | .error e => .error e

/-! ## Numbers -/

/-- The value of a run of ASCII digits. -/
def digitsValue (ds : List Char) : Nat := ds.foldl (fun n c => n * 10 + (c.toNat - 48)) 0

/-- The digits at the start of a text and what follows them. -/
def spanDigits (cs : List Char) : List Char × List Char := cs.span Char.isDigit

/-- The fraction after an integer part: a point and at least one digit, or nothing. -/
def fraction : List Char → Option (List Char × List Char)
  | '.' :: cs =>
    match spanDigits cs with
    | ([], _) => none
    | (ds, rest) => some (ds, rest)
  | _ => none

/-- Splits off a sign: whether it is a minus, and what follows. -/
def splitSign : List Char → Bool × List Char
  | '-' :: cs => (true, cs)
  | '+' :: cs => (false, cs)
  | cs => (false, cs)

/-- The exponent after a number: a letter, a sign if any and at least one digit, or nothing. -/
def exponent : List Char → Option (Int × List Char)
  | c :: cs =>
    if c = 'e' ∨ c = 'E' then
      let (negative, cs) := splitSign cs
      match spanDigits cs with
      | ([], _) => none
      | (ds, rest) =>
        some (if negative then -(digitsValue ds : Int) else (digitsValue ds : Int), rest)
    else none
  | [] => none

/-- The digits of an integer part and what follows them. No digit follows a leading zero. -/
def wholeDigits : List Char → List Char × List Char
  | '0' :: cs => (['0'], cs)
  | cs => spanDigits cs

/-- A number, after its sign. The place of a refusal is `start`. -/
def unsigned (start : List Char) (negative : Bool) (cs : List Char) : Reading Json :=
  match wholeDigits cs with
  | ([], _) => .error (.at .expectedValue start)
  | (ds, rest) =>
    let real (m : Nat) (e : Int) (rest : List Char) : Reading Json :=
      let x := Decimal.ofDecimal m e
      .ok (.float (if negative then -x else x), rest)
    match fraction rest with
    | some (fs, rest) =>
      match exponent rest with
      | some (e, rest) => real (digitsValue (ds ++ fs)) (e - fs.length) rest
      | none => real (digitsValue (ds ++ fs)) (-fs.length) rest
    | none =>
      match exponent rest with
      | some (e, rest) => real (digitsValue ds) e rest
      | none =>
        if digitLimit < ds.length then .error (.tooManyDigits ds.length)
        else .ok (.int (if negative then -(digitsValue ds : Int) else digitsValue ds), rest)

/-- What is left after a word, if the text starts with it. -/
def word? : List Char → List Char → Option (List Char)
  | [], cs => some cs
  | w :: ws, c :: cs => if w = c then word? ws cs else none
  | _ :: _, [] => none

/-- A number. -/
def number (cs : List Char) : Reading Json :=
  match cs with
  | '-' :: r => unsigned cs true r
  | _ => unsigned cs false cs

/-- The values that are written as words. -/
def literals : List (String × Json) :=
  [("null", .null), ("true", .bool true), ("false", .bool false),
   ("NaN", .float (0.0 / 0.0)), ("Infinity", .float Decimal.infinity),
   ("-Infinity", .float (-Decimal.infinity))]

/-- The word at the start of a text and what follows it. -/
def literal? (cs : List Char) : Option (Json × List Char) :=
  literals.findSome? fun w => (word? w.1.toList cs).map fun rest => (w.2, rest)

/-- A value that is no string, list or object. -/
def scalar (cs : List Char) : Reading Json :=
  match literal? cs with
  | some r => .ok r
  | none => number cs

/-! ## Values -/

mutual

/-- A value that may nest `depth` levels. A container that may not is refused at its opening. -/
def value : Nat → Nat → List Char → Except Refusal (Json × List Char)
  | 0, _, cs => .error (.at .expectedValue cs)
  | _, _, '"' :: cs => do
    let (s, rest) ← string cs
    return (.str s, rest)
  | _ + 1, 0, '[' :: _ => .error (.tooDeep .list)
  | _ + 1, 0, '{' :: _ => .error (.tooDeep .object)
  | n + 1, depth + 1, '[' :: cs =>
    match skipSpace cs with
    | ']' :: rest => .ok (.arr [], rest)
    | cs => do
      let (items, rest) ← items n depth cs
      return (.arr items, rest)
  | n + 1, depth + 1, '{' :: cs =>
    match skipSpace cs with
    | '}' :: rest => .ok (.obj [], rest)
    | cs => do
      let (fields, rest) ← fields n depth cs
      return (.ofFields fields, rest)
  | _, _, cs => scalar cs

/-- The items of a list, up to the closing bracket. -/
def items : Nat → Nat → List Char → Except Refusal (List Json × List Char)
  | 0, _, cs => .error (.at .expectedValue cs)
  | n + 1, depth, cs => do
    let (v, rest) ← value n depth cs
    match skipSpace rest with
    | ']' :: rest => return ([v], rest)
    | ',' :: rest => do
      let (vs, rest) ← items n depth (skipSpace rest)
      return (v :: vs, rest)
    | rest => throw (.at .expectedComma rest)

/-- The fields of an object, up to the closing brace. -/
def fields : Nat → Nat → List Char → Except Refusal (List (String × Json) × List Char)
  | 0, _, cs => .error (.at .expectedName cs)
  | n + 1, depth, '"' :: cs => do
    let (k, rest) ← string cs
    match skipSpace rest with
    | ':' :: rest => do
      let (v, rest) ← value n depth (skipSpace rest)
      match skipSpace rest with
      | '}' :: rest => return ([(k, v)], rest)
      | ',' :: rest => do
        let (fs, rest) ← fields n depth (skipSpace rest)
        return ((k, v) :: fs, rest)
      | rest => throw (.at .expectedComma rest)
    | rest => throw (.at .expectedColon rest)
  | _ + 1, _, cs => .error (.at .expectedName cs)

end

/-- The place in a text where `rest` is left. -/
def ReadError.ofRefusal (text : List Char) : Refusal → ReadError
  | .tooManyDigits n => .tooManyDigits n
  | .tooDeep container => .tooDeep container
  | .at cause rest =>
    let offset := text.length - rest.length
    let before := text.take offset
    .malformed cause (before.count '\n' + 1)
      ((before.reverse.takeWhile (· != '\n')).length + 1) offset

/-- A text with nothing but a value between blanks. A value takes at most two steps for each of its
characters. -/
def document (cs : List Char) : Except Refusal Json :=
  match value (2 * cs.length + 1) depthLimit (skipSpace cs) with
  | .error e => .error e
  | .ok (v, rest) =>
    match skipSpace rest with
    | [] => .ok v
    | rest => .error (.at .extraData rest)

/-- Reads a text that has no byte order mark. -/
def parse (cs : List Char) : Except ReadError Json :=
  (document cs).mapError (.ofRefusal cs)

/-- Reads a text, refusing a byte order mark by name. -/
def parseText (cs : List Char) : Except ReadError Json :=
  match cs with
  | c :: _ => if c.toNat = 0xfeff then .error (.malformed .byteOrderMark 1 1 0) else parse cs
  | [] => parse cs

end SfcCheck.Json
