import SfcCheck.Json.Parser
import SfcCheck.Toml.Basic

/-!
# TOML texts, numbers and dates

Readers for what stands on its own in a TOML file. Each takes what is left of the file and returns
its value with what is left after it. Where a file goes wrong is not told; only a numeral with too
many digits and values nested too deep are set apart, since such a file is not merely ignored.
-/

namespace SfcCheck.Toml

/-- Why a file is refused. -/
inductive Refusal where
  | malformed
  | tooManyDigits (count : Nat)
  /-- Values are nested too deep. -/
  | tooDeep
deriving DecidableEq, Repr

/-- The outcome of reading a part of a file. -/
abbrev Reading (α : Type) := Except Refusal (α × List Char)

/-- A text as a string. -/
def asString (r : List Char × List Char) : String × List Char := (String.ofList r.1, r.2)

def isBlank (c : Char) : Bool := c == ' ' || c == '\t'

def isBlankOrNewline (c : Char) : Bool := isBlank c || c == '\n'

def isControl (c : Char) : Bool := c.toNat < 32 || c.toNat == 127

/-- The characters that may stand in a comment and in a text on one line. -/
def isLineChar (c : Char) : Bool := c == '\t' || !isControl c

/-- The characters that may stand in a text: only one over several lines may hold newlines. -/
def isTextChar (multiline : Bool) (c : Char) : Bool := isLineChar c || (multiline && c == '\n')

/-- Puts a character in front of what was read after it. -/
def consRead (c : Char) : Reading (List Char) → Reading (List Char)
  | .ok (s, rest) => .ok (c :: s, rest)
  | .error e => .error e

/-! ## Texts -/

/-- A text without escapes up to its closing quotes. -/
def literal (multiline : Bool) : List Char → Reading (List Char)
  | [] => .error .malformed
  | c :: cs =>
    if c = '\'' ∧ !multiline then .ok ([], cs)
    else if c = '\'' ∧ ['\'', '\''].isPrefixOf cs then .ok ([], cs.drop 2)
    else if isTextChar multiline c then consRead c (literal multiline cs)
    else .error .malformed

/-- The character with a number in hexadecimal digits. -/
def hexChar? (ds : List Char) : Option Char := do
  let digits ← ds.mapM Text.hexDigit?
  let n := digits.foldl (fun n d => n * 16 + d) 0
  if n < 0xd800 ∨ (0xdfff < n ∧ n < 0x110000) then return Char.ofNat n else none

/-- The character that a letter after a backslash stands for. -/
def escaped? (c : Char) : Option Char :=
  if c = '"' ∨ c = '\\' then some c
  else if c = 'b' then some (Char.ofNat 8)
  else if c = 't' then some '\t'
  else if c = 'n' then some '\n'
  else if c = 'f' then some (Char.ofNat 12)
  else if c = 'r' then some '\r'
  else none

/-- What a backslash at the end of a line does to what follows it. -/
inductive Gap where
  | none
  /-- Blanks up to the line end are dropped. -/
  | toLineEnd
  /-- Blanks and newlines are dropped. -/
  | toText
deriving DecidableEq, Repr

/-- A text with escapes up to its closing quotes. -/
def basic (multiline : Bool) (gap : Gap) : List Char → Reading (List Char)
  | [] => .error .malformed
  | c :: cs =>
    if gap = .toLineEnd then
      if isBlank c then basic multiline .toLineEnd cs
      else if c = '\n' then basic multiline .toText cs
      else .error .malformed
    else if gap = .toText ∧ isBlankOrNewline c then basic multiline .toText cs
    else if c = '"' then
      if !multiline then .ok ([], cs)
      else if ['"', '"'].isPrefixOf cs then .ok ([], cs.drop 2)
      else consRead c (basic multiline .none cs)
    else if c = '\\' then
      match cs with
      | [] => .error .malformed
      | e :: rest =>
        if multiline && isBlank e then basic multiline .toLineEnd rest
        else if multiline && e == '\n' then basic multiline .toText rest
        else if e = 'u' ∨ e = 'U' then
          let width := if e = 'u' then 4 else 8
          match if rest.length < width then none else hexChar? (rest.take width) with
          | some x => consRead x (basic multiline .none (rest.drop width))
          | none => .error .malformed
        else
          match escaped? e with
          | some x => consRead x (basic multiline .none rest)
          | none => .error .malformed
    else if isTextChar multiline c then consRead c (basic multiline .none cs)
    else .error .malformed
termination_by cs => cs.length
decreasing_by all_goals (simp only [List.length_cons, List.length_drop]; omega)

/-- Up to two more quotes after the closing ones belong to the text. -/
def extraQuotes (q : Char) : List Char × List Char → List Char × List Char
  | (s, rest) =>
    let n := (rest.take 2).takeWhile (· == q)
    (s ++ n, rest.drop n.length)

/-- A text over several lines, after its opening quotes. A newline right after them is dropped. -/
def multilineText (q : Char) (cs : List Char) : Except Refusal (String × List Char) := do
  let cs := match cs with | '\n' :: r => r | r => r
  let r ← (if q = '"' then basic true .none cs else literal true cs : Except Refusal _)
  return asString (extraQuotes q r)

/-- A text on one line, after its opening quote. -/
def lineText (q : Char) (cs : List Char) : Except Refusal (String × List Char) :=
  asString <$> (if q = '"' then basic false .none cs else literal false cs : Except Refusal _)

/-! ## Dates and times -/

/-- A number of exactly `width` digits between two bounds. -/
def fixed? (width low high : Nat) (cs : List Char) : Option (Nat × List Char) :=
  let ds := cs.take width
  let n := Json.digitsValue ds
  if ds.length = width ∧ ds.all Char.isDigit ∧ low ≤ n ∧ n ≤ high then some (n, cs.drop width)
  else none

/-- What follows a character at the start of a text. -/
def after? (c : Char) : List Char → Option (List Char)
  | d :: cs => if d = c then some cs else none
  | [] => none

/-- What follows a time with seconds and perhaps a fraction. -/
def afterTime? (cs : List Char) : Option (List Char) := do
  let (_, cs) ← fixed? 2 0 23 cs
  let cs ← after? ':' cs
  let (_, cs) ← fixed? 2 0 59 cs
  let cs ← after? ':' cs
  let (_, cs) ← fixed? 2 0 59 cs
  match cs with
  | '.' :: d :: r => return if d.isDigit then r.dropWhile Char.isDigit else cs
  | _ => return cs

/-- What follows the distance from universal time, if one is given. -/
def afterOffset (cs : List Char) : List Char :=
  match cs with
  | [] => []
  | c :: r =>
    if c = 'Z' ∨ c = 'z' then r
    else if c = '+' ∨ c = '-' then
      let offset := do
        let (_, r) ← fixed? 2 0 23 r
        let r ← after? ':' r
        let (_, r) ← fixed? 2 0 59 r
        return r
      offset.getD cs
    else cs

/-- The number of days of a month. -/
def daysIn (year month : Nat) : Nat :=
  if month = 2 then
    if year % 4 = 0 ∧ (year % 100 ≠ 0 ∨ year % 400 = 0) then 29 else 28
  else if month = 4 ∨ month = 6 ∨ month = 9 ∨ month = 11 then 30
  else 31

/-- A date, perhaps with a time; nothing if the text has not that form, a refusal if there is no
such day. -/
def date? (cs : List Char) : Option (Reading Toml) := do
  let (year, cs) ← fixed? 4 0 9999 cs
  let cs ← after? '-' cs
  let (month, cs) ← fixed? 2 1 12 cs
  let cs ← after? '-' cs
  let (day, cs) ← fixed? 2 1 31 cs
  let time :=
    match cs with
    | c :: r => if c = 'T' ∨ c = 't' ∨ c = ' ' then afterTime? r else none
    | [] => none
  if year = 0 ∨ daysIn year month < day then return .error .malformed
  match time with
  | some rest => return .ok (.dateTime, afterOffset rest)
  | none => return .ok (.date, cs)

/-! ## Numbers -/

/-- Digits with single underscores between them, after a first digit: the digits and the rest. -/
def moreDigits (isDigit : Char → Bool) : List Char → List Char × List Char
  | [] => ([], [])
  | c :: cs =>
    if isDigit c then
      let (ds, rest) := moreDigits isDigit cs
      (c :: ds, rest)
    else
      match c, cs with
      | '_', d :: r =>
        if isDigit d then
          let (ds, rest) := moreDigits isDigit r
          (d :: ds, rest)
        else ([], c :: cs)
      | _, _ => ([], c :: cs)

/-- Digits with single underscores between them, at least one. -/
def digits? (isDigit : Char → Bool) : List Char → Option (List Char × List Char)
  | c :: cs =>
    if isDigit c then
      let (ds, rest) := moreDigits isDigit cs
      some (c :: ds, rest)
    else none
  | [] => none

/-- The digits of a base. -/
def isDigitOf (base : Nat) (c : Char) : Bool :=
  match Text.hexDigit? c with
  | some d => d < base
  | none => false

/-- The base that a letter after a zero stands for. -/
def base? (c : Char) : Option Nat :=
  if c = 'x' then some 16 else if c = 'o' then some 8 else if c = 'b' then some 2 else none

/-- A number in another base, after its zero. -/
def based? : List Char → Option (Toml × List Char)
  | c :: cs => do
    let base ← base? c
    let (ds, rest) ← digits? (isDigitOf base) cs
    let n := ds.foldl (fun n d => n * base + (Text.hexDigit? d).getD 0) 0
    return (.int n, rest)
  | [] => none

/-- A fraction with its point. -/
def fraction? : List Char → Option (List Char × List Char)
  | '.' :: cs => digits? Char.isDigit cs
  | _ => none

/-- An exponent with its letter. -/
def exponent? : List Char → Option (Int × List Char)
  | c :: cs =>
    if c = 'e' ∨ c = 'E' then do
      let (negative, cs) :=
        match cs with
        | '-' :: r => (true, r)
        | '+' :: r => (false, r)
        | r => (false, r)
      let (ds, rest) ← digits? Char.isDigit cs
      let n : Int := Json.digitsValue ds
      return (if negative then -n else n, rest)
    else none
  | [] => none

/-- A decimal number after its sign. -/
def decimal? (negative : Bool) (cs : List Char) : Option (Reading Toml) := do
  let (ds, rest) ←
    match cs with
    | '0' :: r => some (['0'], r)
    | _ => digits? Char.isDigit cs
  let (fs, rest) :=
    match fraction? rest with
    | some (fs, r) => (some fs, r)
    | none => (none, rest)
  let (e, rest) :=
    match exponent? rest with
    | some (e, r) => (some e, r)
    | none => (none, rest)
  if fs.isNone && e.isNone then
    if Json.digitLimit < ds.length then return .error (.tooManyDigits ds.length)
    let n : Int := Json.digitsValue ds
    return .ok (.int (if negative then -n else n), rest)
  let fs := fs.getD []
  let x := Decimal.ofDecimal (Json.digitsValue (ds ++ fs)) (e.getD 0 - fs.length)
  return .ok (.float (if negative then -x else x), rest)

/-- A number that has no digits. -/
def special? (negative : Bool) (cs : List Char) : Option (Reading Toml) :=
  if "inf".toList.isPrefixOf cs then
    some (.ok (.float (if negative then -Decimal.infinity else Decimal.infinity), cs.drop 3))
  else if "nan".toList.isPrefixOf cs then some (.ok (.float (0.0 / 0.0), cs.drop 3))
  else none

/-- A number. -/
def number? (cs : List Char) : Option (Reading Toml) :=
  let based : Option (Reading Toml) :=
    match cs with
    | '0' :: r => (based? r).map .ok
    | _ => none
  let (negative, unsigned) :=
    match cs with
    | '-' :: r => (true, r)
    | '+' :: r => (false, r)
    | r => (false, r)
  based <|> decimal? negative unsigned <|> special? negative unsigned

/-- A value that stands on its own and is no text. -/
def scalar (cs : List Char) : Reading Toml :=
  if "true".toList.isPrefixOf cs then .ok (.bool true, cs.drop 4)
  else if "false".toList.isPrefixOf cs then .ok (.bool false, cs.drop 5)
  else
    let time : Option (Reading Toml) := (afterTime? cs).map fun r => .ok (.timeOfDay, r)
    match date? cs <|> time <|> number? cs with
    | some r => r
    | none => .error .malformed

end SfcCheck.Toml
