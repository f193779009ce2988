import SfcCheck.Fault
import SfcCheck.Text.Blank

/-!
# Settings as numbers

A setting comes from a table, from the environment or from the command line, so a number may be
given as a number, as a truth value or as a text. `Setting` is the view of a value that matters
here; `toInteger` and `toNumber` read it.

A text may stand between blanks, its digits may be those of any script, and single underscores may
stand between digits. Only the ASCII blanks and the blanks beyond ASCII count.
-/

namespace SfcCheck

/-- A value given for a setting. Lists, tables and times are told apart by their kind only. -/
inductive Setting where
  | null
  | bool (b : Bool)
  | int (n : Int)
  | float (x : Float)
  | text (s : String)
  | other (kind : Kind)

/-- A JSON value as a setting. -/
def Json.toSetting : Json → Setting
  | .null => .null
  | .bool b => .bool b
  | .int n => .int n
  | .float x => .float x
  | .str s => .text s
  | .arr _ => .other .list
  | .obj _ => .other .table

namespace Setting

/-- The kind of a setting. -/
def kind : Setting → Kind
  | null => .null
  | bool _ => .bool
  | int _ => .int
  | float _ => .float
  | text _ => .text
  | other k => k

/-! ## Numerals -/

/-- The blanks that may surround a numeral. -/
def isMargin (c : Char) : Bool :=
  if c.toNat < 0x80 then c == ' ' || (9 ≤ c.toNat && c.toNat ≤ 13) else Text.isBlank c

/-- A numeral with its digits in ASCII and without the blanks around it. -/
def normalize (cs : List Char) : List Char :=
  (Text.trimRight isMargin (Text.trimLeft isMargin cs)).map fun c =>
    if c.toNat < 0x80 then c
    else
      match Text.digitValue? c with
      | some d => Char.ofNat (48 + d)
      | none => c

/-- Digits with single underscores between them: the digits, and what follows the run. `afterDigit`
says whether a digit stands before. Nothing if an underscore stands elsewhere. -/
def groupedDigits (afterDigit : Bool) : List Char → Option (List Char × List Char)
  | [] => some ([], [])
  | c :: cs =>
    if c.isDigit then (groupedDigits true cs).map fun (ds, rest) => (c :: ds, rest)
    else if c = '_' then
      if afterDigit then
        match cs with
        | d :: _ => if d.isDigit then groupedDigits false cs else none
        | [] => none
      else none
    else some ([], c :: cs)

/-- The integer that a text writes. -/
def integerOfText (s : String) : Except Fault Int :=
  let (negative, cs) := Json.splitSign (normalize s.toList)
  match groupedDigits false cs with
  | none => .error (.badInteger s)
  | some (ds, rest) =>
    if Json.digitLimit < ds.length then .error (.tooManyDigits ds.length)
    else if ds.isEmpty || !rest.isEmpty then .error (.badInteger s)
    else
      let n : Int := Json.digitsValue ds
      .ok (if negative then -n else n)

/-- Takes out the underscores of a numeral, each of which has to stand between two digits. -/
def dropUnderscores (afterDigit : Bool) : List Char → Option (List Char)
  | [] => some []
  | c :: cs =>
    if c = '_' then
      match cs with
      | d :: _ => if afterDigit && d.isDigit then dropUnderscores false cs else none
      | [] => none
    else (dropUnderscores c.isDigit cs).map (c :: ·)

/-- The magnitude that a numeral without a sign writes. -/
def magnitude? (cs : List Char) : Option Float :=
  let folded := cs.map Char.toLower
  if folded = "inf".toList ∨ folded = "infinity".toList then some Decimal.infinity
  else if folded = "nan".toList then some (0.0 / 0.0)
  else
    let (whole, rest) := Json.spanDigits cs
    let (part, rest) :=
      match rest with
      | '.' :: r => Json.spanDigits r
      | r => ([], r)
    if whole.isEmpty && part.isEmpty then none
    else
      let m := Json.digitsValue (whole ++ part)
      match rest with
      | [] => some (Decimal.ofDecimal m (-part.length))
      | _ =>
        match Json.exponent rest with
        | some (e, []) => some (Decimal.ofDecimal m (e - part.length))
        | _ => none

/-- The number that a text writes. -/
def numberOfText (s : String) : Except Fault Float :=
  let read := do
    let cs ← dropUnderscores false (normalize s.toList)
    let (negative, cs) := Json.splitSign cs
    let x ← magnitude? cs
    return if negative then -x else x
  match read with
  | some x => .ok x
  | none => .error (.badNumber s)

/-! ## Readers -/

/-- A setting as an integer. Numbers lose their fraction. -/
def toInteger : Setting → Except Fault Int
  | bool b => .ok (if b then 1 else 0)
  | int n => .ok n
  | float x =>
    if x.isNaN then .error .undefinedInteger
    else if x.isInf then .error .infiniteInteger
    else .ok (Decimal.truncate x)
  | text s => integerOfText s
  | v => .error (.notInteger v.kind)

/-- A setting as a number. -/
def toNumber : Setting → Except Fault Float
  | bool b => .ok (if b then 1.0 else 0.0)
  | int n =>
    match Decimal.ofInt? n with
    | some x => .ok x
    | none => .error .hugeInteger
  | float x => .ok x
  | text s => numberOfText s
  | v => .error (.notNumber v.kind)

end Setting

end SfcCheck
