import SfcCheck.Json.Basic
import SfcCheck.Decimal.Layout
import SfcCheck.Text.DecimalDigit

/-!
# JSON text

Writing a value as ASCII text: every character outside the printable ASCII range is escaped, those
beyond the basic plane as two units. The separators are the only choice; `Separators.compact` is
what goes on the wire.
-/

namespace SfcCheck.Json

/-- What stands between the items of a list and between a key and its value. -/
structure Separators where
  item : List Char
  key : List Char

/-- No blanks at all. -/
def Separators.compact : Separators := ⟨[','], [':']⟩

/-- One blank after each separator. -/
def Separators.spaced : Separators := ⟨[',', ' '], [':', ' ']⟩

/-- A 16-bit unit as an escape. -/
def unitEscape (n : Nat) : List Char := '\\' :: 'u' :: Text.hexText 4 n

/-- One character of a string. -/
def escapeChar (c : Char) : List Char :=
  let n := c.toNat
  if c = '"' then ['\\', '"']
  else if c = '\\' then ['\\', '\\']
  else if c = '\n' then ['\\', 'n']
  else if c = '\r' then ['\\', 'r']
  else if c = '\t' then ['\\', 't']
  else if n = 8 then ['\\', 'b']
  else if n = 12 then ['\\', 'f']
  else if 0x20 ≤ n ∧ n < 0x7f then [c]
  else if n < 0x10000 then unitEscape n
  else
    unitEscape (0xd800 + (n - 0x10000) / 1024) ++ unitEscape (0xdc00 + (n - 0x10000) % 1024)

/-- A string between its quotes. -/
def stringText (s : String) : List Char := '"' :: s.toList.flatMap escapeChar ++ ['"']

/-- A number with a fraction. -/
def floatText (x : Float) : List Char :=
  if x.isNaN then "NaN".toList
  else if x.isInf then (if x < 0.0 then "-Infinity".toList else "Infinity".toList)
  else (Decimal.exactText x).toList

mutual

/-- The text of a value. -/
def print (sep : Separators) : Json → List Char
  | null => "null".toList
  | bool true => "true".toList
  | bool false => "false".toList
  | int n => (Decimal.intText n).toList
  | float x => floatText x
  | str s => stringText s
  | arr items => '[' :: printItems sep items
  | obj fields => '{' :: printFields sep fields

/-- The items of a list with the closing bracket. -/
def printItems (sep : Separators) : List Json → List Char
  | [] => [']']
  | [v] => print sep v ++ [']']
  | v :: items => print sep v ++ sep.item ++ printItems sep items

/-- The fields of an object with the closing brace. -/
def printFields (sep : Separators) : List (String × Json) → List Char
  | [] => ['}']
  | [(k, v)] => stringText k ++ sep.key ++ print sep v ++ ['}']
  | (k, v) :: fields =>
    stringText k ++ sep.key ++ print sep v ++ sep.item ++ printFields sep fields

end

end SfcCheck.Json
