import SfcCheck.Text.Printable
import SfcCheck.Text.DecimalDigit

/-!
# Quoted text

How messages show a text or a run of bytes: between single quotes, or between double quotes when
the text holds a single quote and no double one. The quote, the backslash and every character that
is not printable are escaped.
-/

namespace SfcCheck.Text

/-- The quote put around a text. -/
def quoteFor (cs : List Char) : Char :=
  if cs.contains '\'' && !cs.contains '"' then '"' else '\''

/-- One character between the quotes `q`. -/
def quotedChar (q c : Char) : List Char :=
  if c = q ∨ c = '\\' then ['\\', c]
  else if c = '\n' then ['\\', 'n']
  else if c = '\r' then ['\\', 'r']
  else if c = '\t' then ['\\', 't']
  else if c.toNat < 0x7f then
    if c.toNat < 0x20 then ['\\', 'x'] ++ hexText 2 c.toNat else [c]
  else if isPrintable c then [c]
  else if c.toNat < 0x100 then ['\\', 'x'] ++ hexText 2 c.toNat
  else if c.toNat < 0x10000 then ['\\', 'u'] ++ hexText 4 c.toNat
  else ['\\', 'U'] ++ hexText 8 c.toNat

/-- A text as messages show it. -/
def quoted (s : String) : String :=
  let q := quoteFor s.toList
  String.ofList (q :: s.toList.flatMap (quotedChar q) ++ [q])

/-- One byte between the quotes `q`. -/
def quotedByte (q : Char) (b : UInt8) : List Char :=
  let c := Char.ofNat b.toNat
  if c = q ∨ c = '\\' then ['\\', c]
  else if c = '\n' then ['\\', 'n']
  else if c = '\r' then ['\\', 'r']
  else if c = '\t' then ['\\', 't']
  else if b.toNat < 0x20 ∨ 0x7f ≤ b.toNat then ['\\', 'x'] ++ hexText 2 b.toNat
  else [c]

/-- A run of bytes as messages show it. -/
def quotedBytes (bs : List UInt8) : String :=
  let q := quoteFor (bs.map fun b => Char.ofNat b.toNat)
  String.ofList ('b' :: q :: bs.flatMap (quotedByte q) ++ [q])

end SfcCheck.Text
