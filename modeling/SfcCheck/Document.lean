import SfcCheck.Text.Blank

/-!
# Documents

A document is a text with an address. Its lines are divided by newlines; a position is a line and a
character, both counted from zero, and an offset counts the characters before it. Positions come
from outside and need not lie in the document: `offsetAt` clamps them.
-/

namespace SfcCheck

/-- A place in a document. -/
structure Position where
  line : Int
  character : Int
deriving DecidableEq, Repr

/-- What lies between two positions. -/
structure Span where
  start : Position
  stop : Position
deriving DecidableEq, Repr

/-- Whether a span starts and ends on one line. -/
def Span.isSingleLine (s : Span) : Bool := s.start.line == s.stop.line

/-- A text to be checked. -/
structure Document where
  uri : String
  /-- The language, which for a file is its extension. -/
  languageId : String
  version : Int
  text : String
deriving DecidableEq, Repr

/-- A line number beyond the document. -/
structure LineOutOfRange where
  line : Int
  lineCount : Nat
deriving DecidableEq, Repr

def LineOutOfRange.message (e : LineOutOfRange) : String :=
  s!"line {e.line} out of range (0..{(e.lineCount : Int) - 1})"

namespace Document

/-- The offsets just past the newlines of a text that starts at offset `o`. -/
def startsAfterNewlines (o : Nat) : List Char → List Nat
  | [] => []
  | c :: cs =>
    if c = '\n' then (o + 1) :: startsAfterNewlines (o + 1) cs else startsAfterNewlines (o + 1) cs

/-- The offset at which each line starts. -/
def lineStarts (d : Document) : List Nat := 0 :: startsAfterNewlines 0 d.text.toList

/-- The number of lines. -/
def lineCount (d : Document) : Nat := d.lineStarts.length

/-- The number of characters. -/
def size (d : Document) : Nat := d.text.length

/-- The offsets at which a line starts and at which the next one does. -/
def lineBounds? (d : Document) (line : Nat) : Option (Nat × Nat) :=
  match d.lineStarts[line]? with
  | none => none
  | some start => some (start, d.lineStarts[line + 1]?.getD d.size)

/-- Whether a character may end a line. -/
def isTerminator (c : Char) : Bool := c == '\r' || c == '\n'

/-- A line without its terminator. -/
def getLine (d : Document) (line : Int) : Except LineOutOfRange String :=
  if line < 0 then .error ⟨line, d.lineCount⟩
  else
    match d.lineBounds? line.toNat with
    | none => .error ⟨line, d.lineCount⟩
    | some (start, stop) =>
      .ok (String.ofList (Text.trimRight isTerminator
        ((d.text.toList.drop start).take (stop - start))))

/-- The offset of a position, clamped to its line and to the document. -/
def offsetAt (d : Document) (p : Position) : Nat :=
  if p.line < 0 then 0
  else
    match d.lineBounds? p.line.toNat with
    | none => d.size
    | some (start, stop) => (max (min (start + p.character) stop) (start : Int)).toNat

end Document

end SfcCheck
