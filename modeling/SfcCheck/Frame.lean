import SfcCheck.Diagnostic

/-!
# Code frames

How a diagnostic is printed: a header, the message with its position, and the source lines around
it. The first line of the range is marked, and the row after it holds carets under the range.

Positions come from outside, so that a row may be asked for that no text can hold. (They are read
from JSON, so that none has more digits than can be written.) `sourceRow`, `caretRow` and
`shownLines` say what is shown; `drawSource`, `drawCarets` and `listLines` refuse what cannot be.
What can be depends on the machine: numbers of copies and lengths have to be machine integers, and
there has to be memory for the texts. Of the latter only the `room` is known here, the length of the
longest text or list that can still be made. The lines around a range are always those of a document
that is there, with room for rows of them, so that of a frame only the carets can be refused.
-/

namespace SfcCheck

/-- Why a frame cannot be drawn. -/
inductive Frame.Failure where
  | line (e : LineOutOfRange)
  /-- A width or a length is no machine integer. -/
  | lengthOutOfRange
  /-- A number of copies is no machine integer. -/
  | copiesOutOfRange
  /-- The length of a text that is put together is no machine integer. -/
  | textTooLong
  /-- There is no room for what is asked for. -/
  | noRoom
deriving DecidableEq, Repr

/-- The failure in words; there are none for a lack of room. -/
def Frame.Failure.message : Frame.Failure → String
  | line e => e.message
  | lengthOutOfRange => "Python int too large to convert to C ssize_t"
  | copiesOutOfRange => "cannot fit 'int' into an index-sized integer"
  | textTooLong => "join() result is too long for a Python string"
  | noRoom => ""

namespace Frame

/-- The machine integers lie between `-machineBound` and `machineBound`, which is none of them. -/
def machineBound : Int := 0x8000000000000000

/-- Whether an integer is a machine integer. -/
def isMachine (n : Int) : Bool := decide (-machineBound ≤ n) && decide (n < machineBound)

/-- Refuses a length, given the refusal of one that is no machine integer. -/
def checkLength (room : Nat) (outOfRange : Failure) (n : Int) : Except Failure Unit :=
  if !isMachine n then .error outOfRange
  else if room < n then .error .noRoom
  else .ok ()

/-! ## Lines -/

/-- The lines shown on each side of a range. -/
def contextLines : Int := 2

/-- The integers from `first` to `last`. -/
def interval (first last : Int) : List Int :=
  (List.range (last + 1 - first).toNat).map fun i => first + (i : Nat)

/-- The first line shown for a range that starts in the line `start`. -/
def firstShown (start context : Int) : Int := max (start - context) 0

/-- The last line shown for a range, in a document of `total` lines. -/
def lastShown (start stop total context : Int) : Int := min (max stop start + context) (total - 1)

/-- The numbers of the lines shown for a range, clamped to a document of `total` lines. -/
def shownLines (start stop total : Int) (context : Int := contextLines) : List Int :=
  interval (firstShown start context) (lastShown start stop total context)

/-- The numbers of the lines shown, if there is room for so many. -/
def listLines (room : Nat) (start stop total : Int) (context : Int := contextLines) :
    Except Failure (List Int) := do
  let count := lastShown start stop total context + 1 - firstShown start context
  checkLength room .lengthOutOfRange (max count 0)
  return shownLines start stop total context

/-! ## Rows -/

/-- `n` copies of a character, none if `n` is negative. -/
def run (n : Int) (c : Char) : List Char := List.replicate n.toNat c

/-- A line number aligned to the right. -/
def alignRight (number width : Int) : List Char :=
  let digits := (Decimal.intText number).toList
  run (width - digits.length) ' ' ++ digits

/-- A row that shows a source line. -/
def sourceRow (number : Int) (code : String) (isError : Bool) (width : Int) : String :=
  let gutter := (if isError then '>' else ' ') :: ' ' :: alignRight number width ++ [' ', '|']
  String.ofList (if code.isEmpty then gutter else gutter ++ ' ' :: code.toList)

/-- A row that shows a source line, if there is room for its width. -/
def drawSource (room : Nat) (number : Int) (code : String) (isError : Bool) (width : Int) :
    Except Failure String := do
  checkLength room .lengthOutOfRange width
  return sourceRow number code isError width

/-- The number of carets under a line of the given length. A range over several lines is marked to
the end of its first line; there is always one caret. -/
def caretCount (span : Span) (lineLength : Int) : Int :=
  let start := span.start.character
  max (if span.isSingleLine then span.stop.character - start else lineLength - start) 1

/-- The row of carets under a line of the given length. -/
def caretRow (span : Span) (width lineLength : Int) : String :=
  String.ofList
    (' ' :: ' ' :: run width ' ' ++ [' ', '|', ' '] ++ run span.start.character ' '
      ++ run (caretCount span lineLength) '^')

/-- The length of that row. -/
def caretRowLength (span : Span) (width lineLength : Int) : Int :=
  max width 0 + 5 + max span.start.character 0 + caretCount span lineLength

/-- The row of carets, if there is room for its parts and for the whole. -/
def drawCarets (room : Nat) (span : Span) (width lineLength : Int) : Except Failure String := do
  checkLength room .copiesOutOfRange width
  checkLength room .copiesOutOfRange span.start.character
  checkLength room .copiesOutOfRange (caretCount span lineLength)
  checkLength room .textTooLong (caretRowLength span width lineLength)
  return caretRow span width lineLength

/-- The rows for one line: the line and, if the range starts there, the carets. -/
def lineRows (room : Nat) (span : Span) (width number : Int) (code : String) :
    Except Failure (List String) := do
  if number = span.start.line then
    return [sourceRow number code true width, ← drawCarets room span width code.length]
  else return [sourceRow number code false width]

/-- The rows around a diagnostic. Nothing is shown for a range outside the document. -/
def rows (room : Nat) (d : Document) (span : Span) : Except Failure (List String) := do
  let numbers := shownLines span.start.line span.stop.line d.lineCount
  match numbers.getLast? with
  | none => return []
  | some last =>
    let width : Int := (Decimal.intText last).length
    let blocks ← numbers.mapM fun n => do
      lineRows room span width n (← (d.getLine n).mapError .line)
    return blocks.flatten

/-! ## Blocks -/

/-- The line that names the document. -/
def header (d : Document) : String := s!"Error in {d.uri}"

/-- The line that gives the position and the message. -/
def title (x : Diagnostic) : String :=
  s!"{x.span.start.line}:{x.span.start.character} {x.message}"

/-- The whole block of a diagnostic. -/
def block (room : Nat) (d : Document) (x : Diagnostic) : Except Failure (List String) := do
  return header d :: title x :: (← rows room d x.span)

/-- A header that stands out on a terminal. -/
def styled (s : String) : String := s!"\x1b[31m\x1b[1m{s}\x1b[0m"

/-- The lines that are printed for a diagnostic. -/
def printed (room : Nat) (d : Document) (x : Diagnostic) : Except Failure (List String) := do
  return styled (header d) :: title x :: (← rows room d x.span)

end Frame

end SfcCheck
