/-!
# Control sequences of terminals

Texts for a terminal may hold control sequences, which set colours and the like. A stream that is no
terminal gets the text without them.
-/

namespace SfcCheck.Text

/-- The character that begins a control sequence. -/
def escape : Char := '\x1b'

/-- Whether a character is a parameter of a control sequence. -/
def isParameter (c : Char) : Bool := '0' ≤ c && c ≤ '?'

/-- Whether a character stands between the parameters and the end of a control sequence. -/
def isIntermediate (c : Char) : Bool := ' ' ≤ c && c ≤ '/'

/-- Whether a character ends a control sequence. -/
def isFinal (c : Char) : Bool := '@' ≤ c && c ≤ '~'

/-- What follows the control sequence at the start of a text, if there is one: after the opening
bracket come parameters, then intermediate characters, then a final one. -/
def afterSequence? : List Char → Option (List Char)
  | c :: '[' :: cs =>
    if c = escape then
      match (cs.dropWhile isParameter).dropWhile isIntermediate with
      | d :: rest => if isFinal d then some rest else none
      | [] => none
    else none
  | _ => none

theorem length_afterSequence? {cs rest : List Char} (h : afterSequence? cs = some rest) :
    rest.length < cs.length := by
  unfold afterSequence? at h
  split at h
  · rename_i c cs
    have hp := (List.dropWhile_sublist isParameter (l := cs)).length_le
    have hi := (List.dropWhile_sublist isIntermediate (l := cs.dropWhile isParameter)).length_le
    grind
  · simp at h

/-- A text without control sequences. -/
def plainChars : List Char → List Char
  | [] => []
  | c :: cs =>
    match _h : afterSequence? (c :: cs) with
    | some rest => plainChars rest
    | none => c :: plainChars cs
termination_by cs => cs.length
decreasing_by
  · exact length_afterSequence? _h
  · simp

/-- A text without control sequences. -/
def plain (s : String) : String := String.ofList (plainChars s.toList)

end SfcCheck.Text
