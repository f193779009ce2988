import SfcCheck.Json.Printer
import SfcCheck.Server.Error
import SfcCheck.Setting
import SfcCheck.Text.LowerCase

/-!
# Messages on the wire

A message is a JSON object behind a header. A header is a number of lines, each a name and a value
apart by a colon, up to a blank line; the length of the body is the only one that counts. Blank
lines before a header are skipped, lines end in a newline, no line is longer than `lineLimit` bytes,
and of two lines with one name the later one counts.

`frame` writes a message, `read` reads one from what has arrived so far and says whether more has to
come.
-/

namespace SfcCheck.Wire

/-- The header that gives the length of the body. -/
def lengthName : String := "content-length"

/-- The bytes of a text of ASCII characters. -/
def ascii (cs : List Char) : List UInt8 := cs.map fun c => UInt8.ofNat c.toNat

/-- The header of a body. -/
def header (length : Nat) : List Char :=
  "Content-Length: ".toList ++ Decimal.natText length ++ "\r\n\r\n".toList

/-- A message with its header. -/
def frame (sep : Json.Separators) (v : Json) : List UInt8 :=
  let body := ascii (Json.print sep v)
  ascii (header body.length) ++ body

/-- A message as a client sends it. -/
def encode (v : Json) : List UInt8 := frame .compact v

/-- The outcome of reading from what has arrived. -/
inductive Reading where
  | message (fields : Table Json) (rest : List UInt8)
  /-- More has to arrive. -/
  | more
  /-- The stream ended between messages. -/
  | ended
  | failed (e : ReadFailure)

/-- The number of bytes that a line may have before its newline. -/
def lineLimit : Nat := 0x10000

/-- The first line of what has arrived, and what follows it. The end of the stream ends a line. What
is too long for a line is refused, whether its end has come or not. -/
def line? (ended : Bool) (bytes : List UInt8) : Except Fault (Option (List UInt8 × List UInt8)) :=
  let line := bytes.takeWhile (· != 10)
  match bytes.dropWhile (· != 10) with
  | _ :: rest =>
    if lineLimit < line.length then .error (.longLine true) else .ok (some (line, rest))
  | [] =>
    if lineLimit < line.length then .error (.longLine false)
    else .ok (if ended then some (line, []) else none)

theorem length_line? {ended : Bool} {bytes line rest : List UInt8}
    (h : line? ended bytes = .ok (some (line, rest))) (hb : bytes ≠ []) :
    rest.length < bytes.length := by
  have hl := (List.dropWhile_sublist (· != (10 : UInt8)) (l := bytes)).length_le
  have hp := List.length_pos_iff.2 hb
  grind [line?]

/-- A line as text without the blanks around it. -/
def lineText (bytes : List UInt8) : List Char := Text.trim (bytes.map Text.asciiChar)

/-- The name and the value of a header line. -/
def nameAndValue (cs : List Char) : String × String :=
  (String.ofList (Text.lowerCase (Text.trim (cs.takeWhile (· != ':')))),
    String.ofList (Text.trim ((cs.dropWhile (· != ':')).drop 1)))

/-- Reads a body. -/
def readBody (bytes : List UInt8) : Except ReadFailure (Table Json) :=
  match Text.decodeBody bytes with
  | .error e => .error (.fault (.undecodable e))
  | .ok cs =>
    match Json.parse cs with
    | .error (.malformed cause line column offset) =>
      .error (.server (.malformedBody (.malformed cause line column offset)))
    | .error e => .error (.fault (.malformedJson e))
    | .ok (.obj fields) => .ok fields
    | .ok _ => .error (.server .bodyNoObject)

/-- The length that a header gives. -/
def bodyLength (headers : Table String) : Except ReadFailure Nat :=
  match headers.get? lengthName with
  | none => .error (.server (.malformedHeader headers .noLength))
  | some text =>
    match Setting.integerOfText text with
    | .error _ => .error (.server (.malformedHeader headers .badLength))
    | .ok n => if n < 0 then .error (.fault .negativeLength) else .ok n.toNat

/-- Reads what follows a header. -/
def readAfter (ended : Bool) (headers : Table String) (bytes : List UInt8) : Reading :=
  match bodyLength headers with
  | .error e => .failed e
  | .ok n =>
    let body := bytes.take n
    if body.length < n then if ended then .failed (.server .endedInBody) else .more
    else
      match readBody body with
      | .ok fields => .message fields (bytes.drop n)
      | .error e => .failed e

/-- Reads a message of which the given header lines have been read. -/
def readFrom (ended : Bool) (headers : Table String) (bytes : List UInt8) : Reading :=
  if _h : bytes = [] then
    if !ended then .more
    else if headers.isEmpty then .ended
    else .failed (.server .endedInHeader)
  else
    match _hl : line? ended bytes with
    | .error f => .failed (.fault f)
    | .ok none => .more
    | .ok (some (line, rest)) =>
      let text := lineText line
      if text.isEmpty then
        if headers.isEmpty then readFrom ended headers rest else readAfter ended headers rest
      else
        let (name, value) := nameAndValue text
        readFrom ended (headers.put name value) rest
termination_by bytes.length
decreasing_by all_goals exact length_line? _hl _h

/-- Reads a message from what has arrived; `ended` says whether nothing more will. -/
def read (ended : Bool) (bytes : List UInt8) : Reading := readFrom ended [] bytes

theorem length_readAfter {ended : Bool} {headers : Table String} {bytes rest : List UInt8}
    {fields : Table Json} (h : readAfter ended headers bytes = .message fields rest) :
    rest.length ≤ bytes.length := by
  rw [readAfter] at h
  split at h
  · cases h
  · dsimp only at h
    split at h
    · split at h <;> cases h
    · split at h
      · cases h
        exact (List.drop_sublist _ _).length_le
      · cases h

/-- A message takes something away from what has arrived. -/
theorem length_readFrom {ended : Bool} {headers : Table String} {bytes rest : List UInt8}
    {fields : Table Json} (h : readFrom ended headers bytes = .message fields rest) :
    rest.length < bytes.length := by
  fun_induction readFrom ended headers bytes with
  | case1 | case2 | case3 | case4 | case5 => cases h
  | case6 headers bytes hne line rest' hline text htext hheaders ih =>
      exact Nat.lt_trans (ih h) (length_line? hline hne)
  | case7 headers bytes hne line rest' hline text htext hheaders =>
      exact Nat.lt_of_le_of_lt (length_readAfter h) (length_line? hline hne)
  | case8 headers bytes hne line rest' hline text htext name value hname ih =>
      exact Nat.lt_trans (ih h) (length_line? hline hne)

/-- Reads the messages of a stream that has ended, up to one that cannot be read. -/
def readAll (bytes : List UInt8) : List (Table Json) × Option ReadFailure :=
  match _h : read true bytes with
  | .message fields rest =>
    let (ps, e) := readAll rest
    (fields :: ps, e)
  | .failed e => ([], some e)
  | .ended | .more => ([], none)
termination_by bytes.length
decreasing_by exact length_readFrom _h

end SfcCheck.Wire
