import SfcCheck.Json.Display
import SfcCheck.Json.Parser
import SfcCheck.Text.Encoding

/-!
# Faults

Values that come from outside — settings, wire messages, workspace files — may have the wrong shape
or no shape at all. A `Fault` says what was wrong with one of them. Its `message` is what a user
reads. A fault met while reading from the language server is shown with its class, which `label`
gives.
-/

namespace SfcCheck

namespace Json.ReadError

/-- The refusal in words. -/
def message : ReadError → String
  | .malformed cause line column offset =>
    s!"{cause.message}: line {line} column {column} (char {offset})"
  | .tooManyDigits n =>
    s!"Exceeds the limit ({digitLimit} digits) for integer string conversion: "
      ++ s!"value has {n} digits; use sys.set_int_max_str_digits() to increase the limit"
  | .tooDeep container =>
    "maximum recursion depth exceeded while decoding a JSON "
      ++ s!"{container.name} from a unicode string"

end Json.ReadError

/-- What is wrong with a value. -/
inductive Fault where
  /-- A table lacks a key. -/
  | missingKey (key : String)
  /-- A value of this kind has no member of this name. -/
  | noMember (kind : Kind) (name : String)
  /-- A list was asked for a key. -/
  | listKey
  /-- A text was asked for a key. -/
  | textKey
  /-- A value of this kind was asked for a key. -/
  | notIndexed (kind : Kind)
  /-- A value of this kind stands where an integer is needed. -/
  | notInteger (kind : Kind)
  /-- A text stands where an integer is needed. -/
  | badInteger (text : String)
  /-- An integer is written with too many digits. -/
  | tooManyDigits (count : Nat)
  /-- Values are nested too deep. -/
  | tooDeep
  /-- A number that is none stands where an integer is needed. -/
  | undefinedInteger
  /-- An infinite number stands where an integer is needed. -/
  | infiniteInteger
  /-- A value of this kind stands where a number is needed. -/
  | notNumber (kind : Kind)
  /-- A text stands where a number is needed. -/
  | badNumber (text : String)
  /-- An integer is too large for a number. -/
  | hugeInteger
  /-- A value is no severity. -/
  | badSeverity (value : Json)
  /-- A value of this kind cannot be looked up. -/
  | unhashable (kind : Kind)
  /-- A value of this kind has no items. -/
  | notIterable (kind : Kind)
  /-- A value of this kind cannot be searched. -/
  | notSearchable (kind : Kind)
  /-- A body has a negative length. -/
  | negativeLength
  /-- A line is longer than a line may be; `complete` says whether its end has come. -/
  | longLine (complete : Bool)
  /-- A text is no JSON. -/
  | malformedJson (e : Json.ReadError)
  /-- Bytes are no text. -/
  | undecodable (e : Text.DecodeError)

namespace Fault

/-- The class of a fault. -/
def label : Fault → String
  | missingKey _ => "KeyError"
  | noMember _ _ => "AttributeError"
  | listKey | textKey | notIndexed _ | notInteger _ | notNumber _ | unhashable _ | notIterable _
  | notSearchable _ => "TypeError"
  | infiniteInteger | hugeInteger => "OverflowError"
  | badInteger _ | tooManyDigits _ | undefinedInteger | badNumber _ | badSeverity _
  | negativeLength | longLine _ => "ValueError"
  | malformedJson (.malformed ..) => "JSONDecodeError"
  | malformedJson (.tooManyDigits _) => "ValueError"
  | tooDeep | malformedJson (.tooDeep _) => "RecursionError"
  | undecodable _ => "UnicodeDecodeError"

/-- The fault in words. -/
def message : Fault → String
  | missingKey key => Text.quoted key
  | noMember k name => s!"'{k.name}' object has no attribute '{name}'"
  | listKey => "list indices must be integers or slices, not str"
  | textKey => "string indices must be integers, not 'str'"
  | notIndexed k => s!"'{k.name}' object is not subscriptable"
  | notInteger k =>
    s!"int() argument must be a string, a bytes-like object or a real number, not '{k.name}'"
  | badInteger text =>
    "invalid literal for int() with base 10: " ++ (Text.quoted text).take 200
  | tooManyDigits n => (Json.ReadError.tooManyDigits n).message
  | tooDeep => "maximum recursion depth exceeded"
  | undefinedInteger => "cannot convert float NaN to integer"
  | infiniteInteger => "cannot convert float infinity to integer"
  | notNumber k => s!"float() argument must be a string or a real number, not '{k.name}'"
  | badNumber text => "could not convert string to float: " ++ Text.quoted text
  | hugeInteger => "int too large to convert to float"
  | badSeverity v => s!"{v.shown} is not a valid DiagnosticSeverity"
  | unhashable k => s!"unhashable type: '{k.name}'"
  | notIterable k => s!"'{k.name}' object is not iterable"
  | notSearchable k => s!"argument of type '{k.name}' is not iterable"
  | negativeLength => "readexactly size can not be less than zero"
  | longLine true => "Separator is found, but chunk is longer than limit"
  | longLine false => "Separator is not found, and chunk exceed the limit"
  | malformedJson e => e.message
  | undecodable e => e.message

/-- The fault with its class, as it is shown when the language server is at fault. -/
def shown (f : Fault) : String :=
  match f with
  | missingKey key => s!"{f.label}({Text.quoted key})"
  | undecodable e =>
    let place := s!"{Text.quotedBytes e.input}, {e.start}, {e.stop}"
    s!"{f.label}({Text.quoted e.codec}, {place}, {Text.quoted e.cause.message})"
  | _ => s!"{f.label}({Text.quoted f.message})"

end Fault

namespace Json

/-- The value of a key, for a value that has to be a table with that key. -/
def field (key : String) : Json → Except Fault Json
  | obj fields =>
    match Table.get? key fields with
    | some v => .ok v
    | none => .error (.missingKey key)
  | arr _ => .error .listKey
  | str _ => .error .textKey
  | v => .error (.notIndexed v.kind)

/-- The value of a key if it is there, for a value that has to be a table. -/
def get? (key : String) : Json → Except Fault (Option Json)
  | obj fields => .ok (Table.get? key fields)
  | v => .error (.noMember v.kind "get")

/-- The value of a key, or null, for a value that has to be a table. -/
def get (key : String) (v : Json) : Except Fault Json := (·.getD .null) <$> v.get? key

end Json

end SfcCheck
