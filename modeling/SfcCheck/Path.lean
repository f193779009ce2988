import SfcCheck.Text.DecimalDigit
import SfcCheck.Text.Encoding

/-!
# Paths

A path is an anchor and the names after it. Empty names and single dots are dropped when a path is
read, double dots are kept: whether they can be dropped depends on links. A path that starts with
exactly two slashes is set apart from one that starts with one slash or with three and more.
-/

namespace SfcCheck

/-- Where a path starts. -/
inductive Path.Anchor where
  /-- At the working directory. -/
  | here
  | root
  /-- At a root written with two slashes. -/
  | doubleRoot
deriving DecidableEq, Repr

/-- The slashes of an anchor. -/
def Path.Anchor.text : Path.Anchor → String
  | here => ""
  | root => "/"
  | doubleRoot => "//"

/-- A path. -/
structure Path where
  anchor : Path.Anchor
  names : List String
deriving DecidableEq, Repr

/-- A path that cannot be written as an address. -/
structure RelativePath where
deriving DecidableEq, Repr

def RelativePath.message (_ : RelativePath) : String :=
  "relative path can't be expressed as a file URI"

namespace Path

/-- The anchor of a text. -/
def Anchor.ofChars : List Char → Anchor
  | '/' :: '/' :: '/' :: _ => root
  | '/' :: '/' :: _ => doubleRoot
  | '/' :: _ => root
  | _ => here

/-- What stands between the slashes of a text. -/
def parts (s : String) : List String := (s.toList.splitOn '/').map String.ofList

/-- Reads a path. -/
def ofText (s : String) : Path :=
  ⟨.ofChars s.toList, (parts s).filter fun n => n != "" && n != "."⟩

/-- The path written out. -/
def text (p : Path) : String :=
  if p.anchor = .here ∧ p.names = [] then "." else p.anchor.text ++ "/".intercalate p.names

/-- A path below the root. -/
def ofNames (names : List String) : Path := ⟨.root, names⟩

/-- Whether a path does not depend on the working directory. -/
def isAbsolute (p : Path) : Bool := p.anchor != .here

/-- A path seen from another one. -/
def join (p q : Path) : Path := if q.isAbsolute then q else ⟨p.anchor, p.names ++ q.names⟩

/-- The last name, empty if there is none. -/
def name (p : Path) : String := p.names.getLast?.getD ""

/-- What follows the last dot of a name, if the dot is neither its first nor its last character. -/
def extensionOf? (name : String) : Option String :=
  let cs := name.toList
  let ext := (cs.reverse.takeWhile (· != '.')).reverse
  if ext.isEmpty || cs.length < ext.length + 2 then none else some (String.ofList ext)

/-- The extension of a path. -/
def extension? (p : Path) : Option String := extensionOf? p.name

/-! ## Addresses -/

/-- The bytes that stand for themselves in an address. -/
def isPlainByte (b : UInt8) : Bool :=
  let c := Char.ofNat b.toNat
  c.isAlphanum || c == '_' || c == '.' || c == '-' || c == '~' || c == '/'

/-- One byte in an address. -/
def addressByte (b : UInt8) : List Char :=
  if isPlainByte b then [Char.ofNat b.toNat]
  else '%' :: (Text.hexText 2 b.toNat).map Char.toUpper

/-- The address of a path that does not depend on the working directory. -/
def address (p : Path) : String :=
  "file://" ++ String.ofList ((Text.encodeUtf8 p.text.toList).flatMap addressByte)

/-- The address of a path, if it has one. -/
def uri (p : Path) : Except RelativePath String :=
  if p.isAbsolute then .ok p.address else .error ⟨⟩

end Path

end SfcCheck
