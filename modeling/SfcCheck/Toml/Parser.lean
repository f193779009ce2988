import SfcCheck.Toml.Scalar

/-!
# Reading TOML

A file is read statement by statement: a key with its value, a table header, or the header of a new
table in a list. Values written as lists and tables are closed; a table that was declared by its
header, or passed through by a dotted key in an earlier section, is not declared again.
-/

namespace SfcCheck.Toml

/-- Whether the rest of a line may be a comment. -/
def isComment (cs : List Char) : Bool := (cs.takeWhile (· != '\n')).all isLineChar

/-- What follows a comment, if one starts here. -/
def skipComment : List Char → Except Refusal (List Char)
  | '#' :: cs => if isComment cs then .ok (cs.dropWhile (· != '\n')) else .error .malformed
  | cs => .ok cs

/-- What follows blanks, newlines and comments. -/
def skipGaps (cs : List Char) : Except Refusal (List Char) :=
  match _h : cs.dropWhile isBlankOrNewline with
  | '#' :: rest =>
    if isComment rest then skipGaps (rest.dropWhile (· != '\n')) else .error .malformed
  | rest => .ok rest
termination_by cs.length
decreasing_by
  have h1 := (List.dropWhile_sublist isBlankOrNewline (l := cs)).length_le
  have h2 := (List.dropWhile_sublist (· != '\n') (l := rest)).length_le
  rw [_h, List.length_cons] at h1
  omega

/-! ## Keys -/

def isBareKeyChar (c : Char) : Bool := c.isAlphanum || c == '-' || c == '_'

/-- One part of a key. -/
def keyPart : List Char → Except Refusal (String × List Char)
  | [] => .error .malformed
  | c :: cs =>
    if isBareKeyChar c then
      .ok (String.ofList (c :: cs.takeWhile isBareKeyChar), cs.dropWhile isBareKeyChar)
    else if c = '\'' ∨ c = '"' then lineText c cs
    else .error .malformed

/-- A key, its parts apart by points. What follows starts with no blank. -/
def key : Nat → List Char → Except Refusal (Key × List Char)
  | 0, _ => .error .malformed
  | n + 1, cs => do
    let (part, rest) ← keyPart cs
    match rest.dropWhile isBlank with
    | '.' :: rest => do
      let (parts, rest) ← key n (rest.dropWhile isBlank)
      return (part :: parts, rest)
    | rest => return ([part], rest)

/-! ## Values -/

/-- A table written in a line, as far as it is read. -/
structure Inline where
  fields : Table Toml := []
  /-- The keys of closed values. -/
  closed : List Key := []

/-- Adds a field. -/
def Inline.add (t : Inline) (key : Key) (v : Toml) : Option Inline :=
  if t.closed.any (·.isPrefixOf key) then none
  else
    let (tables, name) := Key.split key
    (update false (putNew name v) tables t.fields).map fun fields =>
      ⟨fields, if v.isCompound then key :: t.closed else t.closed⟩

/-- The number of levels for nested values. It is what a stack of a thousand frames leaves to the
reader where a run loads its settings, and it shrinks with the frames that are in use there. -/
def depthLimit : Nat := 980

/-- The number of levels that a list takes. -/
def listLevels : Nat := 2

/-- The number of levels that a table in a line takes. -/
def inlineLevels : Nat := 3

mutual

/-- A value that may nest `depth` levels. -/
def value : Nat → Nat → List Char → Except Refusal (Toml × List Char)
  | 0, _, _ => .error .malformed
  | n + 1, depth, cs =>
    match cs with
    | '"' :: '"' :: '"' :: rest => (fun r => (.text r.1, r.2)) <$> multilineText '"' rest
    | '\'' :: '\'' :: '\'' :: rest => (fun r => (.text r.1, r.2)) <$> multilineText '\'' rest
    | '"' :: rest => (fun r => (.text r.1, r.2)) <$> lineText '"' rest
    | '\'' :: rest => (fun r => (.text r.1, r.2)) <$> lineText '\'' rest
    | '[' :: rest =>
      if depth < listLevels then .error .tooDeep
      else do
        let rest ← skipGaps rest
        let (items, rest) ← listItems n (depth - listLevels) rest
        return (.list items, rest)
    | '{' :: rest =>
      if depth < inlineLevels then .error .tooDeep
      else
        match rest.dropWhile isBlank with
        | '}' :: rest => .ok (.table [], rest)
        | rest => do
          let (t, rest) ← inlineFields n (depth - inlineLevels) ⟨[], []⟩ rest
          return (.table t.fields, rest)
    | _ => scalar cs

/-- The items of a list up to its closing bracket. -/
def listItems : Nat → Nat → List Char → Except Refusal (List Toml × List Char)
  | 0, _, _ => .error .malformed
  | n + 1, depth, cs =>
    match cs with
    | ']' :: rest => .ok ([], rest)
    | _ => do
      let (v, rest) ← value n depth cs
      match ← skipGaps rest with
      | ']' :: rest => return ([v], rest)
      | ',' :: rest => do
        let (vs, rest) ← listItems n depth (← skipGaps rest)
        return (v :: vs, rest)
      | _ => throw .malformed

/-- The fields of a table in a line up to its closing brace, at least one. -/
def inlineFields : Nat → Nat → Inline → List Char → Except Refusal (Inline × List Char)
  | 0, _, _, _ => .error .malformed
  | n + 1, depth, t, cs => do
    let (k, v, rest) ← pair n depth cs
    match t.add k v with
    | none => throw .malformed
    | some t =>
      match rest.dropWhile isBlank with
      | '}' :: rest => return (t, rest)
      | ',' :: rest => inlineFields n depth t (rest.dropWhile isBlank)
      | _ => throw .malformed

/-- A key with its value, which may nest `depth` levels. -/
def pair : Nat → Nat → List Char → Except Refusal (Key × Toml × List Char)
  | 0, _, _ => .error .malformed
  | n + 1, depth, cs => do
    let (k, rest) ← key cs.length cs
    match rest with
    | '=' :: rest => do
      let (v, rest) ← value n depth (rest.dropWhile isBlank)
      return (k, v, rest)
    | _ => throw .malformed

end

/-! ## Statements -/

/-- A file as far as it is read. -/
structure State where
  data : Table Toml := []
  /-- The section that fields go to. -/
  header : Key := []
  /-- The keys of closed values. -/
  closed : List Key := []
  /-- The keys of tables that cannot be declared any more. -/
  declared : List Key := []
  /-- The keys that join the declared ones when the section ends. -/
  passed : List Key := []

namespace State

/-- Whether a key lies in a closed value. -/
def isClosed (s : State) (key : Key) : Bool := s.closed.any (·.isPrefixOf key)

/-- Ends the section. -/
def endSection (s : State) : State :=
  { s with declared := s.passed ++ s.declared, passed := [] }

/-- Starts the section of a table. -/
def openTable (s : State) (key : Key) : Option State :=
  if s.declared.contains key || s.isClosed key then none
  else
    (update true some key s.data).map fun data =>
      { s with data, header := key, declared := key :: s.declared }

/-- Starts the section of a new table in a list. What was known of the keys below it is dropped. -/
def openItem (s : State) (key : Key) : Option State :=
  if s.isClosed key then none
  else
    let (tables, name) := Key.split key
    (update true (pushTable name) tables s.data).map fun data =>
      { s with
        data
        header := key
        closed := s.closed.filter fun k => !key.isPrefixOf k
        declared := key :: s.declared.filter fun k => !key.isPrefixOf k }

/-- Adds a field to the section. -/
def add (s : State) (key : Key) (v : Toml) : Option State :=
  let (tables, name) := Key.split key
  let through := (List.range (key.length - 1)).map fun i => s.header ++ key.take (i + 1)
  if through.any s.declared.contains || s.isClosed (s.header ++ tables) then none
  else
    (update true (putNew name v) (s.header ++ tables) s.data).map fun data =>
      { s with
        data
        passed := through ++ s.passed
        closed := if v.isCompound then (s.header ++ key) :: s.closed else s.closed }

end State

/-- A next state, or the refusal of the file. -/
def orRefuse : Option State → Except Refusal State
  | some s => .ok s
  | none => .error .malformed

/-- One statement, after the blanks before it. -/
def statement (s : State) : List Char → Except Refusal (State × List Char)
  | '[' :: '[' :: cs => do
    let (k, rest) ← key cs.length (cs.dropWhile isBlank)
    let s ← orRefuse (s.endSection.openItem k)
    match rest with
    | ']' :: ']' :: rest => return (s, rest)
    | _ => throw .malformed
  | '[' :: cs => do
    let (k, rest) ← key cs.length (cs.dropWhile isBlank)
    let s ← orRefuse (s.endSection.openTable k)
    match rest with
    | ']' :: rest => return (s, rest)
    | _ => throw .malformed
  | '#' :: cs => return (s, '#' :: cs)
  | cs => do
    let (k, v, rest) ← pair (2 * cs.length + 2) depthLimit cs
    return (← orRefuse (s.add k v), rest)

/-- The statements of the rest of a file. -/
def statements : Nat → State → List Char → Except Refusal State
  | 0, _, _ => .error .malformed
  | n + 1, s, cs =>
    match cs.dropWhile isBlank with
    | [] => .ok s
    | '\n' :: rest => statements n s rest
    | cs => do
      let (s, rest) ← statement s cs
      match ← skipComment (rest.dropWhile isBlank) with
      | [] => return s
      | '\n' :: rest => statements n s rest
      | _ => throw .malformed

/-- A text with single newlines for line ends. -/
def unifyLineEnds : List Char → List Char
  | '\r' :: '\n' :: cs => '\n' :: unifyLineEnds cs
  | c :: cs => c :: unifyLineEnds cs
  | [] => []

/-- Reads a file. -/
def parse (cs : List Char) : Except Refusal (Table Toml) :=
  let cs := unifyLineEnds cs
  (·.data) <$> statements (cs.length + 1) ⟨[], [], [], [], []⟩ cs

end SfcCheck.Toml
