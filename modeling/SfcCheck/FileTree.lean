import SfcCheck.Path
import SfcCheck.Table
import SfcCheck.Text.Quoted

/-!
# The file tree

The files that a run can see, as a value: directories, files and symbolic links below one root,
with a working directory. Nothing here changes the tree. Nodes have no permissions: every file can
be read, and every directory can be read and searched.

There are two ways to follow a path. `walk` is what opening a file does: links are followed as they
come, at most forty of them. `resolve` finds the name of a place without links; names that do not
exist are kept, and a link that leads back to itself is an error.
-/

namespace SfcCheck

/-- What stands at a place. -/
inductive Node where
  | file (content : List UInt8)
  | link (target : String)
  | directory (entries : List (String × Node))
deriving Inhabited

/-- Files below a root. -/
structure FileTree where
  top : Node
  /-- The names of the working directory, none of which is a link. -/
  here : List String

/-- Why a path leads nowhere. -/
inductive FileError.Cause where
  | notFound
  | notDirectory
  | isDirectory
  | nameTooLong
  | tooManyLinks
  /-- What the system reports apart from that, with its own number and words. -/
  | other (code : Nat) (words : String)
deriving DecidableEq, Repr

namespace FileError.Cause

/-- The number of a cause. -/
def number : Cause → Nat
  | notFound => 2
  | notDirectory => 20
  | isDirectory => 21
  | nameTooLong => 36
  | tooManyLinks => 40
  | other code _ => code

/-- A cause in words. -/
def message : Cause → String
  | notFound => "No such file or directory"
  | notDirectory => "Not a directory"
  | isDirectory => "Is a directory"
  | nameTooLong => "File name too long"
  | tooManyLinks => "Too many levels of symbolic links"
  | other _ words => words

end FileError.Cause

/-- Why a file cannot be used. -/
inductive FileError where
  | failed (cause : FileError.Cause) (path : String)
  /-- A link that leads back to itself. -/
  | linkLoop (path : String)
  /-- A path holds a null character. -/
  | nullInPath
deriving DecidableEq, Repr

/-- The error in words. -/
def FileError.message : FileError → String
  | failed cause path => s!"[Errno {cause.number}] {cause.message}: {Text.quoted path}"
  | linkLoop path => s!"Symlink loop from {Text.quoted path}"
  | nullInPath => "embedded null byte"

namespace Node

/-- The node under a name. -/
def child? (name : String) : Node → Option Node
  | directory entries => Table.get? name entries
  | _ => none

/-- The node at a place, no link being followed. -/
def at? : List String → Node → Option Node
  | [], n => some n
  | name :: names, n => (n.child? name).bind (at? names)

def isDirectory : Node → Bool
  | directory _ => true
  | _ => false

mutual

/-- The number of links. -/
def linkCount : Node → Nat
  | link _ => 1
  | file _ => 0
  | directory entries => entriesLinkCount entries

/-- The number of links below a directory. -/
def entriesLinkCount : List (String × Node) → Nat
  | [] => 0
  | (_, n) :: entries => n.linkCount + entriesLinkCount entries

end

mutual

/-- The places below a directory, no link being followed. -/
def places : Node → List (List String)
  | directory entries => entriesPlaces entries
  | _ => []

/-- The places of entries and below them. -/
def entriesPlaces : List (String × Node) → List (List String)
  | [] => []
  | (name, n) :: entries => [name] :: n.places.map (name :: ·) ++ entriesPlaces entries

end

mutual

/-- The places below a directory in the order in which a search looks at them: in each directory
first the names that are sought, then every entry, followed by what is below it. -/
def visits (isSought : String → Bool) : Node → List (List String)
  | directory entries =>
    ((entries.map (·.1)).filter isSought).map ([·]) ++ entriesVisits isSought entries
  | _ => []

/-- The places of entries and below them, as a search looks at them one by one. -/
def entriesVisits (isSought : String → Bool) : List (String × Node) → List (List String)
  | [] => []
  | (name, n) :: entries =>
    [name] :: (n.visits isSought).map (name :: ·) ++ entriesVisits isSought entries

end

/-- Puts a node at a place, making the directories above it. A file in the way is kept. -/
def insert (old : Node) : List String → Node → Node
  | [], new => new
  | name :: names, new =>
    match old with
    | directory entries =>
      let inner := (Table.get? name entries).getD (directory [])
      directory (Table.put name (inner.insert names new) entries)
    | _ => old

end Node

namespace FileTree

/-- The number of links that are followed on the way to a file. -/
def linkLimit : Nat := 40

/-- The number of bytes that a name may have. -/
def nameLimit : Nat := 255

/-- The number of bytes that a path may have. -/
def pathLimit : Nat := 4095

/-- The names in a path or in the target of a link. Where a slash is doubled or ends the text, a dot
asks for a directory. -/
def steps (target : String) : List String :=
  (Path.parts target).map fun n => if n = "" then "." else n

/-- Where the target of a link starts, given the directory that holds the link. -/
def targetStart (place : List String) (target : String) : List String :=
  if target.toList.head? = some '/' then [] else place

/-- Follows names from a directory: the place reached and what is there. -/
def walk (top : Node) (links : Nat) (place : List String) :
    List String → Except FileError.Cause (List String × Node)
  | [] =>
    match top.at? place with
    | some n => .ok (place, n)
    | none => .error .notFound
  | name :: names =>
    match top.at? place with
    | some (.directory entries) =>
      if name = "." then walk top links place names
      else if name = ".." then walk top links place.dropLast names
      else if nameLimit < name.utf8ByteSize then .error .nameTooLong
      else
        match Table.get? name entries with
        | none => .error .notFound
        | some (.link target) =>
          match links with
          | 0 => .error .tooManyLinks
          | links + 1 => walk top links (targetStart place target) (steps target ++ names)
        | some _ => walk top links (place ++ [name]) names
    | _ => .error .notDirectory
termination_by names => (links, names.length)

/-- The place where a path starts. -/
def start (t : FileTree) (p : Path) : List String := if p.isAbsolute then [] else t.here

/-- What a path leads to. -/
def lookup (t : FileTree) (p : Path) : Except FileError.Cause Node :=
  if pathLimit < p.text.utf8ByteSize then .error .nameTooLong
  else (·.2) <$> walk t.top linkLimit (t.start p) p.names

/-- Whether a path holds a null character. -/
def hasNull (p : Path) : Bool := p.names.any fun n => n.toList.any (·.toNat == 0)

/-- What a path leads to, if anything. A name that is too long is an error. -/
def lookup? (t : FileTree) (p : Path) : Except FileError (Option Node) :=
  if hasNull p then .ok none
  else
    match t.lookup p with
    | .ok n => .ok (some n)
    | .error .nameTooLong => .error (.failed .nameTooLong p.text)
    | .error _ => .ok none

/-- Whether a path leads to a file. -/
def isFile (t : FileTree) (p : Path) : Except FileError Bool := do
  match ← t.lookup? p with
  | some (.file _) => return true
  | _ => return false

/-- Whether a path leads to a directory. -/
def isDirectory (t : FileTree) (p : Path) : Except FileError Bool := do
  match ← t.lookup? p with
  | some (.directory _) => return true
  | _ => return false

/-- The content of the file that a path leads to. -/
def read (t : FileTree) (p : Path) : Except FileError (List UInt8) :=
  if hasNull p then .error .nullInPath
  else
    match t.lookup p with
    | .ok (.file content) => .ok content
    | .ok _ => .error (.failed .isDirectory p.text)
    | .error cause => .error (.failed cause p.text)

/-! ## Resolving -/

/-- Applies names to a place without looking at the tree. Names that start with a slash start at
the root. -/
def settle (place names : List String) : List String :=
  names.foldl
    (fun here name =>
      if name = "" ∨ name = "." then here
      else if name = ".." then here.dropLast
      else here ++ [name])
    (match names with | "" :: _ :: _ => [] | _ => place)

/-- The names of a place that was followed to, be it from the root or from the working directory. -/
def namesOf (here : List String) (place : Path) : List String :=
  if place.isAbsolute then place.names else settle here place.names

/-- The place above. Above the working directory it is written with double dots. -/
def above (place : Path) : Path :=
  if !place.isAbsolute && (place.names.getLast?.getD ".." == "..") then
    ⟨place.anchor, place.names ++ [".."]⟩
  else ⟨place.anchor, place.names.dropLast⟩

/-- The place where the target of a link starts, given the place that holds the link. -/
def targetPlace (place : Path) (target : String) : Path :=
  if target.toList.head? = some '/' then .ofNames [] else place

/-- The links met so far on the way to a place, as they were written there, each with the place that
it stands for. A link that is still being followed stands for nothing yet. -/
abbrev Met := List (Path × Option Path)

/-- The outcome of following names. -/
inductive Reached where
  | at (place : Path)
  /-- A link leads back to itself; the names after it are applied without looking. -/
  | stuck (names : List String)

/-- The names of the place reached, whether by looking or not. -/
def Reached.names (here : List String) : Reached → List String
  | .at place => namesOf here place
  | .stuck names => names

/-- Follows names from a place without links. `depth` bounds the links that are followed inside one
another. -/
def follow (top : Node) (here : List String) (depth : Nat) (met : Met) (place : Path) :
    List String → Reached × Met
  | [] => (.at place, met)
  | name :: names =>
    if name = "" ∨ name = "." then follow top here depth met place names
    else if name = ".." then follow top here depth met (above place) names
    else
      let next : Path := ⟨place.anchor, place.names ++ [name]⟩
      match top.at? (namesOf here next) with
      | some (.link target) =>
        match met.find? (·.1 == next) with
        | some (_, some known) => follow top here depth met known names
        | some (_, none) => (.stuck (settle (namesOf here next) names), met)
        | none =>
          match depth with
          | 0 => (.stuck (settle (namesOf here next) names), met)
          | depth + 1 =>
            match follow top here depth ((next, none) :: met) (targetPlace place target)
                (Path.parts target) with
            | (.at known, met) =>
              follow top here (depth + 1) ((next, some known) :: met) known names
            | (.stuck known, met) => (.stuck (settle known names), met)
      | _ => follow top here depth met next names
termination_by names => (depth, names.length)

/-- The names of the place that a path leads to. A link may be met twice before it is recognised:
once as seen from the working directory and once as seen from the root. -/
def target (t : FileTree) (p : Path) : List String :=
  let start : Path := if p.isAbsolute then .ofNames [] else ⟨.here, []⟩
  (follow t.top t.here (2 * t.top.linkCount + 1) [] start p.names).1.names t.here

/-- The path of a place without links on the way. -/
def resolve (t : FileTree) (p : Path) : Except FileError Path :=
  if hasNull p then .error .nullInPath
  else
    let q := Path.ofNames (t.target p)
    match t.lookup q with
    | .error .tooManyLinks => .error (.linkLoop q.text)
    | _ => .ok q

/-- A path given by a user, seen from a base or from the working directory. -/
def resolveFrom (t : FileTree) (base : Option Path) (p : Path) : Except FileError Path :=
  t.resolve ((base.getD (.ofNames t.here)).join p)

/-- The nearest file of a name in a directory or above it. -/
def findUpward (t : FileTree) (name : Path) : List String → Except FileError (Option Path)
  | names => go names.length names
where
  /-- Looks in the directory with `n` names, then above it. -/
  go (n : Nat) (names : List String) : Except FileError (Option Path) := do
    let candidate := (Path.ofNames (names.take n)).join name
    if ← t.isFile candidate then return some candidate
    match n with
    | 0 => return none
    | n + 1 => go n names

/-- The nearest file of a name, from a directory or from the working directory upward. -/
def findNearest (t : FileTree) (name : String) (from? : Option Path) :
    Except FileError (Option Path) := do
  let directory ← t.resolve (from?.getD ⟨.here, []⟩)
  t.findUpward (Path.ofText name) directory.names

end FileTree

end SfcCheck
