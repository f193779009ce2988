import SfcCheck.Fault
import SfcCheck.FileTree
import SfcCheck.Json.Relaxed

/-!
# Workspaces

What the language server has to know of the project that is checked: its directories, its compiler
configuration and its manifest. Either file may be missing; one that is there has to hold an object.
The server asks for its configuration by the dotted names of sections.
-/

namespace SfcCheck

/-- What a run knows of a project. -/
structure Workspace where
  root : Path
  /-- The directory of the sources. -/
  source : Path
  tsconfigPath : Path
  packagePath : Path
  /-- The compiler configuration, if there is one. -/
  tsconfig? : Option (Table Json)
  /-- The manifest, if there is one. -/
  package? : Option (Table Json)
  /-- The configuration of the language server. -/
  config : Json

namespace Workspace

/-- What is wrong with a place in a workspace. -/
inductive Defect where
  | rootNoDirectory
  | sourceNoDirectory
  | undecodable (e : Text.DecodeError)
  | malformed (e : Json.ReadError)
  | noObject

/-- A defect in words. -/
def Defect.message : Defect → String
  | rootNoDirectory => "workspace root is not a directory"
  | sourceNoDirectory => "source directory is not a directory"
  | undecodable e => e.message
  | malformed e => e.message
  | noObject => "expected a JSON object at the top level"

/-- Why a workspace cannot be used. -/
inductive Failure where
  | invalid (path : Path) (defect : Defect)
  | file (e : FileError)
  | fault (e : Fault)

def Failure.message : Failure → String
  | invalid path defect => s!"Invalid workspace configuration at {path.text}: {defect.message}"
  | file e => e.message
  | fault e => e.message

/-- The configuration of a language server that is given none. -/
def defaultConfig : Json :=
  .obj
    [("vetur", .obj
      [("useWorkspaceDependencies", .bool false),
       ("validation", .obj
         [("template", .bool true),
          ("templateProps", .bool true),
          ("interpolation", .bool true),
          ("style", .bool false),
          ("script", .bool true)]),
       ("experimental", .obj [("templateInterpolationService", .bool true)])])]

/-! ## Reading -/

/-- A text whose line ends are single newlines. -/
def unifyNewlines : List Char → List Char
  | '\r' :: '\n' :: cs => '\n' :: unifyNewlines cs
  | c :: cs => (if c = '\r' then '\n' else c) :: unifyNewlines cs
  | [] => []

/-- Reads the object in a file with the given reader. -/
def readObject (tree : FileTree) (parse : List Char → Except Json.ReadError Json) (path : Path) :
    Except Failure (Option (Table Json)) := do
  if !(← (tree.isFile path).mapError .file) then return none
  let content ← (tree.read path).mapError .file
  match Text.decodeUtf8 content with
  | .error e => throw (.invalid path (.undecodable e))
  | .ok cs =>
    match parse (unifyNewlines cs) with
    | .error (.malformed cause line column offset) =>
      throw (.invalid path (.malformed (.malformed cause line column offset)))
    | .error e => throw (.fault (.malformedJson e))
    | .ok (.obj fields) => return some fields
    | .ok _ => throw (.invalid path .noObject)

/-- Looks at a workspace. The manifest is plain JSON, the compiler configuration may hold comments
and trailing commas. -/
def load (tree : FileTree) (root source tsconfigPath packagePath : Path) :
    Except Failure Workspace := do
  if !(← (tree.isDirectory root).mapError .file) then throw (.invalid root .rootNoDirectory)
  if !(← (tree.isDirectory source).mapError .file) then throw (.invalid source .sourceNoDirectory)
  let tsconfig? ← readObject tree Json.parseRelaxed tsconfigPath
  let package? ← readObject tree Json.parseText packagePath
  return ⟨root, source, tsconfigPath, packagePath, tsconfig?, package?, defaultConfig⟩

/-! ## Questions -/

/-- The address of the root. -/
def rootUri (w : Workspace) : Except RelativePath String := w.root.uri

/-- Whether a text occurs in another one. -/
def occursIn (pattern : List Char) : List Char → Bool
  | [] => pattern.isEmpty
  | c :: cs => pattern.isPrefixOf (c :: cs) || occursIn pattern cs

/-- Whether a value mentions a name: as a key, as an item or as a part of a text. -/
def mentions (name : String) : Json → Except Fault Bool
  | .obj fields => .ok (Table.contains name fields)
  | .arr items => .ok (items.any fun | .str s => s == name | _ => false)
  | .str s => .ok (occursIn name.toList s.toList)
  | v => .error (.notSearchable v.kind)

/-- The keys of a manifest that list other packages. -/
def dependencyKeys : List String := ["dependencies", "devDependencies"]

/-- Whether some key of a manifest mentions a name. A value that stands for nothing mentions
nothing. -/
def someMentions (name : String) (manifest : Table Json) : List String → Except Fault Bool
  | [] => .ok false
  | key :: keys => do
    let value := (manifest.get? key).getD .null
    if ← mentions name (value.orElse (.obj [])) then return true
    someMentions name manifest keys

/-- Whether the project uses TypeScript: it has a compiler configuration or depends on the
compiler. -/
def hasTypescript (w : Workspace) : Except Fault Bool :=
  if w.tsconfig?.isSome then .ok true
  else someMentions "typescript" (w.package?.getD []) dependencyKeys

/-- The value reached by following keys. -/
def valueAt (v : Json) : List String → Json
  | [] => v
  | key :: keys =>
    match v with
    | .obj fields =>
      match Table.get? key fields with
      | some v => valueAt v keys
      | none => .null
    | _ => .null

/-- The configuration of a section, all of it if the section is empty. -/
def section? (config section' : Json) : Except Fault Json :=
  if !section'.isTruthy then .ok config
  else
    match section' with
    | .str s => .ok (valueAt config (s.splitOn "."))
    | v => .error (.noMember v.kind "split")

end Workspace

end SfcCheck
