import SfcCheck.Document
import SfcCheck.FileTree
import SfcCheck.ScriptTag

/-!
# Source files

Which files a run checks, and how they become documents. A file is selected by its extension, unless
it lies in an ignored directory or its path starts with an excluded one. Links to files are
selected, links to directories are not entered. The order is that of the paths, name by name.

The search looks at every entry below the root, in ignored and excluded directories as well. A link
that leads nowhere is passed over, unless a name on its way is too long.
-/

namespace SfcCheck

/-- A file as it was read. -/
structure Source where
  path : Path
  /-- The extension, empty if there is none. -/
  languageId : String
  text : String
deriving DecidableEq, Repr

namespace Source

/-- The extensions that are checked. -/
def extensions : List String := [Region.componentLanguage]

/-- The extensions that are checked where scripts are typed. -/
def typedExtensions : List String := ["ts", "tsx", Region.componentLanguage]

/-- The directories whose files are ignored. -/
def ignoredNames : List String := ["node_modules", ".git", ".nuxt", ".output"]

/-- Why sources cannot be had. -/
inductive Failure where
  | file (e : FileError)
  | undecodable (e : Text.DecodeError)
deriving DecidableEq, Repr

def Failure.message : Failure → String
  | file e => e.message
  | undecodable e => e.message

/-- Whether a name has one of these extensions. -/
def hasExtension (extensions : List String) (name : String) : Bool :=
  (Path.extensionOf? name).any extensions.contains

/-- Whether a path, by its names below the root, is of a kind that is checked. -/
def isWanted (extensions names : List String) : Bool :=
  hasExtension extensions (names.getLast?.getD "") && !names.any ignoredNames.contains

/-- Whether a path starts with one of these texts. -/
def startsWithAny (starts : List String) (p : Path) : Bool :=
  starts.any fun s => s.toList.isPrefixOf p.text.toList

/-- Whether a path does not come after another one, names being compared one by one. -/
def isInOrder : List String → List String → Bool
  | [], _ => true
  | _ :: _, [] => false
  | a :: as, b :: bs => if a = b then isInOrder as bs else decide (a < b)

/-- The files to check below a directory. -/
def select (tree : FileTree) (root : Path) (extensions : List String) (excluded : List Path) :
    Except FileError (List Path) := do
  let root ← tree.resolve root
  let starts ← excluded.mapM fun p => return (← tree.resolve p).text
  if !(← tree.isDirectory root) then return []
  let below (names : List String) : Path := Path.ofNames (root.names ++ names)
  let top := (tree.top.at? root.names).getD (.directory [])
  (top.visits (hasExtension extensions)).forM fun names => discard (tree.lookup? (below names))
  let candidates := (top.places.filter (isWanted extensions)).map below
  let files ← candidates.filterM tree.isFile
  let kept := files.filter fun p => !startsWithAny starts p
  return kept.mergeSort fun p q => isInOrder p.names q.names

/-- Reads a file. -/
def read (tree : FileTree) (p : Path) : Except Failure Source := do
  let content ← (tree.read p).mapError .file
  let text ← (Text.decodeUtf8 content).mapError .undecodable
  return ⟨p, p.extension?.getD "", String.ofList text⟩

/-- Whether a file is checked when only typed sources are. -/
def isKept (s : Source) : Bool := ScriptTag.isKept s.languageId s.text

/-- A document with the address of the place that a path leads to. -/
def documentAt (tree : FileTree) (p : Path) (languageId text : String) :
    Except FileError Document := do
  let place ← tree.resolve p
  return ⟨place.address, languageId, 0, text⟩

/-- A file as a document. -/
def document (tree : FileTree) (s : Source) : Except FileError Document :=
  documentAt tree s.path s.languageId s.text

end Source

end SfcCheck
