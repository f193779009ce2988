import SfcCheck.FileTree
import SfcCheck.Json.Parser
import SfcCheck.Server.Script
import SfcCheck.Text.Encoding

/-!
# Recorded projects

A project as one JSON object: its files with their texts, the working directory, and the diagnostics
that a language server published for its documents. With a recording a run needs neither files nor a
server.
-/

namespace SfcCheck

/-- A recorded project. -/
structure Recording where
  tree : FileTree
  /-- The published diagnostics by the addresses of the documents. -/
  diagnostics : Table (List Json)

namespace Recording

/-- The members of an object. -/
def members : Json → Table Json
  | .obj fields => fields
  | _ => []

/-- The text in a value. -/
def text : Json → String
  | .str s => s
  | _ => ""

/-- The items of a list. -/
def items : Json → List Json
  | .arr xs => xs
  | _ => []

/-- A tree with the given files, whose paths are seen from the directory. -/
def treeOf (directory : Path) (files : Table Json) : FileTree :=
  let top := (Node.directory []).insert directory.names (.directory [])
  let add (n : Node) (file : String × Json) : Node :=
    n.insert (directory.join (.ofText file.1)).names (.file (Text.encodeUtf8 (text file.2).toList))
  ⟨files.foldl add top, directory.names⟩

/-- The recording in an object. What is missing is empty. -/
def ofJson (v : Json) : Recording :=
  let value (key : String) : Json := (Table.get? key (members v)).getD .null
  ⟨treeOf (.ofText (text (value "directory"))) (members (value "files")),
    (members (value "diagnostics")).map fun d => (d.1, items d.2)⟩

/-- The rule to publish diagnostics for a document, or for any. -/
def publishing (uri? : Option String) (xs : List Json) : Server.Rule :=
  ⟨"textDocument/didOpen", uri?, none, [.publish xs]⟩

/-- A server that publishes what was recorded, and nothing for other documents. -/
def server (r : Recording) : Server (List Server.Rule) :=
  let known := r.diagnostics.map fun d => publishing (some d.1) d.2
  .ofRules (known ++ [publishing none []]) true false

end Recording

end SfcCheck
