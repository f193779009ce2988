import SfcCheck.FileTree
import SfcCheck.Settings.Basic
import SfcCheck.Toml.Parser

/-!
# Where settings come from

Settings are looked up in four sources. The command line comes before the environment, the
environment before the nearest settings file, the settings file before the nearest project file.
Both files are searched for from a directory upward. A file that is no TOML counts as empty; one
that is no UTF-8 text, or that holds a numeral with too many digits or values nested too deep, is an
error.
-/

namespace SfcCheck.Settings

/-- Why settings cannot be had. -/
inductive Failure where
  | refused (e : Refusal)
  | fault (e : Fault)
  | file (e : FileError)

def Failure.message : Failure → String
  | refused e => e.message
  | fault e => e.message
  | file e => e.message

/-- The name of a settings file. -/
def settingsFile : String := ".vuetypecheckrc"

/-- The name of a project file. -/
def projectFile : String := "pyproject.toml"

/-- The section of a project file that holds settings, below `toolKey`. -/
def sectionKey : String := "vue-type-check"

/-- The table of a project file whose sections belong to tools. -/
def toolKey : String := "tool"

/-- The start of the names of environment variables. -/
def variableStart : String := "VUE_TYPE_CHECK_"

/-- A TOML value as a setting. -/
def ofToml : Toml → Setting
  | .bool b => .bool b
  | .int n => .int n
  | .float x => .float x
  | .text s => .text s
  | v => .other v.kind

/-- The first of two sources comes before the second. -/
def Layer.over (a b : Layer) : Layer := fun f => (a f).or (b f)

/-- A source that sets nothing. -/
def Layer.empty : Layer := fun _ => none

/-- The table in a file. -/
def tableOf (content : List UInt8) : Except Fault (Table Toml) :=
  match Text.decodeUtf8 content with
  | .error e => .error (.undecodable e)
  | .ok cs =>
    match Toml.parse cs with
    | .ok t => .ok t
    | .error .malformed => .ok []
    | .error (.tooManyDigits n) => .error (.tooManyDigits n)
    | .error .tooDeep => .error .tooDeep

/-- What a settings file says. -/
def ofSettingsFile (t : Table Toml) : Layer := fun f => (t.get? f.key).map ofToml

/-- A key of a project file, whose words may be joined by hyphens. -/
def normalKey (key : String) : String := key.map fun c => if c = '-' then '_' else c

/-- What a section of a project file says. Of two spellings of a key the later one counts. -/
def ofSection (t : Table Toml) : Layer :=
  ofSettingsFile (.ofList (t.map fun e => (normalKey e.1, e.2)))

/-- What a project file says. -/
def ofProjectFile (t : Table Toml) : Except Fault Layer := do
  let tools ←
    match t.get? toolKey with
    | none => pure []
    | some (.table tools) => pure tools
    | some v => throw (.noMember v.kind "get")
  match Table.get? sectionKey tools with
  | none => return .empty
  | some (.table section') => return ofSection section'
  | some v => throw (.noMember v.kind "items")

/-- What the environment says. -/
def ofEnvironment (environment : Table String) : Layer := fun f =>
  (environment.get? (variableStart ++ f.key.toUpper)).map .text

/-- What the command line says. Null stands for nothing. -/
def ofOverrides (v : Json) : Except Fault Layer :=
  match v with
  | .obj fields =>
    .ok fun f =>
      match Table.get? f.key fields with
      | none | some .null => none
      | some v => some v.toSetting
  | v => if v.isTruthy then .error (.noMember v.kind "items") else .ok .empty

/-- What the nearest file of a name says. -/
def ofNearest (tree : FileTree) (name : String) (start? : Option Path)
    (read : Table Toml → Except Fault Layer) : Except Failure Layer := do
  match ← (tree.findNearest name start?).mapError .file with
  | none => return .empty
  | some path =>
    match tree.read path with
    | .error _ => return .empty
    | .ok content => (tableOf content >>= read).mapError .fault

/-- The settings of a run that starts in a directory. -/
def load (tree : FileTree) (environment : Table String) (overrides : Json) (start? : Option Path) :
    Except Failure Settings := do
  let chosen ← (ofOverrides overrides).mapError .fault
  let project ← ofNearest tree projectFile start? ofProjectFile
  let settings ← ofNearest tree settingsFile start? fun t => return ofSettingsFile t
  let layer := chosen.over ((ofEnvironment environment).over (settings.over project))
  (ofLayer layer).mapError .refused

end SfcCheck.Settings
