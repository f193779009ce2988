import SfcCheck.Path
import SfcCheck.Setting
import SfcCheck.Words

/-!
# Settings of a run

The six settings with their defaults, and the checks that values from outside have to pass. The
checks come in a fixed order, so of several bad settings the first one is reported.
-/

namespace SfcCheck

/-- The settings of a run. -/
structure Settings where
  /-- The command line of the language server. -/
  serverCommand : String
  /-- The words of the command. -/
  serverArgs : List String
  /-- The compiler configuration, seen from the workspace. -/
  tsconfigName : String
  /-- The package manifest, seen from the workspace. -/
  packageName : String
  /-- The number of documents in the region cache. -/
  cacheMaxEntries : Int
  /-- The seconds for which an unused cache entry is kept. -/
  cacheTtl : Float
  /-- The seconds to wait for a reply of the language server. -/
  responseTimeout : Float

namespace Settings

/-- The names of the settings. -/
inductive Field where
  | serverCommand
  | tsconfigName
  | packageName
  | cacheMaxEntries
  | cacheTtl
  | responseTimeout
deriving DecidableEq, Repr

/-- The key of a setting in a table. -/
def Field.key : Field → String
  | serverCommand => "server_command"
  | tsconfigName => "tsconfig_name"
  | packageName => "package_name"
  | cacheMaxEntries => "cache_max_entries"
  | cacheTtl => "cache_ttl_seconds"
  | responseTimeout => "response_timeout"

/-- All settings. -/
def Field.all : List Field :=
  [serverCommand, tsconfigName, packageName, cacheMaxEntries, cacheTtl, responseTimeout]

/-- What one source says: a value for each setting that it sets. -/
abbrev Layer := Field → Option Setting

/-- Why settings are refused. -/
inductive Refusal where
  | unknownField (key : String)
  /-- A field has the key that stands for the settings themselves. -/
  | reservedField (key : String)
  | emptyCommand
  | words (e : Words.Refusal)
  | noExecutable
  | emptyTsconfigName
  | emptyPackageName
  | tooFewEntries
  | ttlNotPositive
  | timeoutNotPositive
  | fault (e : Fault)

/-- A refusal in words. A key stands between quotes as it is, whatever characters it holds. -/
def Refusal.message : Refusal → String
  | unknownField key => s!"CheckConfig.__init__() got an unexpected keyword argument '{key}'"
  | reservedField key => s!"CheckConfig.__init__() got multiple values for argument '{key}'"
  | emptyCommand => "server_command must be a non-empty string"
  | words e => e.message
  | noExecutable => "server_command must name an executable"
  | emptyTsconfigName => "tsconfig_name must be a non-empty string"
  | emptyPackageName => "package_name must be a non-empty string"
  | tooFewEntries => "cache_max_entries must be at least 1"
  | ttlNotPositive => "cache_ttl_seconds must be positive"
  | timeoutNotPositive => "response_timeout must be positive"
  | fault e => e.message

/-- The value of a setting that nobody sets. -/
def default : Field → Setting
  | .serverCommand => .text "vls --stdio"
  | .tsconfigName => .text "tsconfig.json"
  | .packageName => .text "package.json"
  | .cacheMaxEntries => .int 10
  | .cacheTtl => .int 60
  | .responseTimeout => .float 120.0

/-- A text that is not empty. -/
def nonEmptyText (refusal : Refusal) : Setting → Except Refusal String
  | .text s => if s.isEmpty then .error refusal else .ok s
  | _ => .error refusal

/-- A positive number. -/
def positiveNumber (refusal : Refusal) (v : Setting) : Except Refusal Float :=
  match v.toNumber with
  | .error e => .error (.fault e)
  | .ok x => if x ≤ 0.0 then .error refusal else .ok x

/-- An integer above zero. -/
def positiveInteger (refusal : Refusal) (v : Setting) : Except Refusal Int :=
  match v.toInteger with
  | .error e => .error (.fault e)
  | .ok n => if n < 1 then .error refusal else .ok n

/-- Checks the settings that a source sets, the others being the default ones. -/
def ofLayer (layer : Layer) : Except Refusal Settings := do
  let value (f : Field) : Setting := (layer f).getD (default f)
  let serverCommand ← nonEmptyText .emptyCommand (value .serverCommand)
  let serverArgs ← (Words.ofText serverCommand).mapError .words
  if serverArgs.isEmpty then throw .noExecutable
  let tsconfigName ← nonEmptyText .emptyTsconfigName (value .tsconfigName)
  let packageName ← nonEmptyText .emptyPackageName (value .packageName)
  let cacheMaxEntries ← positiveInteger .tooFewEntries (value .cacheMaxEntries)
  let cacheTtl ← positiveNumber .ttlNotPositive (value .cacheTtl)
  let responseTimeout ← positiveNumber .timeoutNotPositive (value .responseTimeout)
  return ⟨serverCommand, serverArgs, tsconfigName, packageName, cacheMaxEntries, cacheTtl,
    responseTimeout⟩

/-- The key that stands for the settings themselves. -/
def reservedKey : String := "self"

/-- The first field that is no setting. -/
def unknown? (fields : Table Setting) : Option Refusal :=
  fields.findSome? fun f =>
    if Field.all.any (·.key == f.1) then none
    else some (if f.1 = reservedKey then .reservedField f.1 else .unknownField f.1)

/-- The settings in a table that holds nothing else. -/
def ofFields (fields : Table Setting) : Except Refusal Settings :=
  match unknown? fields with
  | some e => .error e
  | none => ofLayer fun f => fields.get? f.key

/-- Where the compiler configuration of a workspace is. -/
def tsconfigPath (s : Settings) (workspace : Path) : Path := workspace.join (.ofText s.tsconfigName)

/-- Where the package manifest of a workspace is. -/
def packagePath (s : Settings) (workspace : Path) : Path := workspace.join (.ofText s.packageName)

end Settings

end SfcCheck
