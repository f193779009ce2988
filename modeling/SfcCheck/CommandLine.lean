import SfcCheck.Release
import SfcCheck.Run
import SfcCheck.Text.Similarity

/-!
# The command line

How the arguments of the program are read and what it does with them. Options may stand anywhere; a
lone double hyphen ends them. The value of an option follows it, either after an equals sign or as
the next argument, whatever that looks like. Of an option that is given twice the last value counts,
except that directories to exclude add up.

Bad options come first, in the order in which they are given; then the options that only show
something, then bad values, superfluous arguments and at last what is missing.
-/

namespace SfcCheck.CommandLine

/-- The options of the program. -/
inductive Switch where
  | root
  | source
  | onlyTemplate
  | onlyTyped
  | excluded
  | serverCommand
  | timeout
  | verbose
  | version
  | help
deriving DecidableEq, Repr

namespace Switch

/-- All options, as they are declared. -/
def all : List Switch :=
  [root, source, onlyTemplate, onlyTyped, excluded, serverCommand, timeout, verbose, version, help]

/-- The names of an option. -/
def names : Switch → List String
  | root => ["--root-dir", "--rootDir"]
  | source => ["--src-dir", "--srcDir"]
  | onlyTemplate => ["--only-template", "--onlyTemplate"]
  | onlyTyped => ["--only-typescript", "--onlyTypeScript"]
  | excluded => ["--exclude-dir", "--excludeDir"]
  | serverCommand => ["--server-command"]
  | timeout => ["--timeout"]
  | verbose => ["--verbose"]
  | version => ["--version"]
  | help => ["--help"]

/-- Whether an option takes a value. -/
def takesValue : Switch → Bool
  | root | source | excluded | serverCommand | timeout => true
  | onlyTemplate | onlyTyped | verbose | version | help => false

/-- Whether an option asks to show something instead of checking. -/
def isEager : Switch → Bool
  | version | help => true
  | _ => false

/-- The option with a name. -/
def ofName? (name : String) : Option Switch := all.find? (·.names.contains name)

/-- The letter that stands for an option after a single hyphen. -/
def letter? : Switch → Option Char
  | version => some 'v'
  | _ => none

/-- The option with a letter. -/
def ofLetter? (c : Char) : Option Switch := all.find? (·.letter? == some c)

/-- What an option is for, in a few words. -/
def purpose : Switch → String
  | root => "Workspace root with tsconfig.json and package.json. Required."
  | source => "Directory to collect sources from. Defaults to the workspace root."
  | onlyTemplate => "Only validate templates."
  | onlyTyped => "Also check .ts/.tsx files and skip components with an untyped script."
  | excluded => "Skip files under this directory. Can be repeated."
  | serverCommand => "Command that starts the language server over stdio."
  | timeout => "Seconds to wait for each reply of the language server."
  | verbose => "Print extra status information to stderr."
  | version => "Show the version and exit."
  | help => "Show this message and exit."

end Switch

/-- Why arguments are refused. -/
inductive Refusal where
  /-- There is no option of this name, but there are similar ones. -/
  | unknownOption (name : String) (similar : List String)
  | missingValue (name : String)
  | unwantedValue (name : String)
  | badTimeout (value : String)
  | extraArguments (arguments : List String)
deriving DecidableEq, Repr

/-- A hint at options of a similar name. -/
def hint : List String → String
  | [] => ""
  | [name] => s!" Did you mean {Text.quoted name}?"
  | names =>
    let shown := (names.mergeSort fun a b => decide (a ≤ b)).map Text.quoted
    " (Did you mean one of: " ++ ", ".intercalate shown ++ "?)"

/-- The refusal in words. -/
def Refusal.message : Refusal → String
  | unknownOption name similar => s!"No such option {Text.quoted name}." ++ hint similar
  | missingValue name => s!"Option {Text.quoted name} requires an argument."
  | unwantedValue name => s!"Option {Text.quoted name} does not take a value."
  | badTimeout value =>
    s!"Invalid value for '--timeout': {Text.quoted value} is not a valid float."
  | extraArguments [a] => s!"Got unexpected extra argument ({a})"
  | extraArguments as => "Got unexpected extra arguments (" ++ " ".intercalate as ++ ")"

/-! ## Reading -/

/-- The arguments as they are given. -/
structure Arguments where
  /-- The options with their values, which are empty where none is taken. -/
  given : List (Switch × String)
  /-- What is no option. -/
  extra : List String
deriving DecidableEq, Repr

/-- No arguments. -/
def Arguments.none : Arguments := ⟨[], []⟩

/-- Arguments after an option. -/
def Arguments.after (s : Switch) (value : String) (a : Arguments) : Arguments :=
  { a with given := (s, value) :: a.given }

/-- Arguments after one that is no option. -/
def Arguments.afterExtra (arg : String) (a : Arguments) : Arguments :=
  { a with extra := arg :: a.extra }

/-- Whether an argument is an option or several of them. -/
def isOption (arg : String) : Bool :=
  match arg.toList with
  | '-' :: _ :: _ => true
  | _ => false

/-- Whether an argument can only be an option with a name. -/
def isNamed (arg : String) : Bool := ['-', '-'].isPrefixOf arg.toList

/-- The name of an option and the value that is attached to it. -/
def nameAndValue (arg : String) : String × Option String :=
  let cs := arg.toList
  match cs.dropWhile (· != '=') with
  | _ :: value => (String.ofList (cs.takeWhile (· != '=')), some (String.ofList value))
  | [] => (arg, .none)

/-- The options that letters after a hyphen stand for. -/
def ofLetters (cs : List Char) : Except Refusal (List Switch) :=
  cs.mapM fun c =>
    match Switch.ofLetter? c with
    | some s => .ok s
    | none => .error (.unknownOption (String.ofList ['-', c]) [])

/-- All names of options. -/
def allNames : List String := Switch.all.flatMap Switch.names

/-- Reads arguments. -/
def read : List String → Except Refusal Arguments
  | [] => .ok .none
  | "--" :: rest => .ok ⟨[], rest⟩
  | arg :: rest =>
    if !isOption arg then (·.afterExtra arg) <$> read rest
    else
      let (name, value?) := nameAndValue arg
      match Switch.ofName? name, value? with
      | none, _ =>
        if isNamed arg then .error (.unknownOption name (Text.closeNames name allNames))
        else do
          let switches ← ofLetters (arg.toList.drop 1)
          return switches.foldr (Arguments.after · "") (← read rest)
      | some s, some value =>
        if s.takesValue then (·.after s value) <$> read rest else .error (.unwantedValue name)
      | some s, none =>
        if !s.takesValue then (·.after s "") <$> read rest
        else
          match rest with
          | value :: rest => (·.after s value) <$> read rest
          | [] => .error (.missingValue name)

namespace Arguments

/-- All values of an option. -/
def values (a : Arguments) (s : Switch) : List String :=
  (a.given.filter (·.1 == s)).map (·.2)

/-- The value of an option that counts. -/
def value? (a : Arguments) (s : Switch) : Option String := (a.values s).getLast?

/-- Whether an option is given. -/
def has (a : Arguments) (s : Switch) : Bool := a.given.any (·.1 == s)

end Arguments

/-! ## Requests -/

/-- What the program is asked to do. -/
inductive Request where
  | showVersion
  | showHelp
  /-- A check without a workspace. -/
  | rootless
  /-- A check of a workspace with a timeout. -/
  | check (root : String) (timeout? : Option Float) (a : Arguments)

/-- The timeout that is given. -/
def timeoutOf (a : Arguments) : Except Refusal (Option Float) :=
  match a.value? .timeout with
  | none => .ok none
  | some value =>
    match Setting.numberOfText value with
    | .ok x => .ok (some x)
    | .error _ => .error (.badTimeout value)

/-- What a check is asked for. -/
def checkRequest (a : Arguments) : Except Refusal Request := do
  let timeout? ← timeoutOf a
  if !a.extra.isEmpty then throw (.extraArguments a.extra)
  match a.value? .root with
  | none | some "" => return .rootless
  | some root => return .check root timeout? a

/-- What the arguments ask for. -/
def request (a : Arguments) : Except Refusal Request :=
  match a.given.find? (·.1.isEager) with
  | some (.help, _) => .ok .showHelp
  | some _ => .ok .showVersion
  | none => checkRequest a

/-- The settings that the command line gives. -/
def overrides (a : Arguments) (timeout? : Option Float) : Json :=
  let text : Option String → Json
    | some s => .str s
    | none => .null
  let number : Option Float → Json
    | some x => .float x
    | none => .null
  .obj
    [(Settings.Field.serverCommand.key, text (a.value? .serverCommand)),
     (Settings.Field.responseTimeout.key, number timeout?)]

/-- The options of a run. Paths are seen from the working directory. -/
def options (tree : FileTree) (root : String) (timeout? : Option Float) (a : Arguments) :
    Except FileError Run.Options := do
  let place (text : String) : Except FileError Path := tree.resolveFrom none (.ofText text)
  let workspace ← place root
  let source? ←
    match a.value? .source with
    | none | some "" => pure none
    | some text => some <$> place text
  let excluded ← (a.values .excluded).mapM place
  return ⟨workspace, source?, a.has .onlyTemplate, a.has .onlyTyped, excluded,
    overrides a timeout?, a.has .verbose⟩

/-! ## Outcomes -/

/-- How the program ends, with a server in states of type `σ`. -/
inductive Outcome (σ : Type) where
  | refused (e : Refusal)
  /-- A directory has no place. -/
  | lost (e : FileError)
  | rootless
  | version
  | help
  | checked (r : Report σ)

/-- Does what the arguments ask for. -/
def perform {σ : Type} (srv : Server σ) (tree : FileTree) (environment : Table String)
    (processId room : Nat) (args : List String) : Outcome σ :=
  match read args >>= request with
  | .error e => .refused e
  | .ok .showVersion => .version
  | .ok .showHelp => .help
  | .ok .rootless => .rootless
  | .ok (.check root timeout? a) =>
    match options tree root timeout? a with
    | .error e => .lost e
    | .ok o => .checked (Run.check srv tree environment processId room o)

/-- The line that tells how to use an option. -/
def Switch.usage (s : Switch) : String :=
  let names := s.names ++ (s.letter?.map fun c => String.ofList ['-', c]).toList
  "  " ++ ", ".intercalate names ++ "  " ++ s.purpose

/-- The lines that tell how to use the program. -/
def usage : List String :=
  s!"Usage: {programName} [OPTIONS]" :: "" :: Switch.all.map Switch.usage

namespace Outcome

variable {σ : Type}

/-- The lines for the standard output. -/
def output : Outcome σ → List String
  | version => [s!"{programName} version {programVersion}"]
  | help => usage
  | checked r => r.lines
  | refused _ | lost _ | rootless => []

/-- The lines for the standard error. -/
def notes : Outcome σ → List String
  | rootless => ["Error: --root-dir is required"]
  | checked r => r.notes
  | refused _ | lost _ | version | help => []

/-- The error that ended the program, in words. -/
def error? : Outcome σ → Option String
  | refused e => some e.message
  | lost e => some e.message
  | checked r => r.failure?.map Run.Failure.message
  | rootless | version | help => none

/-- The exit code. -/
def exitCode : Outcome σ → Nat
  | refused _ => 2
  | lost _ | rootless => 1
  | version | help => 0
  | checked r => r.exitCode

end Outcome

end SfcCheck.CommandLine
