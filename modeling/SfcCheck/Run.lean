import SfcCheck.Session.Calls
import SfcCheck.Settings.Sources
import SfcCheck.Source
import SfcCheck.Text.Terminal
import SfcCheck.Validation

/-!
# Runs

A run checks the sources of a workspace with one session and reports what it found. It goes through
the settings, the workspace and the sources first and starts the server only if there is something
to check. The first failure ends a run, and whatever happens once the server was asked for, it is
stopped and the region cache is disposed of.

A run passes if nothing failed and nothing was found. It never fails in any other way than by its
report, but it has no exit code if its session waits for something that never comes.
-/

namespace SfcCheck

/-- What a run is to check, and how. -/
structure Run.Options where
  workspace : Path
  /-- The directory of the sources, if it is not the workspace. -/
  source? : Option Path
  /-- Whether scripts are left out. -/
  onlyTemplate : Bool
  /-- Whether untyped components are left out and typed script files are checked as well. -/
  onlyTyped : Bool
  /-- Where nothing is checked. -/
  excluded : List Path
  /-- The settings that are given for this run. -/
  overrides : Json
  /-- Whether the run tells what it does. -/
  verbose : Bool

/-- Why a run failed. -/
inductive Run.Failure where
  | settings (e : Settings.Failure)
  | workspace (e : Workspace.Failure)
  | source (e : Source.Failure)
  | session (e : Session.Failure)
  | regions (e : ModelCache.Failure UnknownBlock)
  | frame (e : Frame.Failure)

/-- The failure in words. -/
def Run.Failure.message : Run.Failure → String
  | settings e => e.message
  | workspace e => e.message
  | source e => e.message
  | session e => e.message
  | regions e => e.message UnknownBlock.message
  | frame e => e.message

/-- What is left of a run, with a server in states of type `σ`. -/
structure Report (σ : Type) where
  tally : Tally
  /-- What the run told about itself, line by line. -/
  notes : List String
  /-- The validation in its last state, if the server was asked for. -/
  validation? : Option (Validation (Session σ))
  failure? : Option Run.Failure

namespace Report

variable {σ : Type}

/-- The report of a run that has not begun. -/
def blank : Report σ := ⟨.zero, [], none, none⟩

/-- Whether nothing failed and nothing was found. -/
def passed (r : Report σ) : Bool := r.failure?.isNone && !r.tally.hasFindings

/-- The exit code of a run. -/
def exitCode (r : Report σ) : Nat := if r.passed then 0 else 1

/-- The lines that a run prints on a stream that is no terminal. -/
def lines (r : Report σ) : List String := r.tally.lines.map Text.plain

/-- The session of a run, if the server was asked for. -/
def session? (r : Report σ) : Option (Session σ) := r.validation?.map (·.reporter)

/-- Whether a run never ends, as its session waits for something that never comes. -/
def hangs (r : Report σ) : Bool := (r.session?.map (·.hangs)).getD false

/-- The exit code of a run that ends. -/
def exit? (r : Report σ) : Option Nat := if r.hangs then none else some r.exitCode

end Report

namespace Run

variable {σ α : Type}

/-- A stage of a run: a result or a failure, and the report so far in either case. -/
abbrev Stage (σ α : Type) := ExceptT Failure (StateM (Report σ)) α

/-- Tells something. -/
def note (line : String) : Stage σ Unit :=
  modify fun r => { r with notes := r.notes ++ [Text.plain line] }

/-- Tells something if it is wanted. -/
def noteIf (wanted : Bool) (line : String) : Stage σ Unit :=
  if wanted then note line else return

/-- Goes on with a result, unless there is none. -/
def liftExcept {ε : Type} (failure : ε → Failure) (r : Except ε α) : Stage σ α :=
  fun report => (r.mapError failure, report)

/-! ## Preparation -/

/-- The directory of the sources. -/
def Options.source (o : Options) : Path := o.source?.getD o.workspace

/-- The extensions of the files that are checked. -/
def Options.extensions (o : Options) : List String :=
  if o.onlyTyped then Source.typedExtensions else Source.extensions

/-- The documents that a run checks. -/
def documents (tree : FileTree) (o : Options) : Except Source.Failure (List Document) := do
  let paths ← (Source.select tree o.source o.extensions o.excluded).mapError .file
  let sources ← paths.mapM (Source.read tree)
  let kept := if o.onlyTyped then sources.filter Source.isKept else sources
  kept.mapM fun s => (s.document tree).mapError .file

/-- The settings of a run. -/
def settings (tree : FileTree) (environment : Table String) (o : Options) :
    Except Settings.Failure Settings :=
  Settings.load tree environment o.overrides (some o.workspace)

/-- The workspace of a run. -/
def workspace (tree : FileTree) (o : Options) (s : Settings) :
    Except Workspace.Failure Workspace :=
  Workspace.load tree o.workspace o.source (s.tsconfigPath o.workspace) (s.packagePath o.workspace)

/-- Warns of a typed run in a workspace that does not look typed. -/
def warnUntyped (o : Options) (w : Workspace) : Stage σ Unit := do
  if o.onlyTyped then
    if !(← liftExcept (.workspace ∘ .fault) w.hasTypescript) then
      note s!"Warning: No tsconfig.json or typescript dependency found in {o.workspace.text}"

/-! ## Validation with a server -/

/-- An error of a validation as a failure of the run. -/
def Failure.ofValidation : Validation.Failure Session.Failure → Failure
  | .regions e => regions e
  | .reporter e => session e
  | .frame e => frame e

/-- Does something with the session of a validation. -/
def withSession {ε : Type} (act : Talk σ ε α) (v : Validation (Session σ)) :
    Except ε α × Validation (Session σ) :=
  let (r, session) := act v.reporter
  (r, { v with reporter := session })

/-- Checks documents in a session that is entered first and stopped at last. If both the check and
the stop fail, the latter failure counts. -/
def converse (srv : Server σ) (room : Nat) (withScript : Bool) (ds : List Document)
    (v : Validation (Session σ)) : Except Failure Unit × Validation (Session σ) :=
  match withSession (Session.enter srv) v with
  | (.error e, v) => (.error (.session e), v)
  | (.ok _, v) =>
    let (checked, v) := Validation.checkAll room (Session.diagnostics srv) withScript ds v
    match withSession (Session.stop srv) v with
    | (.error e, v) => (.error (.session (.server e)), v)
    | (.ok _, v) => (checked.mapError .ofValidation, v)

/-- A validation with a session that is not started. -/
def validation (processId : Nat) (clock : Nat → Float) (s : Settings) (w : Workspace) :
    Validation (Session σ) :=
  .new (.new s.serverArgs w processId s.responseTimeout) s.cacheMaxEntries s.cacheTtl clock

/-- Checks documents with a server of their own. -/
def checkDocuments (srv : Server σ) (room : Nat) (withScript : Bool) (ds : List Document)
    (v : Validation (Session σ)) : Stage σ Unit := fun report =>
  let (r, v) := converse srv room withScript ds v
  (r, { report with
    tally := v.tally
    validation? := some { v with regions := v.regions.dispose } })

/-! ## Runs -/

/-- The stages of a run, up to the first failure. -/
def stages (srv : Server σ) (tree : FileTree) (environment : Table String) (processId room : Nat)
    (clock : Nat → Float) (o : Options) : Stage σ Unit := do
  let s ← liftExcept .settings (settings tree environment o)
  let w ← liftExcept .workspace (workspace tree o s)
  warnUntyped o w
  let ds ← liftExcept .source (documents tree o)
  noteIf o.verbose s!"Checking {ds.length} file(s) under {o.source.text}"
  if ds.isEmpty then return
  noteIf o.verbose s!"Starting language server: {s.serverCommand}"
  checkDocuments srv room (!o.onlyTemplate) ds (validation processId clock s w)

/-- The line that sums up a run. -/
def summary (t : Tally) : String :=
  s!"Checked {t.documents} file(s), found {t.diagnostics} problem(s)"

/-- Runs a check, with room for texts of the given length. -/
def check (srv : Server σ) (tree : FileTree) (environment : Table String) (processId room : Nat)
    (o : Options) (clock : Nat → Float := Validation.stopped) : Report σ :=
  let (r, report) := stages srv tree environment processId room clock o .blank
  let report :=
    match r with
    | .ok _ => report
    | .error e => { report with failure? := some e }
  (noteIf o.verbose (summary report.tally) report).2

end Run

end SfcCheck
