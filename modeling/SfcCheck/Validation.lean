import SfcCheck.Frame
import SfcCheck.ModelCache
import SfcCheck.Region

/-!
# Validation

What is found in a document: of the diagnostics that a reporter gives for it, those that start in a
template, then those that start in a script. Styles and the text between blocks are nobody's, and
for a document without blocks of a kind nobody is asked on behalf of that kind.

The reporter is any stateful function, so nothing here depends on there being a language server.
Both kinds share a cache of regions. The state of a validation survives its errors. What is printed
takes room, as `SfcCheck.Frame` says.
-/

namespace SfcCheck

/-- Why a document could not be validated; `ε` is what can go wrong with the reporter. -/
inductive Validation.Failure (ε : Type) where
  | regions (e : ModelCache.Failure UnknownBlock)
  | reporter (e : ε)
  | frame (e : Frame.Failure)

/-- What has been found so far. -/
structure Tally where
  /-- The number of documents that were checked to the end. -/
  documents : Nat
  diagnostics : Nat
  /-- Whether anything was found. -/
  hasFindings : Bool
  /-- What was printed, line by line. -/
  lines : List String
  hasFindings_iff : hasFindings = true ↔ 0 < diagnostics
deriving DecidableEq, Repr

namespace Tally

/-- Nothing was checked yet. -/
def zero : Tally := ⟨0, 0, false, [], by decide⟩

/-- Counts what was found in a document. -/
def withFound (found : List Diagnostic) (t : Tally) : Tally where
  documents := t.documents
  diagnostics := t.diagnostics + found.length
  hasFindings := !found.isEmpty || t.hasFindings
  lines := t.lines
  hasFindings_iff := by
    have h := t.hasFindings_iff
    cases found with
    | nil => simpa using h
    | cons x xs => exact iff_of_true rfl (Nat.add_pos_right _ (Nat.succ_pos _))

end Tally

/-- The state of a validation, with a reporter in a state of type `γ`. -/
structure Validation (γ : Type) where
  reporter : γ
  regions : ModelCache Float (List Region)
  /-- What the clock of the cache shows, reading by reading. -/
  clock : Nat → Float
  /-- How often the clock was read. -/
  readings : Nat
  tally : Tally

namespace Validation

variable {γ ε : Type}

/-- A clock that stands still. -/
def stopped : Nat → Float := fun _ => 0.0

/-- A validation that starts with an empty cache of the given size and interval. -/
def new (reporter : γ) (maxEntries : Int) (interval : Float) (clock : Nat → Float := stopped) :
    Validation γ :=
  { reporter
    regions := .empty maxEntries interval
    clock
    readings := 0
    tally := .zero }

/-- What gives diagnostics. -/
abbrev Reporter (γ ε : Type) := Document → ExceptT ε (StateM γ) (List Diagnostic)

/-- A step of a validation: a result or an error, and the next state in either case. -/
abbrev Step (γ ε α : Type) := ExceptT (Failure ε) (StateM (Validation γ)) α

/-- The regions of a document. -/
def regionsOf (d : Document) : Step γ ε (List Region) := fun v =>
  let (r, regions) := v.regions.get Region.ofDocument (v.clock v.readings) d
  (r.mapError .regions, { v with regions, readings := v.readings + 1 })

/-- The diagnostics that the reporter gives. -/
def ask (reporter : Reporter γ ε) (d : Document) : Step γ ε (List Diagnostic) := fun v =>
  let (r, next) := reporter d v.reporter
  (r.mapError .reporter, { v with reporter := next })

/-- Whether a diagnostic starts in a region of a kind. -/
def startsIn (kind : BlockKind) (d : Document) (regions : List Region) (x : Diagnostic) : Bool :=
  Region.kindAt? (d.offsetAt x.span.start) regions == some kind

/-- The diagnostics that start in blocks of a kind. Without such a block nobody is asked. -/
def ofKind (reporter : Reporter γ ε) (kind : BlockKind) (d : Document) :
    Step γ ε (List Diagnostic) := do
  let regions ← regionsOf d
  if (Region.ofKind kind regions).isEmpty then return []
  return (← ask reporter d).filter (startsIn kind d regions)

/-- The diagnostics of templates, which only components have. -/
def template (reporter : Reporter γ ε) (d : Document) : Step γ ε (List Diagnostic) :=
  if d.languageId = Region.componentLanguage then ofKind reporter .template d else return []

/-- The diagnostics of scripts. -/
def script (reporter : Reporter γ ε) (d : Document) : Step γ ε (List Diagnostic) :=
  ofKind reporter .script d

/-- What finds the diagnostics of templates and of scripts. There may be nothing that can do the
latter. -/
structure Validators (γ ε : Type) where
  template : Document → Step γ ε (List Diagnostic)
  script? : Option (Document → Step γ ε (List Diagnostic))

/-- The diagnostics of a document, given what finds them; scripts are left out unless they are
wanted and can be looked at. -/
def Validators.validate (vs : Validators γ ε) (withScript : Bool) (d : Document) :
    Step γ ε (List Diagnostic) := do
  let templates ← vs.template d
  let scripts ←
    match vs.script? with
    | some script => if withScript then script d else pure []
    | none => pure []
  return templates ++ scripts

/-- The diagnostics of a document; scripts are left out unless they are wanted. -/
def validate (reporter : Reporter γ ε) (withScript : Bool) (d : Document) :
    Step γ ε (List Diagnostic) := do
  let templates ← template reporter d
  let scripts ← if withScript then script reporter d else pure []
  return templates ++ scripts

/-- Changes the tally. -/
def count (f : Tally → Tally) : Step γ ε Unit := modify fun v => { v with tally := f v.tally }

/-- Prints a diagnostic, if there is room for its rows. -/
def print (room : Nat) (d : Document) (x : Diagnostic) : Step γ ε Unit := do
  let rows ← fun v => ((Frame.printed room d x).mapError .frame, v)
  count fun t => { t with lines := t.lines ++ rows }

/-- Validates a document and prints what is found. -/
def checkBy (room : Nat) (validate : Document → Step γ ε (List Diagnostic)) (d : Document) :
    Step γ ε Unit := do
  let found ← validate d
  count (·.withFound found)
  found.forM (print room d)
  count fun t => { t with documents := t.documents + 1 }

/-- Validates documents one after the other, up to the first error. -/
def checkAllBy (room : Nat) (validate : Document → Step γ ε (List Diagnostic))
    (ds : List Document) : Step γ ε Unit :=
  ds.forM (checkBy room validate)

/-- Checks a document with a reporter. -/
def check (room : Nat) (reporter : Reporter γ ε) (withScript : Bool) : Document → Step γ ε Unit :=
  checkBy room (validate reporter withScript)

/-- Checks documents with a reporter. -/
def checkAll (room : Nat) (reporter : Reporter γ ε) (withScript : Bool) :
    List Document → Step γ ε Unit :=
  checkAllBy room (validate reporter withScript)

end Validation

end SfcCheck
