import SfcCheck.Document
import SfcCheck.Setting

/-!
# Diagnostics

A problem that a language server reports for a document, and how it is read from the wire.
-/

namespace SfcCheck

/-- How serious a problem is. Every reported problem fails a run, whatever its severity. -/
inductive Severity where
  | error
  | warning
  | information
  | hint
deriving DecidableEq, Repr

/-- The severity with a number of the wire protocol. -/
def Severity.ofInt? : Int → Option Severity
  | 1 => some .error
  | 2 => some .warning
  | 3 => some .information
  | 4 => some .hint
  | _ => none

/-- A problem. `source` and `code` are whatever the server says they are. -/
structure Diagnostic where
  span : Span
  message : String
  severity : Severity := .error
  source : Json := .null
  code : Json := .null

/-- A position of the wire protocol. -/
def Position.ofJson (v : Json) : Except Fault Position := do
  let line ← (← v.field "line").toSetting.toInteger
  let character ← (← v.field "character").toSetting.toInteger
  return ⟨line, character⟩

/-- A range of the wire protocol. -/
def Span.ofJson (v : Json) : Except Fault Span := do
  let start ← Position.ofJson (← v.field "start")
  let stop ← Position.ofJson (← v.field "end")
  return ⟨start, stop⟩

/-- A severity of the wire protocol. A missing or zero one counts as an error. -/
def Severity.ofJson (v : Json) : Except Fault Severity :=
  if !v.isTruthy then .ok .error
  else
    match v.asInt?.bind Severity.ofInt? with
    | some s => .ok s
    | none => .error (.badSeverity v)

/-- A diagnostic of the wire protocol. -/
def Diagnostic.ofJson (v : Json) : Except Fault Diagnostic := do
  let severity ← v.get "severity"
  let span ← Span.ofJson (← v.field "range")
  let message ← v.field "message"
  let severity ← Severity.ofJson severity
  let source ← v.get "source"
  let code ← v.get "code"
  return ⟨span, message.display, severity, source, code⟩

end SfcCheck
