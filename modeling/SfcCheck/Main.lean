import SfcCheck.CommandLine
import SfcCheck.Recording

/-!
# The program

Reads a recorded project from the standard input, checks it as the arguments say, and prints the
outcome.
-/

namespace SfcCheck.Main

/-- Everything that a stream holds. -/
partial def readAll (input : IO.FS.Stream) : IO String := do
  let line ← input.getLine
  if line.isEmpty then return ""
  return line ++ (← readAll input)

/-- The environment variables that hold settings. -/
def environment : IO (Table String) :=
  Settings.Field.all.filterMapM fun f => do
    let name := Settings.variableStart ++ f.key.toUpper
    return (← IO.getEnv name).map (name, ·)

/-- Prints an outcome. -/
def report {σ : Type} (o : CommandLine.Outcome σ) : IO Unit := do
  o.output.forM IO.println
  o.notes.forM IO.eprintln
  if let some message := o.error? then IO.eprintln s!"Error: {message}"

/-- The length of the texts that this machine is taken to have room for. -/
def room : Nat := 0x100000000

/-- Runs the program. -/
def run (args : List String) : IO UInt32 := do
  let text ← readAll (← IO.getStdin)
  match Json.parseText text.toList with
  | .error e =>
    IO.eprintln s!"Error: {e.message}"
    return 2
  | .ok v =>
    let r := Recording.ofJson v
    let o := CommandLine.perform r.server r.tree (← environment) 0 room args
    report o
    return o.exitCode.toUInt32

end SfcCheck.Main

/-- The entry point. -/
def main (args : List String) : IO UInt32 := SfcCheck.Main.run args
