import SfcCheck.FileTree
import SfcCheck.Json.Basic

/-!
# Language servers

What a session sees of a language server: it takes messages one at a time and reacts to each at
once. Nothing is said about what it does with them, so a statement about sessions holds of servers
that answer late, twice, with errors, or not at all.

Time is measured in messages: a server decides how many of its messages arrive before a wait is
given up, and what it wrote beyond them is late. What has no time limit may also never come to pass.
A server may cease to take messages for good, so that whoever sends one waits for it without end,
and its process may survive being killed.
-/

namespace SfcCheck

/-- What a server does when a message reaches it. -/
inductive Reaction where
  /-- Writes to its output. -/
  | emit (bytes : List UInt8)
  /-- Breaks the pipe from the session. -/
  | breakPipe
  /-- Ends its output and goes on. -/
  | hangUp
  | exit (code : Int)
deriving DecidableEq, Repr

/-- How a language server behaves, on states of type `σ`. -/
structure Server (σ : Type) where
  /-- Whether the program can be started. -/
  available : Bool
  /-- Why a program of this name cannot be started, and the path that the error is about. -/
  refusal : String → FileError.Cause × String := fun program => (.notFound, program)
  initial : σ
  react : σ → Json → σ × List Reaction
  /-- Whether it goes on when its input is closed. -/
  outlivesInput : Bool
  /-- How many of its messages arrive before a wait is given up. A session whose answer is not taken
  reads no further, which is a small burst as well. -/
  burst : σ → Nat
  /-- Whether it takes no more of what was sent, although there is no room left for that on the way,
  and never will again. -/
  stalls : σ → Bool := fun _ => false
  /-- Whether its process goes on when it is killed. -/
  outlivesKill : Bool := false

/-- A running or finished server process. -/
structure Process (σ : Type) where
  server : σ
  /-- What it wrote and nobody has read yet. -/
  unread : List UInt8
  exitCode? : Option Int
  /-- Whether the pipe to it is broken. -/
  broken : Bool
  /-- Whether it writes no more, although it may go on. -/
  hungUp : Bool
  /-- Whether its output is still being read. -/
  listening : Bool

namespace Process

variable {σ : Type}

/-- A new process. -/
def new (srv : Server σ) : Process σ :=
  { server := srv.initial
    unread := []
    exitCode? := none
    broken := false
    hungUp := false
    listening := true }

/-- Whether a process has not finished. -/
def isAlive (p : Process σ) : Bool := p.exitCode?.isNone

/-- Whether nothing follows what a process wrote so far. -/
def isOver (p : Process σ) : Bool := p.hungUp || !p.isAlive

/-- What one reaction does. -/
def apply (p : Process σ) : Reaction → Process σ
  | .emit bytes => if p.hungUp then p else { p with unread := p.unread ++ bytes }
  | .breakPipe => { p with broken := true }
  | .hangUp => { p with hungUp := true }
  | .exit code => { p with exitCode? := some code }

/-- What reactions do; none comes after the end. -/
def applyAll (p : Process σ) : List Reaction → Process σ
  | [] => p
  | r :: rs => if p.isAlive then (p.apply r).applyAll rs else p

/-- Whether a message still reaches a process. -/
def isReachable (p : Process σ) : Bool := p.isAlive && !p.broken

/-- Hands a message to a process. -/
def accept (srv : Server σ) (p : Process σ) (m : Json) : Process σ :=
  let (state, reactions) := srv.react p.server m
  ({ p with server := state } : Process σ).applyAll reactions

/-- Closes the input of a process. -/
def closeInput (srv : Server σ) (p : Process σ) : Process σ :=
  if p.isAlive && !srv.outlivesInput then { p with exitCode? := some 0 } else p

/-- Kills a process that has not finished. -/
def kill (p : Process σ) : Process σ := if p.isAlive then { p with exitCode? := some (-9) } else p

end Process

end SfcCheck
