import SfcCheck.Release
import SfcCheck.Session.Basic

/-!
# What a session does for its user

Starting and stopping the server, requests, and the diagnostics of a document. Whatever happens, a
request that has ended leaves nothing that is waited for, and `stop` leaves no process.

A wait first reads what the server wrote in time. If what is waited for has not come then, it times
out; it may still be read later. Without any time to wait, the wait is given up before anything is
read, and with unlimited time it is never given up. The waits that have no time limit are those for
room on the way to the server and the one for a process that was killed.
-/

namespace SfcCheck

/-- Why a session cannot do something. -/
inductive Session.Failure where
  | server (e : ServerError)
  /-- The server sent diagnostics of the wrong shape. -/
  | fault (e : Fault)
  /-- The workspace has no address. -/
  | relativeRoot (e : RelativePath)

def Session.Failure.message : Session.Failure → String
  | server e => e.message
  | fault e => e.message
  | relativeRoot e => e.message

namespace Session

variable {σ : Type}

/-! ## Waiting -/

/-- Waits for something in a place. -/
def await {κ α : Type} [DecidableEq κ] (srv : Server σ) (l : WaitList σ κ α) (key : κ)
    (awaited : Awaited) : Talk σ ServerError α := fun s =>
  let late : Except ServerError α := .error (.timedOut s.timeout awaited)
  let s := receiveAll srv (if s.timeout ≤ 0.0 then l.update (·.settle key late) s else s)
  match (l.get s).slot? key with
  | some (some r) => (r, s)
  | _ => (late, s.hangIf s.timeout.isInf)

/-- Sends a message and waits for what it asks for. Whatever comes of it, nobody waits for that
afterwards. -/
def exchange {κ α : Type} [DecidableEq κ] (srv : Server σ) (l : WaitList σ κ α) (key : κ)
    (m : Json) (awaited : Awaited) : Talk σ ServerError α := fun s =>
  let talk : Talk σ ServerError α := do
    submit srv m
    await srv l key awaited
  let (r, s) := talk (l.update (·.register key) s)
  (r, l.update (·.forget key) s)

/-- The number of the next request. -/
def nextId (s : Session σ) : Int := s.lastId + 1

/-- Sends a request under a new number and waits for its result. -/
def request (srv : Server σ) (method : String) (params : Json) : Talk σ ServerError Json := fun s =>
  exchange srv responses s.nextId (requestMessage s.nextId method params) (.response method)
    { s with lastId := s.lastId + 1 }

/-! ## Starting -/

/-- The name and the version that the session gives the server. -/
def clientInfo : Json := .obj [("name", .str programName), ("version", .str programVersion)]

/-- What the session tells the server it can do. -/
def clientCapabilities : Json :=
  .obj
    [("workspace", .obj [("configuration", .bool true), ("workspaceFolders", .bool true)]),
     ("textDocument", .obj
       [("synchronization", .obj [("didSave", .bool false), ("dynamicRegistration", .bool false)]),
        ("publishDiagnostics", .obj [("relatedInformation", .bool false)])])]

/-- What the handshake tells the server. -/
def initializeParams (processId : Nat) (w : Workspace) (uri : String) : Json :=
  .obj
    [("processId", .int processId),
     ("clientInfo", clientInfo),
     ("rootPath", .str w.root.text),
     ("rootUri", .str uri),
     ("workspaceFolders", .arr [.obj [("uri", .str uri), ("name", .str w.root.name)]]),
     ("capabilities", clientCapabilities),
     ("initializationOptions", .obj [("config", w.config)])]

/-- The error of a program that cannot be started. -/
def startError (srv : Server σ) (program : String) : ServerError :=
  let (cause, path) := srv.refusal program
  .couldNotStart program (.failed cause path)

/-- Starts the program. -/
def spawn (srv : Server σ) : Talk σ ServerError Unit := fun s =>
  if s.process?.isSome then (.error .alreadyStarted, s)
  else
    let s := { s with spawned := s.spawned ++ [(s.command, s.workspace.root.text)] }
    if srv.available then (.ok (), { s with process? := some (.new srv) })
    else (.error (startError srv (s.command.headD "")), s)

/-- Keeps what the server says it can do. -/
def keepCapabilities (result : Json) (s : Session σ) : Session σ :=
  match result with
  | .obj fields =>
    { s with capabilities := ((Table.get? "capabilities" fields).getD .null).orElse (.obj []) }
  | _ => s

/-- An action whose errors are errors of the server. -/
def ofServer {α : Type} (act : Talk σ ServerError α) : Talk σ Failure α := fun s =>
  let (r, s) := act s
  (r.mapError .server, s)

/-- The address of the workspace. -/
def rootUri : Talk σ Failure String := fun s => (s.workspace.rootUri.mapError .relativeRoot, s)

/-- Shakes hands with a server that has been started. -/
def handshake (srv : Server σ) : Talk σ Failure Unit := do
  let uri ← rootUri
  let s ← get
  let result ←
    ofServer (request srv "initialize" (initializeParams s.processId s.workspace uri))
  modify (keepCapabilities result)
  ofServer (notify srv "initialized" (.obj []))

/-- Starts the server and shakes hands. -/
def start (srv : Server σ) : Talk σ Failure Unit := do
  ofServer (spawn srv)
  handshake srv

/-! ## Stopping -/

/-- Asks the server to shut down and then to exit. It may be gone before the second message. -/
def shutDown (srv : Server σ) : Talk σ ServerError Unit := do
  discard (request srv "shutdown" .null)
  tryCatch (notify srv "exit" .null) fun _ => return

/-- Closes the input of the process and reads what it still writes in time. -/
def closeInput (srv : Server σ) (s : Session σ) : Session σ :=
  receiveAll srv { s with process? := s.process?.map (·.closeInput srv) }

/-- Kills the process if it has not finished, and waits for its end. -/
def kill (srv : Server σ) (s : Session σ) : Session σ :=
  { s with
    process? := s.process?.map Process.kill
    killed := s.killed || s.isRunning
    hangs := s.hangs || s.isRunning && srv.outlivesKill }

/-- Forgets the process and what it said of the latest document. Reading ends here at the latest. -/
def dismiss (s : Session σ) : Session σ :=
  let s := if (s.process?.map (·.listening)).getD false then s.fail .exited else s
  { s with process? := none, memo? := none }

/-- Closes the input of the process, kills it if it does not finish, and forgets it. -/
def reap (srv : Server σ) (s : Session σ) : Session σ := ((closeInput srv s).kill srv).dismiss

/-- Stops the server. Stopping twice does nothing more. -/
def stop (srv : Server σ) : Talk σ ServerError Unit := fun s =>
  if s.process?.isNone then (.ok (), s)
  else
    let (r, s) := if s.isRunning && s.failure?.isNone then shutDown srv s else (.ok (), s)
    (r, reap srv s)

/-- Starts the server for a limited use: if that fails, it is stopped again. An error of stopping
takes the place of the first one. -/
def enter (srv : Server σ) : Talk σ Failure Unit :=
  tryCatch (start srv) fun e => do
    ofServer (stop srv)
    throw e

/-! ## Documents -/

/-- The name that servers have for the language of a file. -/
def wireLanguage (languageId : String) : String :=
  if languageId = "ts" then "typescript"
  else if languageId = "tsx" then "typescriptreact"
  else if languageId = "js" then "javascript"
  else languageId

/-- What the server is told when a document is opened. -/
def openParams (d : Document) : Json :=
  .obj
    [("textDocument", .obj
      [("uri", .str d.uri),
       ("languageId", .str (wireLanguage d.languageId)),
       ("version", .int d.version),
       ("text", .str d.text)])]

/-- What the server is told when a document is closed. -/
def closeParams (d : Document) : Json := .obj [("textDocument", .obj [("uri", .str d.uri)])]

/-- Opens a document and waits for its diagnostics. -/
def openAndAwait (srv : Server σ) (d : Document) : Talk σ ServerError (List Json) :=
  exchange srv publications d.uri (notification "textDocument/didOpen" (openParams d))
    (.diagnostics d.uri)

/-- The diagnostics of the latest document, if it is the given one. -/
def memoOf? (d : Document) (s : Session σ) : Option (List Diagnostic) :=
  match s.memo? with
  | some (key, xs) => if key = (d.uri, d.version) then some xs else none
  | none => none

/-- The diagnostics that the server publishes for a document. Those of the latest document are
kept, so asking again is free. -/
def diagnostics (srv : Server σ) (d : Document) : Talk σ Failure (List Diagnostic) := do
  match memoOf? d (← get) with
  | some xs => return xs
  | none =>
    let items ← ofServer (openAndAwait srv d)
    ofServer (notify srv "textDocument/didClose" (closeParams d))
    let xs ← fun s => ((items.mapM Diagnostic.ofJson).mapError .fault, s)
    modify fun s => { s with memo? := some ((d.uri, d.version), xs) }
    return xs

end Session

end SfcCheck
