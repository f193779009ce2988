import SfcCheck.Diagnostic
import SfcCheck.Server.Basic
import SfcCheck.Session.Waits
import SfcCheck.Wire
import SfcCheck.Workspace

/-!
# Sessions with a language server

The state of a session and its two ways to the server: `send` hands over a message, `receiveAll`
reads and dispatches everything that the server wrote, answering its requests on the way.

A session waits for responses by the numbers of its requests and for diagnostics by the addresses of
documents. Once reading has failed or come to an end, the session keeps the error: what is waited
for ends with it, and nothing is sent any more.

A call may wait for something that never comes. Nothing follows in that case: the session `hangs`,
and whatever is said of it from then on is what would be if the wait were over.
-/

namespace SfcCheck

/-- A session. -/
structure Session (σ : Type) where
  /-- The program and its arguments. -/
  command : List String
  workspace : Workspace
  /-- The number of the process that the session belongs to. -/
  processId : Nat
  /-- The seconds to wait for a reply. -/
  timeout : Float
  /-- What the server said it can do. -/
  capabilities : Json
  process? : Option (Process σ)
  /-- The requests whose responses are waited for. -/
  pending : Waits Int Json
  /-- The documents whose diagnostics are waited for. -/
  published : Waits String (List Json)
  /-- The address and the version of the latest document with its diagnostics. -/
  memo? : Option ((String × Int) × List Diagnostic)
  /-- Why reading ended. -/
  failure? : Option ServerError
  lastId : Nat
  /-- The messages that reached the server. -/
  sent : List Json
  /-- The commands that were started, with their directories. -/
  spawned : List (List String × String)
  /-- Whether a process had to be killed. -/
  killed : Bool
  /-- Whether a call has begun to wait for something that never comes. -/
  hangs : Bool

/-- What a session does: a result or an error, and the next state in either case. -/
abbrev Talk (σ ε α : Type) := ExceptT ε (StateM (Session σ)) α

namespace Session

variable {σ : Type}

/-- A session that is not started. -/
def new (command : List String) (workspace : Workspace) (processId : Nat) (timeout : Float) :
    Session σ :=
  { command, workspace, processId, timeout
    capabilities := .obj []
    process? := none
    pending := []
    published := []
    memo? := none
    failure? := none
    lastId := 0
    sent := []
    spawned := []
    killed := false
    hangs := false }

/-- A session without a program to start. -/
structure EmptyCommand where
deriving DecidableEq, Repr

def EmptyCommand.message (_ : EmptyCommand) : String := "command must not be empty"

/-- A session that is not started, if there is a program to start. -/
def create (command : List String) (workspace : Workspace) (processId : Nat) (timeout : Float) :
    Except EmptyCommand (Session σ) :=
  if command.isEmpty then .error ⟨⟩ else .ok (new command workspace processId timeout)

/-- Whether the server runs. -/
def isRunning (s : Session σ) : Bool :=
  match s.process? with
  | some p => p.isAlive
  | none => false

/-- Waits without end under a condition. -/
def hangIf (b : Bool) (s : Session σ) : Session σ := { s with hangs := s.hangs || b }

@[simp] theorem hangIf_false (s : Session σ) : s.hangIf false = s := by
  rw [hangIf, Bool.or_false]

/-! ## Waits -/

/-- A place where a session keeps waits. Nothing else of a session has to do with them. -/
structure WaitList (σ κ α : Type) where
  get : Session σ → Waits κ α
  set : Waits κ α → Session σ → Session σ
  get_set : ∀ w s, get (set w s) = w
  get_congr : ∀ {s t}, s.pending = t.pending → s.published = t.published → get s = get t
  set_rest : ∀ w s,
    set w s = { s with pending := (set w s).pending, published := (set w s).published }

namespace WaitList

variable {κ α : Type}

/-- Changes the waits in a place. -/
def update (l : WaitList σ κ α) (f : Waits κ α → Waits κ α) (s : Session σ) : Session σ :=
  l.set (f (l.get s)) s

/-- Settles a wait in a place; see `Waits.take`. -/
def take [DecidableEq κ] {ε : Type} (l : WaitList σ κ α) (key : Except ε (Option κ))
    (result : Except ε (Except ServerError α)) (s : Session σ) : Except ε (Session σ) :=
  ((l.get s).take key result).map fun w => l.set w s

@[simp] theorem get_update (l : WaitList σ κ α) (f : Waits κ α → Waits κ α) (s : Session σ) :
    l.get (l.update f s) = f (l.get s) := l.get_set _ _

theorem update_rest (l : WaitList σ κ α) (f : Waits κ α → Waits κ α) (s : Session σ) :
    l.update f s =
      { s with pending := (l.update f s).pending, published := (l.update f s).published } :=
  l.set_rest _ _

end WaitList

/-- The responses that are waited for. -/
def responses : WaitList σ Int Json where
  get s := s.pending
  set w s := { s with pending := w }
  get_set _ _ := rfl
  get_congr h _ := h
  set_rest _ _ := rfl

/-- The diagnostics that are waited for. -/
def publications : WaitList σ String (List Json) where
  get s := s.published
  set w s := { s with published := w }
  get_set _ _ := rfl
  get_congr _ h := h
  set_rest _ _ := rfl

/-! ## Sending -/

/-- Hands a message to the server. One that has finished takes no notice. -/
def send (srv : Server σ) (m : Json) : Talk σ ServerError Unit := fun s =>
  match s.failure?, s.process? with
  | some e, _ => (.error e, s)
  | none, none => (.error .notRunning, s)
  | none, some p =>
    let s :=
      if p.isReachable then
        { s with process? := some (p.accept srv m), sent := s.sent ++ [m] }
      else s
    if (s.process?.map (·.broken)).getD false then (.error .pipeClosed, s) else (.ok (), s)

/-- A notification. -/
def notification (method : String) (params : Json) : Json :=
  .obj [("jsonrpc", .str "2.0"), ("method", .str method), ("params", params)]

/-- A request. -/
def requestMessage (id : Int) (method : String) (params : Json) : Json :=
  .obj [("jsonrpc", .str "2.0"), ("id", .int id), ("method", .str method), ("params", params)]

/-- An answer to a request of the server. -/
def response (id : Json) (key : String) (value : Json) : Json :=
  .obj [("jsonrpc", .str "2.0"), ("id", id), (key, value)]

/-- Whether the server never takes what was sent to it. -/
def isStuck (srv : Server σ) (s : Session σ) : Bool :=
  match s.process? with
  | some p => p.isReachable && srv.stalls p.server
  | none => false

/-- Waits, without a time limit, until there is room again on the way to the server. -/
def drain (srv : Server σ) (s : Session σ) : Session σ := s.hangIf (s.isStuck srv)

/-- Sends a message and waits until there is room for the next one. -/
def submit (srv : Server σ) (m : Json) : Talk σ ServerError Unit := do
  send srv m
  modify (drain srv)

/-- Sends a notification. -/
def notify (srv : Server σ) (method : String) (params : Json) : Talk σ ServerError Unit :=
  submit srv (notification method params)

/-! ## Dispatching -/

/-- Ends reading: the error is kept, and what is waited for ends with it. -/
def fail (e : ServerError) (s : Session σ) : Session σ :=
  { s with
    failure? := some e
    process? := s.process?.map fun p => { p with listening := false }
    pending := s.pending.failAll e
    published := s.published.failAll e }

/-- The items of a value that is gone through item by item. -/
def itemsOf : Json → Except Fault (List Json)
  | .arr items => .ok items
  | .obj fields => .ok (fields.map fun f => .str f.1)
  | .str s => .ok (s.toList.map fun c => .str (String.ofList [c]))
  | v => .error (.notIterable v.kind)

/-- Checks that a value can be looked up. -/
def lookUp : Json → Except Fault Json
  | .arr _ => .error (.unhashable .list)
  | .obj _ => .error (.unhashable .table)
  | v => .ok v

/-- The configurations that a request of the server asks for. -/
def configurations (config params : Json) : Except Fault (List Json) := do
  let items ← itemsOf ((← (params.orElse (.obj [])).get? "items").getD (.arr []))
  items.mapM fun item => do Workspace.section? config (← item.get "section")

/-- Whether a method is the one that asks for configurations. -/
def isConfiguration : Json → Bool
  | .str method => method == "workspace/configuration"
  | _ => false

/-- The requests that are acknowledged and no more. -/
def acknowledged : List String :=
  ["client/registerCapability", "client/unregisterCapability", "window/workDoneProgress/create",
   "window/showMessageRequest"]

/-- Whether a method is one of those that are acknowledged. -/
def isAcknowledged : Json → Bool
  | .str method => acknowledged.contains method
  | _ => false

/-- The code of an answer to a request that is not understood. -/
def methodNotFound : Int := -32601

/-- The answer to a request of the server: its key and its value. -/
def answer (config method params : Json) : Except Fault (String × Json) := do
  if isConfiguration method then return ("result", .arr (← configurations config params))
  else
    let method ← lookUp method
    if isAcknowledged method then return ("result", .null)
    else
      return ("error", .obj
        [("code", .int methodNotFound), ("message", .str s!"Unhandled method {method.display}")])

/-- The result that a response gives, or the error. -/
def outcome (fields : Table Json) : Except Fault (Except ServerError Json) :=
  match fields.get? "error" with
  | none => .ok (.ok ((fields.get? "result").getD .null))
  | some e => do
    let e := e.orElse (.obj [])
    let message := (← e.get? "message").getD (.str "unknown error")
    let code ← e.get "code"
    return .error (.rejected message.display code)

/-- The number of the request that a response is for, if it can be one. -/
def requestNumber (fields : Table Json) : Except Fault (Option Int) := do
  return (← lookUp ((fields.get? "id").getD .null)).asInt?

/-- Takes a response: the first one to a request that is waited for counts. -/
def takeResponse (fields : Table Json) (s : Session σ) : Except Fault (Session σ) :=
  responses.take (requestNumber fields) (outcome fields) s

/-- The notification that publishes diagnostics. -/
def publishMethod : String := "textDocument/publishDiagnostics"

/-- Whether a method is the one that publishes diagnostics. -/
def isPublish : Json → Bool
  | .str method => method == publishMethod
  | _ => false

/-- The document whose diagnostics are published, if it can be one. -/
def publishedUri (params : Json) : Except Fault (Option String) := do
  match ← lookUp ((← (params.orElse (.obj [])).get? "uri").getD (.str "")) with
  | .str uri => return some uri
  | _ => return none

/-- The diagnostics that are published. -/
def publishedItems (params : Json) : Except Fault (List Json) := do
  itemsOf ((← (params.orElse (.obj [])).get "diagnostics").orElse (.arr []))

/-- Takes a notification: the first diagnostics of a document that is waited for count. -/
def takeNotification (method params : Json) (s : Session σ) : Except Fault (Session σ) :=
  if isPublish method then
    publications.take (publishedUri params) (.ok <$> publishedItems params) s
  else .ok s

/-- Answers a request of the server. Reading goes on by itself, so no call waits until the answer is
taken. -/
def takeRequest (srv : Server σ) (id method params : Json) (s : Session σ) :
    Except ReadFailure Unit × Session σ :=
  match answer s.workspace.config method params with
  | .error e => (.error (.fault e), s)
  | .ok (key, value) =>
    match send srv (response id key value) s with
    | (.ok _, s) => (.ok (), s)
    | (.error e, s) => (.error (.server e), s)

/-- What a message is. -/
inductive Purpose where
  | response
  | request (id method : Json)
  | notification (method : Json)

/-- What a message is: one without a method is a response, and one with a method and an id asks for
a response. -/
def purpose (fields : Table Json) : Purpose :=
  match (fields.get? "method").getD .null, fields.get? "id" with
  | .null, _ => .response
  | method, some id => .request id method
  | method, none => .notification method

/-- The parameters of a message, or null. -/
def paramsOf (fields : Table Json) : Json := (fields.get? "params").getD .null

/-- The outcome of a message that changes a session or is at fault. -/
def settled (s : Session σ) : Except Fault (Session σ) → Except ReadFailure Unit × Session σ
  | .ok s' => (.ok (), s')
  | .error e => (.error (.fault e), s)

/-- Does what a message asks for. -/
def dispatch (srv : Server σ) (fields : Table Json) (s : Session σ) :
    Except ReadFailure Unit × Session σ :=
  match purpose fields with
  | .response => settled s (takeResponse fields s)
  | .request id method => takeRequest srv id method (paramsOf fields) s
  | .notification method => settled s (takeNotification method (paramsOf fields) s)

/-! ## Receiving -/

/-- What a session finds when it turns to the output of its server. -/
inductive Incoming (σ : Type) where
  /-- Nobody reads, or more has to arrive. -/
  | nothing
  /-- A message, and the session that has read it. -/
  | message (fields : Table Json) (s : Session σ)
  /-- Nothing more can be read. -/
  | ended (e : ServerError)

/-- Reads the next message that the server wrote. -/
def incoming (s : Session σ) : Incoming σ :=
  match s.process? with
  | none => .nothing
  | some p =>
    if !p.listening then .nothing
    else
      match Wire.read p.isOver p.unread with
      | .more => .nothing
      | .ended => .ended .exited
      | .failed e => .ended e.toServerError
      | .message fields rest =>
        .message fields { s with process? := some { p with unread := rest } }

/-- Reads and dispatches at most `n` messages. -/
def receive (srv : Server σ) : Nat → Session σ → Session σ
  | 0, s => s
  | n + 1, s =>
    match s.incoming with
    | .nothing => s
    | .ended e => s.fail e
    | .message fields s =>
      match dispatch srv fields s with
      | (.ok _, s) => receive srv n s
      | (.error e, s) => s.fail e.toServerError

/-- How many messages arrive before a wait is given up. -/
def patience (srv : Server σ) (s : Session σ) : Nat :=
  (s.process?.map fun p => srv.burst p.server).getD 0

/-- Reads and dispatches what the server wrote in time. -/
def receiveAll (srv : Server σ) (s : Session σ) : Session σ := receive srv (s.patience srv) s

end Session

end SfcCheck
