import SfcCheck.Server.Basic
import SfcCheck.Wire

/-!
# Servers that follow a script

A script gives the reactions to messages by rules: a rule is for one method, perhaps for one
document, and perhaps for a number of times. Without a rule the server answers the handshake and the
shutdown, exits when it is asked to, and does nothing else.
-/

namespace SfcCheck.Server

/-- One thing that a script does. Answers go to the message that the rule was taken for. -/
inductive Action where
  | reply (result : Json)
  | replyError (error : Json)
  /-- Publishes the diagnostics of the document that the message names. -/
  | publish (items : List Json)
  | send (message : Json)
  | raw (bytes : List UInt8)
  | breakPipe
  | exit (code : Int)

/-- What a script does for a method. Answers of the session have the method `responseMethod`. -/
structure Rule where
  method : String
  uri? : Option String
  /-- How often the rule is still taken, if this is limited. -/
  times? : Option Int
  actions : List Action

/-- The method of rules for messages that have none. -/
def responseMethod : String := "response"

/-- A text under a key of an object. -/
def textAt? (v : Json) (key : String) : Option String :=
  match v with
  | .obj fields =>
    match Table.get? key fields with
    | some (.str s) => some s
    | _ => none
  | _ => none

/-- A value under a key of an object, or null. -/
def valueAt (v : Json) (key : String) : Json :=
  match v with
  | .obj fields => (Table.get? key fields).getD .null
  | _ => .null

/-- The method of a message. -/
def methodOf (m : Json) : String := (textAt? m "method").getD responseMethod

/-- The document that a message names. -/
def uriOf? (m : Json) : Option String := textAt? (valueAt (valueAt m "params") "textDocument") "uri"

/-- Whether a rule is taken for a message. -/
def Rule.applies (r : Rule) (m : Json) : Bool :=
  r.method == methodOf m
    && (match r.uri? with | none => true | some uri => uriOf? m == some uri)
    && (match r.times? with | none => true | some n => 0 < n)

/-- Uses up one time of a rule. -/
def Rule.use (r : Rule) : Rule := { r with times? := r.times?.map (· - 1) }

/-- The actions for a message, with what is left of the rules; nothing if no rule applies. -/
def takeRule (m : Json) : List Rule → Option (List Action) × List Rule
  | [] => (none, [])
  | r :: rs =>
    if r.applies m then (some r.actions, r.use :: rs)
    else
      let (actions, rest) := takeRule m rs
      (actions, r :: rest)

/-- A message of the server with its header. -/
def emitted (m : Json) : Reaction := .emit (Wire.frame .spaced m)

/-- An answer to a message. -/
def answer (m : Json) (key : String) (value : Json) : Reaction :=
  emitted (.obj [("jsonrpc", .str "2.0"), ("id", valueAt m "id"), (key, value)])

/-- What an action does. -/
def Action.reaction (m : Json) : Action → Reaction
  | reply result => answer m "result" result
  | replyError error => answer m "error" error
  | publish items =>
    let uri : Json := match uriOf? m with | some uri => .str uri | none => .null
    emitted (.obj
      [("jsonrpc", .str "2.0"), ("method", .str "textDocument/publishDiagnostics"),
       ("params", .obj [("uri", uri), ("diagnostics", .arr items)])])
  | send message => emitted message
  | raw bytes => .emit bytes
  | breakPipe => .breakPipe
  | exit code => .exit code

/-- What a server does for which there is no rule. -/
def unscripted (method : String) : List Action :=
  if method = "initialize" then [.reply (.obj [("capabilities", .obj [])])]
  else if method = "shutdown" then [.reply .null]
  else if method = "exit" then [.exit 0]
  else []

/-- How many messages of a scripted server arrive before a wait is given up. -/
def scriptBurst : Nat := 1000000

/-- A server that follows rules. -/
def ofRules (rules : List Rule) (available outlivesInput : Bool) : Server (List Rule) where
  available := available
  initial := rules
  react rules m :=
    let (actions, rest) := takeRule m rules
    (rest, (actions.getD (unscripted (methodOf m))).map (Action.reaction m))
  outlivesInput := outlivesInput
  burst _ := scriptBurst

/-- A server whose program is not there. -/
def missing : Server Unit where
  available := false
  initial := ()
  react s _ := (s, [])
  outlivesInput := false
  burst _ := scriptBurst

end SfcCheck.Server
