import SfcCheck.FileTree
import SfcCheck.Fault

/-!
# Errors of a conversation with the language server

What can go wrong between a session and its server. Most causes end the conversation for good; a
rejection and a timeout end one request only.
-/

namespace SfcCheck

/-- What a session waits for. -/
inductive Awaited where
  /-- The response to a request of this method. -/
  | response (method : String)
  /-- The diagnostics of a document. -/
  | diagnostics (uri : String)
deriving DecidableEq, Repr

def Awaited.text : Awaited → String
  | response method => s!"{Text.quoted method} response"
  | diagnostics uri => s!"diagnostics for {uri}"

/-- What is wrong with the header of a message. -/
inductive HeaderDefect where
  /-- No length is given. -/
  | noLength
  /-- The length is no integer. -/
  | badLength
deriving DecidableEq, Repr

/-- An error of the language server, or of the conversation with it. -/
inductive ServerError where
  | alreadyStarted
  | notRunning
  | couldNotStart (program : String) (e : FileError)
  | pipeClosed
  | timedOut (seconds : Float) (awaited : Awaited)
  /-- The server answered a request with an error. -/
  | rejected (message : String) (code : Json)
  /-- The output of the server ended between messages. -/
  | exited
  /-- The output of the server ended within a header. -/
  | endedInHeader
  /-- The output of the server ended within a body. -/
  | endedInBody
  | malformedHeader (headers : Table String) (defect : HeaderDefect)
  | malformedBody (e : Json.ReadError)
  | bodyNoObject
  /-- A message could not be read or understood. -/
  | malformedMessage (e : Fault)

/-- The headers of a message as messages show them. -/
def shownHeaders (headers : Table String) : String :=
  "\x7b" ++ ", ".intercalate (headers.map fun h => s!"{Text.quoted h.1}: {Text.quoted h.2}")
    ++ "\x7d"

/-- The error in words. -/
def ServerError.message : ServerError → String
  | alreadyStarted => "Language server session already started"
  | notRunning => "Language server is not running"
  | couldNotStart program e =>
    s!"Could not start language server {Text.quoted program}: {e.message}"
  | pipeClosed => "Language server pipe closed: Connection lost"
  | timedOut seconds awaited =>
    s!"Timed out after {Decimal.generalText seconds}s waiting for {awaited.text}"
  | rejected message _ => message
  | exited => "Language server exited unexpectedly"
  | endedInHeader | endedInBody => "Language server closed the stream mid-message"
  | malformedHeader headers _ => s!"Malformed message header: {shownHeaders headers}"
  | malformedBody e => s!"Malformed message body: {e.message}"
  | bodyNoObject => "Message body is not a JSON object"
  | malformedMessage e => s!"Malformed message from language server: {e.shown}"

/-- The code of an error, which only a rejection can have. -/
def ServerError.code : ServerError → Json
  | rejected _ code => code
  | _ => .null

/-- Why a message could not be read, understood or answered. -/
inductive ReadFailure where
  | server (e : ServerError)
  | fault (e : Fault)

/-- The error that such a failure leaves a session with. -/
def ReadFailure.toServerError : ReadFailure → ServerError
  | server e => e
  | fault e => .malformedMessage e

end SfcCheck
