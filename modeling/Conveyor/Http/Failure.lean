import Conveyor.Fault
import Conveyor.Http.Message
import Conveyor.Json.Decoder
import Conveyor.Record

/-!
# Failures of requests

Why a request is not answered as it was meant, and the response that says so: a status, a code for
programs and a text for people. What goes wrong inside is not told to clients but written to the log.
-/

namespace Conveyor.Http

/-- Why a request fails. -/
inductive Failure where
  /-- The item that was sent is not as it should be. -/
  | item (fault : ItemFault)
  /-- A queue turned the item away. -/
  | queue (why : QueueRefusal)
  /-- The request cannot be understood. -/
  | badRequest (text : String)
  /-- Something is wrong inside. -/
  | inside (text : String)
  deriving DecidableEq, Repr

namespace Failure

/-- The wording of a failure. -/
def message : Failure → String
  | item fault => fault.message
  | queue why => why.message
  | badRequest text => "Bad request: " ++ text
  | inside text => "Internal error: " ++ text

/-- What is wrong inside, if that is the failure. -/
def hidden? : Failure → Option String
  | item (.internal text) => some text
  | queue why@(.alreadyStarted _) => some why.message
  | inside text => some text
  | _ => none

/-- The status, the code and the text of the response. -/
def answer : Failure → Nat × String × String
  | item (.invalid text) => (400, "VALIDATION_ERROR", text)
  | queue why@(.full ..) => (503, "SERVICE_BUSY", why.message)
  | queue why@(.closed _) => (503, "SERVICE_UNAVAILABLE", why.message)
  | badRequest text => (400, "BAD_REQUEST", text)
  | item (.internal _) => (500, "INTERNAL_ERROR", "An internal error occurred")
  | queue (.alreadyStarted _) => (500, "INTERNAL_ERROR", "An internal error occurred")
  | inside _ => (500, "INTERNAL_ERROR", "An internal error occurred")

/-- The response. -/
def response (f : Failure) : Response :=
  let (status, code, text) := f.answer
  .ofJson status (.object [("error", .text text), ("code", .text code)])

/-- The records of the log about a failure. -/
def records (f : Failure) : List Record :=
  match f.hidden? with
  | some text => [.failure "Internal error" [("error", text)]]
  | none => []

end Failure

/-! ### Bodies that are refused -/

/-- Why the body of a request is refused. -/
inductive BodyFault where
  /-- It is not said to be JSON. -/
  | notJson
  /-- It is too long. -/
  | tooLong
  /-- It cannot be decoded. -/
  | undecodable (why : Json.Refusal)
  deriving DecidableEq, Repr

/-- The wording of a fault. -/
def BodyFault.message : BodyFault → String
  | notJson => "Expected request with \x60Content-Type: application/json\x60"
  | tooLong => "Failed to buffer the request body: length limit exceeded"
  | undecodable .malformed => "Failed to parse the request body as JSON"
  | undecodable .mismatched => "Failed to deserialize the JSON body into the target type"

end Conveyor.Http
