import Conveyor.Json.Value

/-!
# Requests and responses

What the server sees of a request over HTTP and what it answers. A body is a value of JSON or there
is none.
-/

namespace Conveyor.Http

/-- The method of a request. -/
inductive Method where
  /-- Read. -/
  | get
  /-- Read, but leave the body out of the answer. -/
  | head
  /-- Send something. -/
  | post
  /-- Any other method. -/
  | other (name : String)
  deriving DecidableEq, Repr

/-- The method of a name. Names are case-sensitive. -/
def Method.ofName (s : String) : Method :=
  if s = "GET" then .get
  else if s = "HEAD" then .head
  else if s = "POST" then .post
  else .other s

/-- A request. -/
structure Request where
  /-- The method. -/
  method : Method
  /-- The path, with a query or fragment behind it and perhaps the scheme and the authority before
  it. -/
  target : String
  /-- What the body is said to be. -/
  contentType : Option String := none
  /-- The name that the client gives the request. -/
  requestId : Option String := none
  /-- The body. -/
  body : ByteArray := .empty

/-- The character may stand in the name of a scheme. -/
def isSchemeChar (c : Char) : Bool :=
  c.isAlphanum || c = '+' || c = '-' || c = '.' || c = '~'

/-- A target without the scheme and the authority, which it has in its absolute form, as in
`http://host/path`. -/
def withoutOrigin (target : List Char) : List Char :=
  match target.span isSchemeChar with
  | (_, ':' :: '/' :: '/' :: rest) => rest.dropWhile fun c ↦ c != '/' && c != '?' && c != '#'
  | _ => target

/-- The path of a request, without query and fragment. -/
def Request.path (r : Request) : String :=
  String.ofList ((withoutOrigin r.target.toList).takeWhile fun c ↦ c != '?' && c != '#')

/-- The body of a response. -/
inductive Body where
  /-- No body. -/
  | none
  /-- A value of JSON. -/
  | json (v : Json.Value)

/-- A response, apart from the name of the request it answers. -/
structure Response where
  /-- The status. -/
  status : Nat
  /-- The methods that the path allows, where they are told. -/
  allow : Option String := none
  /-- What the body would be if it were there. -/
  contentType : Option String := none
  /-- The body. -/
  body : Body := .none

namespace Response

/-- The type of bodies. -/
def jsonType : String := "application/json"

/-- A response with a value of JSON. -/
def ofJson (status : Nat) (v : Json.Value) : Response where
  status := status
  contentType := some jsonType
  body := .json v

/-- A response with the data that was asked for. -/
def ofData (status : Nat) (v : Json.Value) : Response :=
  ofJson status (.object [("data", v)])

/-- The response with its body left out. -/
def withoutBody (r : Response) : Response :=
  { r with body := .none }

end Response

end Conveyor.Http
