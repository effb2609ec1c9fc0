import Conveyor.Http.Failure
import Conveyor.Http.MediaType
import Conveyor.Http.Route
import Conveyor.Server.Basic

/-!
# Answering requests

How the server answers a request, and how it changes by that. A request is answered in one go, with
nothing from the background between its parts, and without the time limit on requests.

What is sent goes through three stages. The body must be JSON that can be decoded; the item in it must
pass its check; and the part it is meant for must take it. The first stage that fails decides the
answer, and then nothing in the server has changed.
-/

namespace Conveyor.Server

open Http Json Metrics Moderation Time

/-- The version that the server reports. -/
def version : String := "0.1.0"

/-- How many bytes a body has at most. -/
def bodyLimit : Nat := 2097152

/-- The answer to something that was taken. -/
def accepted : Response :=
  .ofData 202 (.object [("status", .text "accepted")])

/-- Decodes the body of a request. Its type is looked at first, then its length. -/
def readBody {α : Type} (d : Decoder α) (r : Http.Request) : Except BodyFault α :=
  if !(r.contentType.map isJsonType).getD false then .error .notJson
  else if bodyLimit < r.body.size then .error .tooLong
  else
    match (Document.ofBytes r.body).decode d with
    | .ok a => .ok a
    | .error why => .error (.undecodable why)

/-- The item in the body of a request, decoded and checked. -/
def readItem {α β : Type} (d : Decoder α) (item : α → β) (check : β → Except ItemFault Unit)
    (r : Http.Request) : Except Failure β := do
  let a ← (readBody d r).mapError fun fault ↦ .badRequest fault.message
  (check (item a)).mapError .item
  return item a

namespace State

/-- Answers a request that reads. Fetching a verdict takes it from the store. -/
def read (s : State) : Resource → Response × State × List Note
  | .health =>
    let status := if s.isHealthy then "ok" else "degraded"
    (.ofJson 200 (.object [("status", .text status), ("version", .text version)]), s, [])
  | .recentLogs => (.ofData 200 (.array (s.recent.recent.map Event.json)), s, [])
  | .nextVerdict =>
    match s.moderation.pop with
    | (some v, moderation, notes) =>
      (.ofData 200 v.json, { s with moderation }, notes.map .moderation)
    | (none, moderation, notes) =>
      ({ status := 204 }, { s with moderation }, notes.map .moderation)
  | .summaries => (.ofData 200 s.metrics.json, s, [])

/-- Answers a request that sends an event. An event without a time happens now. -/
def sendEvent (s : State) (now : Timestamp) (r : Http.Request) :
    Except Failure (Response × State × List Note) := do
  let e ← readItem Event.Submission.decoder (fun x ↦ x.event now) Event.check r
  match s.pipeline.enqueue e with
  | (.ok (), pipeline, notes) =>
    return (accepted, s.withPipeline pipeline notes, notes.map .pipeline)
  -- A refusal changes nothing, so the state that comes with it is not needed.
  | (.error why, _, _) => .error (.queue why)

/-- Answers a request that sends a job. -/
def sendJob (s : State) (r : Http.Request) : Except Failure (Response × State × List Note) := do
  let j ← readItem Job.Submission.decoder Job.Submission.job Job.check r
  match s.moderation.submit j with
  | (.ok (), moderation, notes) =>
    return (accepted, { s with moderation }, notes.map .moderation)
  | (.error why, _, _) => .error (.queue why)

/-- Answers a request that sends a sample. A sample without a time is measured now. -/
def sendSample (s : State) (now : Timestamp) (r : Http.Request) :
    Except Failure (Response × State × List Note) := do
  let x ← readItem Sample.decoder id Sample.check r
  let (summary, metrics) := s.metrics.ingest x now
  return (.ofData 202 summary.json, { s with metrics }, [])

/-- Answers a request that sends something. -/
def send (s : State) (now : Timestamp) (r : Http.Request) :
    Inbox → Except Failure (Response × State × List Note)
  | .logs => s.sendEvent now r
  | .jobs => s.sendJob r
  | .samples => s.sendSample now r

/-- Answers a request at a given time: the response, the server after it, and what happened. No request
takes too long to be answered. -/
def respond (s : State) (now : Timestamp) (r : Http.Request) : Response × State × List Note :=
  match r.route with
  | .notFound => ({ status := 404 }, s, [])
  | .notAllowed allow => ({ status := 405, allow := some allow }, s, [])
  | .read resource withBody =>
    let (response, s, notes) := s.read resource
    (if withBody then response else response.withoutBody, s, notes)
  | .send inbox =>
    match s.send now r inbox with
    | .ok result => result
    | .error failure => (failure.response, s, [.failed failure])

end State

/-- The name under which a request is answered: the one that the client gave it, or a fresh one. -/
def responseId (r : Http.Request) (fresh : String) : String :=
  r.requestId.getD fresh

/-! ### Runs -/

/-- Something that a client, the operator or the scheduler does. -/
inductive Action where
  /-- A client sends a request. -/
  | request (r : Http.Request) (now : Timestamp)
  /-- The operator issues a call. -/
  | issue (id : Nat) (order : Order)
  /-- The scheduler lets a step happen at a given time. -/
  | step (step : Step) (now : Timestamp)

/-- What is seen of a run: what happened, and which responses were given to which requests. -/
inductive Entry where
  /-- Something happened in the server. -/
  | note (note : Note)
  /-- A request was answered. -/
  | answered (request : Http.Request) (response : Response)

namespace State

/-- The state and the entries of the history after an action. A step must be possible. -/
def act (s : State) : Action → Option (State × List Entry)
  | .request r now =>
    let (response, s, notes) := s.respond now r
    some (s, notes.map .note ++ [.answered r response])
  | .issue id order =>
    let (s, notes) := s.issue id order
    some (s, notes.map .note)
  | .step x now => do
    let (s, notes) ← s.step now x
    return (s, notes.map .note)

/-- The state and the history after a run, if all its steps are possible. -/
def run (s : State) : List Action → Option (State × List Entry)
  | [] => some (s, [])
  | a :: as => do
    let (s, entries) ← s.act a
    let (s, later) ← s.run as
    return (s, entries ++ later)

end State

end Conveyor.Server
