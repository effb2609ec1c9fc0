import Conveyor.Http.Message

/-!
# Routes

The paths of the server and what stands behind each. A path is compared as it is written: case counts,
nothing is decoded, and there is no slash at the end. Each path takes either reading or sending.
-/

namespace Conveyor.Http

/-- What stands behind a path that is read. -/
inductive Resource where
  /-- Whether the services are running. -/
  | health
  /-- The latest events. -/
  | recentLogs
  /-- The oldest verdict that nobody has fetched. -/
  | nextVerdict
  /-- The running summaries of all metrics. -/
  | summaries
  deriving DecidableEq, Repr

/-- What stands behind a path that is sent to. -/
inductive Inbox where
  /-- Takes events. -/
  | logs
  /-- Takes jobs. -/
  | jobs
  /-- Takes samples of metrics. -/
  | samples
  deriving DecidableEq, Repr

/-- What stands behind a path. -/
inductive Endpoint where
  /-- Something to read. -/
  | resource (r : Resource)
  /-- Something to send to. -/
  | inbox (i : Inbox)
  deriving DecidableEq, Repr

namespace Endpoint

/-- What stands behind a path, if anything does. -/
def ofPath? (path : String) : Option Endpoint :=
  if path = "/health" then some (.resource .health)
  else if path = "/logs/recent" then some (.resource .recentLogs)
  else if path = "/jobs/next" then some (.resource .nextVerdict)
  else if path = "/metrics/summary" then some (.resource .summaries)
  else if path = "/logs" then some (.inbox .logs)
  else if path = "/jobs" then some (.inbox .jobs)
  else if path = "/metrics/ingest" then some (.inbox .samples)
  else none

/-- The methods that are allowed. -/
def allow : Endpoint → String
  | resource _ => "GET,HEAD"
  | inbox _ => "POST"

end Endpoint

/-- What a request asks for. -/
inductive Route where
  /-- To read something; the answer has a body only if that is wanted. -/
  | read (r : Resource) (withBody : Bool)
  /-- To send something. -/
  | send (i : Inbox)
  /-- Something that the path does not allow. -/
  | notAllowed (allow : String)
  /-- Something that is not there. -/
  | notFound
  deriving DecidableEq, Repr

/-- What a request asks for. -/
def Request.route (r : Request) : Route :=
  match Endpoint.ofPath? r.path with
  | none => .notFound
  | some e =>
    match e, r.method with
    | .resource x, .get => .read x true
    | .resource x, .head => .read x false
    | .inbox x, .post => .send x
    | e, _ => .notAllowed e.allow

end Conveyor.Http
