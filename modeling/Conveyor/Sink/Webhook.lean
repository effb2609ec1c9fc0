import Conveyor.Event.Codec
import Conveyor.Sink.Basic

/-!
# Forwarding events

A sink that posts each event as JSON to an address. There is one attempt for each event, because
another one would keep all other sinks waiting. What becomes of the attempt is decided outside; here
is what the sink answers then.
-/

namespace Conveyor.Sink

/-- What became of an attempt to post an event. -/
inductive Delivery where
  /-- No request could be built for the address. -/
  | unbuildable
  /-- The request was not answered. -/
  | unanswered (reason : String)
  /-- The other side answered with a status. -/
  | answered (status : Nat)
  deriving DecidableEq, Repr

namespace Webhook

/-- The name of the sink in the log. -/
def name : String := "webhook"

/-- The body that is posted for an event. -/
def body (e : Event) : String :=
  e.json.render

/-- The answer of the sink: a status from 200 to 299 is a success. -/
def reply : Delivery → Reply
  | .unbuildable => .failed (.request "builder error")
  | .unanswered reason => .failed (.request reason)
  | .answered status =>
    if 200 ≤ status && status < 300 then .delivered else .failed (.status status)

end Webhook

end Conveyor.Sink
