/-!
# Sinks

A sink is a consumer of events. It has a name for the log, and it answers each event it is given with
a `Reply`: the event was delivered, the sink failed with a fault, or the sink died of it.
-/

namespace Conveyor.Sink

/-- Why a sink failed to take an event. -/
inductive Fault where
  /-- A request over the network could not be made. -/
  | request (text : String)
  /-- The other side answered with a status that is no success. -/
  | status (code : Nat)
  /-- The sink refused the event for reasons of its own. -/
  | rejected (text : String)
  deriving DecidableEq, Repr

/-- The wording of a fault. -/
def Fault.message : Fault → String
  | request text => "HTTP request failed: " ++ text
  | status code => "Sink endpoint returned HTTP " ++ toString code
  | rejected text => "Sink rejected event: " ++ text

/-- The answer of a sink to an event. -/
inductive Reply where
  /-- The event was delivered. -/
  | delivered
  /-- The sink failed, and can be given further events. -/
  | failed (fault : Fault)
  /-- The sink died, and with it the task that called it. -/
  | died
  deriving DecidableEq, Repr

end Conveyor.Sink
