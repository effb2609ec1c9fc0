import Conveyor.Sink.Ring
import Conveyor.Sink.Stdout
import Conveyor.Sink.Webhook

/-!
# A rack of sinks

The sinks that a pipeline can be tried out with: the real ones, and probes that behave in a fixed way.
A rack holds them in order, so the place of a sink on the rack is its handle, together with the
permits that the gates on the rack share.

A rack says what becomes of a call: what the sink does with the event at once (`receive`,
`records`), and what it answers (`reply?`), which is not known as long as a gate waits for a permit.
-/

namespace Conveyor.Sink

/-- A sink of a rack. -/
inductive Member where
  /-- A probe that takes every event. -/
  | capture
  /-- A probe that fails, on one message only or on every one. -/
  | failing (fault : Fault) (only : Option String)
  /-- A probe that dies, on one message only or on every one. -/
  | dying (only : Option String)
  /-- A probe that takes an event when it gets a permit. -/
  | gate
  /-- A ring of recent events. -/
  | ring (ring : Ring)
  /-- The sink that writes to the log. -/
  | stdout
  /-- The sink that forwards to an address, where that is no address to which a request could be
  built. -/
  | webhook (url : String)
  deriving DecidableEq

namespace Member

/-- The name of a sink in the log. -/
def name : Member → String
  | ring _ => Ring.name
  | stdout => Stdout.name
  | webhook _ => Webhook.name
  | _ => "probe"

/-- A probe for one message, or for all, reacts to this message. -/
def concerns (only : Option String) (message : String) : Bool :=
  match only with
  | some m => m == message
  | none => true

/-- The sink after it was given an event. -/
def receive (m : Member) (e : Event) : Member :=
  match m with
  | ring r => ring (r.consume e).2
  | m => m

/-- The records that the sink writes when it is given an event. -/
def records (m : Member) (e : Event) : List Record :=
  match m with
  | stdout => [Stdout.record e]
  | _ => []

/-- The answer of the sink to an event, when it gets what it waits for. -/
def answer (m : Member) (e : Event) : Reply :=
  match m with
  | failing fault only => if concerns only e.message then .failed fault else .delivered
  | dying only => if concerns only e.message then .died else .delivered
  | ring r => (r.consume e).1
  | webhook _ => Webhook.reply .unbuildable
  | _ => .delivered

/-- The sink waits for a permit before it answers. -/
def isGate : Member → Bool
  | gate => true
  | _ => false

end Member

/-- Sinks in order, and the permits for the gates among them. -/
structure Rack where
  /-- The sinks; the place of each is its handle. -/
  members : List Member := []
  /-- The permits that no gate has used yet. -/
  permits : Nat := 0

namespace Rack

/-- The rack with one more sink, whose handle is the number of sinks before it. -/
def mount (r : Rack) (m : Member) : Rack :=
  { r with members := r.members ++ [m] }

/-- The sink of a handle. -/
def get? (r : Rack) (handle : Nat) : Option Member :=
  r.members[handle]?

/-- The name of the sink of a handle. -/
def name (r : Rack) (handle : Nat) : String :=
  ((r.get? handle).map Member.name).getD ""

/-- The rack after the sink of a handle was given an event. -/
def receive (r : Rack) (handle : Nat) (e : Event) : Rack :=
  { r with members := r.members.modify handle fun m ↦ m.receive e }

/-- The records that the sink of a handle writes when it is given an event. -/
def records (r : Rack) (handle : Nat) (e : Event) : List Record :=
  match r.get? handle with
  | some m => m.records e
  | none => []

/-- The answer of the sink of a handle to an event, unless it has to wait. -/
def reply? (r : Rack) (handle : Nat) (e : Event) : Option Reply :=
  match r.get? handle with
  | some m => if m.isGate && r.permits == 0 then none else some (m.answer e)
  | none => some .delivered

/-- The sink of a handle is a gate. -/
def isGate (r : Rack) (handle : Nat) : Bool :=
  ((r.get? handle).map Member.isGate).getD false

/-- The rack after the sink of a handle has answered: a gate has used a permit. -/
def settle (r : Rack) (handle : Nat) : Rack :=
  if r.isGate handle then { r with permits := r.permits - 1 } else r

/-- The events of the ring of a handle, if that is one. -/
def recent? (r : Rack) (handle : Nat) : Option (List Event) :=
  match r.get? handle with
  | some (.ring ring) => some ring.recent
  | _ => none

end Rack

end Conveyor.Sink
