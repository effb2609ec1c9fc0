import Conveyor.Dict
import Conveyor.Event.Level
import Conveyor.Fault
import Conveyor.Time.Timestamp

/-!
# Log events

An `Event` is one line of a log: where it comes from, how severe it is, what it says, some named
fields, and when it happened. It is sent through the pipeline to every sink. Its time is a `Timestamp`
unless another form of points in time is named.
-/

namespace Conveyor

open Time

/-- One line of a log, with its time in the form `τ`. -/
structure Event (τ : Type := Timestamp) where
  /-- The service or component that speaks. -/
  source : String
  /-- How severe the event is. -/
  level : Level
  /-- What happened. -/
  message : String
  /-- Named values that belong to the event. -/
  fields : Dict String
  /-- When it happened. -/
  timestamp : τ
  deriving DecidableEq

namespace Event

/-- An event without fields that happens now. -/
def new (source : String) (level : Level) (message : String) (now : Timestamp) : Event :=
  { source, level, message, fields := .empty, timestamp := now }

/-- The event with one more field, in place of one of the same name. -/
def withField (e : Event) (key value : String) : Event :=
  { e with fields := e.fields.insert key value }

/-- The event with other fields. -/
def withFields (e : Event) (fields : Dict String) : Event :=
  { e with fields }

/-- The event at another time. -/
def withTimestamp (e : Event) (timestamp : Timestamp) : Event :=
  { e with timestamp }

/-- The source and the message are not blank. -/
def check (e : Event) : Except ItemFault Unit :=
  if Text.isBlankText e.source || Text.isBlankText e.message then
    .error (.invalid "source and message required")
  else .ok ()

end Event

end Conveyor
