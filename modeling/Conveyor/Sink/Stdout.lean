import Conveyor.Event.Basic
import Conveyor.Record
import Conveyor.Text.Quoted

/-!
# Events in the log

A sink that writes each event to the log, as a record at the level of the event. The fields of the
event are shown as one quoted text, which no client text can be mistaken in.
-/

namespace Conveyor.Sink.Stdout

/-- The name of the sink in the log. -/
def name : String := "stdout"

/-- The log that the records are for. -/
def target : String := "log_pipeline"

/-- The record of an event. -/
def record (e : Event) : Record where
  target := some target
  level := e.level
  message := e.message
  details := [("source", e.source), ("fields", Text.quoteFields e.fields)]

end Conveyor.Sink.Stdout
