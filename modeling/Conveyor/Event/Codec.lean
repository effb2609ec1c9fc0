import Conveyor.Event.Basic
import Conveyor.Json.Decoder
import Conveyor.Json.Value
import Conveyor.Time.Reading
import Conveyor.Time.Written

/-!
# Events as JSON

An event is written as an object with all its fields and read back from an object or an array, where
only `fields` may be missing. A `Submission` is what a client may send instead: every part of it may
be missing, and a missing time means now. Both are read through the same draft, so whatever reads as
an event reads as a submission of that event.
-/

namespace Conveyor

open Json Time

/-- The decoder of a point in time. -/
def Json.Decoder.timestamp : Decoder Timestamp :=
  .ofText? Timestamp.ofText?

/-- A point in time as JSON. -/
def Json.Value.ofTimestamp (t : Timestamp) : Value :=
  .text t.text

/-- The decoder of a level, which takes every string. -/
def Json.Decoder.level : Decoder Level :=
  .ofText? fun s ↦ some (Level.parse s)

namespace Event

/-- What a text says about an event so far. The time is `some none` where it is given as `null`. -/
structure Draft where
  /-- The source. -/
  source : Option String := none
  /-- The level. -/
  level : Option Level := none
  /-- The message. -/
  message : Option String := none
  /-- The named fields. -/
  fields : Option (Dict String) := none
  /-- The time. -/
  timestamp : Option (Option Timestamp) := none

namespace Draft

/-- The fields of an event in order, given the decoder of the time. -/
def table (timestamp : Decoder (Option Timestamp)) : List (Decoder.Field Draft) :=
  [.of "source" Draft.source (fun d v ↦ { d with source := some v }) .text,
   .of "level" Draft.level (fun d v ↦ { d with level := some v }) .level,
   .of "message" Draft.message (fun d v ↦ { d with message := some v }) .text,
   .of "fields" Draft.fields (fun d v ↦ { d with fields := some v }) .fields,
   .of "timestamp" Draft.timestamp (fun d v ↦ { d with timestamp := some v }) timestamp]

/-- The event of a draft. Every part but the fields is required. -/
def event (d : Draft) : Except Refusal Event := do
  let source ← Decoder.required d.source
  let level ← Decoder.required d.level
  let message ← Decoder.required d.message
  let timestamp ← Decoder.required d.timestamp.join
  return { source, level, message, fields := d.fields.getD .empty, timestamp }

end Draft

/-- The decoder of an event. -/
def decoder : Decoder Event := fun n ↦ do
  Draft.event (← Decoder.record (Draft.table fun n ↦ (Decoder.timestamp n).map some) {} n)

/-- An event as JSON. -/
def json (e : Event) : Value :=
  .object
    [("source", .text e.source),
     ("level", .text e.level.name),
     ("message", .text e.message),
     ("fields", .ofFields e.fields),
     ("timestamp", .ofTimestamp e.timestamp)]

/-- An event as a client sends it. -/
structure Submission where
  /-- The service or component that speaks. -/
  source : String := ""
  /-- How severe the event is. -/
  level : Level := .info
  /-- What happened. -/
  message : String := ""
  /-- Named values that belong to the event. -/
  fields : Dict String := .empty
  /-- When it happened, if the client says so. -/
  timestamp : Option Timestamp := none

namespace Submission

/-- The submission of a draft, with the usual value for each missing part. -/
def ofDraft (d : Draft) : Submission where
  source := d.source.getD ""
  level := d.level.getD .info
  message := d.message.getD ""
  fields := d.fields.getD .empty
  timestamp := d.timestamp.join

/-- The decoder of a submission. -/
def decoder : Decoder Submission := fun n ↦ do
  return ofDraft (← Decoder.record (Draft.table (.optional .timestamp)) {} n)

/-- The event that was submitted; it happens now unless the client said otherwise. -/
def event (s : Submission) (now : Timestamp) : Event :=
  ((Event.new s.source s.level s.message now).withFields s.fields).withTimestamp
    (s.timestamp.getD now)

end Submission

end Event

end Conveyor
