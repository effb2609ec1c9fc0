import Conveyor.Event.Codec

/-!
# Metric samples

A `Sample` is one measured value of a metric. The metric is identified by a namespace, a name and a
map of labels, which `Sample.key` renders into one text: `namespace.name{k1=v1,k2=v2}` with the
labels in key order.
-/

namespace Conveyor.Metrics

open Json Time

/-- One measured value. -/
structure Sample where
  /-- The area the metric belongs to. -/
  namespaceName : String := ""
  /-- The name of the metric in its area. -/
  name : String := ""
  /-- The value. -/
  value : Float := 0
  /-- Which of the metrics of that name it is. -/
  labels : Dict String := .empty
  /-- When it was measured, if that is known. -/
  timestamp : Option Timestamp := none

namespace Sample

/-- The namespace and the name are not blank. -/
def check (s : Sample) : Except ItemFault Unit :=
  if Text.isBlankText s.namespaceName || Text.isBlankText s.name then
    .error (.invalid "namespace and name required")
  else .ok ()

/-- One label inside a key. -/
def labelText (label : String × String) : String :=
  label.1 ++ "=" ++ label.2

/-- The identity of the metric as one text. -/
def key (s : Sample) : String :=
  s.namespaceName ++ "." ++ s.name ++ "\x7b" ++
    String.intercalate "," (s.labels.toList.map labelText) ++ "\x7d"

/-- What a text says about a sample so far. The time is `some none` where it is given as `null`. -/
structure Draft where
  /-- The namespace. -/
  namespaceName : Option String := none
  /-- The name. -/
  name : Option String := none
  /-- The value. -/
  value : Option Float := none
  /-- The labels. -/
  labels : Option (Dict String) := none
  /-- The time. -/
  timestamp : Option (Option Timestamp) := none

namespace Draft

/-- The fields of a sample in order. -/
def table : List (Decoder.Field Draft) :=
  [.of "namespace" Draft.namespaceName (fun d v ↦ { d with namespaceName := some v }) .text,
   .of "name" Draft.name (fun d v ↦ { d with name := some v }) .text,
   .of "value" Draft.value (fun d v ↦ { d with value := some v }) .float,
   .of "labels" Draft.labels (fun d v ↦ { d with labels := some v }) .fields,
   .of "timestamp" Draft.timestamp (fun d v ↦ { d with timestamp := some v })
     (.optional .timestamp)]

/-- The sample of a draft, with the empty value for each missing part. -/
def sample (d : Draft) : Sample where
  namespaceName := d.namespaceName.getD ""
  name := d.name.getD ""
  value := d.value.getD 0
  labels := d.labels.getD .empty
  timestamp := d.timestamp.join

end Draft

/-- The decoder of a sample. -/
def decoder : Decoder Sample := fun n ↦ do
  return Draft.sample (← Decoder.record Draft.table {} n)

/-- A sample as JSON. -/
def json (s : Sample) : Value :=
  .object
    [("namespace", .text s.namespaceName),
     ("name", .text s.name),
     ("value", .float s.value),
     ("labels", .ofFields s.labels),
     ("timestamp", .ofOption .ofTimestamp s.timestamp)]

end Sample

end Conveyor.Metrics
