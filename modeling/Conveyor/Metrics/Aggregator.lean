import Conveyor.Metrics.Summary

/-!
# The aggregator

One running summary for each metric, found by the key of its samples.
-/

namespace Conveyor.Metrics

open Json Time

/-- The running summaries, by the keys of their metrics. -/
structure Aggregator where
  /-- The summary of each key. -/
  summaries : Dict Summary := .empty

namespace Aggregator

/-- The aggregator that has seen no sample. -/
def empty : Aggregator := {}

/-- The summary of a metric after one more value. -/
def roll (before : Option Summary) (value : Float) (time : Timestamp) : Summary :=
  match before with
  | some s => s.record value time
  | none => .first value time

/-- Takes a sample into the summary of its metric, which is returned as it then is. A sample without
a time is measured now. -/
def ingest (a : Aggregator) (s : Sample) (now : Timestamp) : Summary × Aggregator :=
  let summary := roll (a.summaries.get? s.key) s.value (s.timestamp.getD now)
  (summary, ⟨a.summaries.insert s.key summary⟩)

/-- Every summary with the key of its metric. -/
def snapshot (a : Aggregator) : Dict Summary := a.summaries

/-- Every summary as JSON, by key. -/
def json (a : Aggregator) : Value :=
  .object (a.snapshot.toList.map fun e ↦ (e.1, e.2.json))

end Aggregator

end Conveyor.Metrics
