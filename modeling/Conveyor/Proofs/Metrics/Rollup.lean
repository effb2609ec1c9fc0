import Conveyor.Metrics.Aggregator
import Conveyor.Proofs.Dict

/-!
# Summaries roll up the samples of a key

What an aggregator shows for a key after a sequence of samples (`Aggregator.get?_ingestAll`): the
samples with that key, rolled up in the order in which they came, and nothing of the others.

A sample comes at a time, which counts as its own if it has none. So a sequence is a list of
arrivals.
-/

namespace Conveyor.Metrics

open Time

/-- A sample with the time at which it comes. -/
abbrev Arrival := Sample × Timestamp

/-- A summary after samples were rolled into it in order, whatever their keys are. -/
def rollAll (before : Option Summary) (arrivals : List Arrival) : Option Summary :=
  arrivals.foldl (fun before p ↦ some (Aggregator.roll before p.1.value (p.1.timestamp.getD p.2)))
    before

namespace Aggregator

/-- Takes samples in order. -/
def ingestAll (a : Aggregator) (arrivals : List Arrival) : Aggregator :=
  arrivals.foldl (fun a p ↦ (a.ingest p.1 p.2).2) a

/-- A sample changes the summary of its key alone, to the one that is returned. -/
theorem get?_ingest (a : Aggregator) (s : Sample) (now : Timestamp) (key : String) :
    (a.ingest s now).2.snapshot.get? key =
      if key = s.key then some (a.ingest s now).1 else a.snapshot.get? key :=
  Dict.get?_insert a.summaries s.key (a.ingest s now).1 key

/-- The summary of a key after samples that came in order. -/
theorem get?_ingestAll (a : Aggregator) (arrivals : List Arrival) (key : String) :
    (a.ingestAll arrivals).snapshot.get? key =
      rollAll (a.snapshot.get? key) (arrivals.filter fun p ↦ p.1.key = key) := by
  induction arrivals generalizing a with
  | nil => rfl
  | cons p arrivals ih =>
    rw [ingestAll, List.foldl_cons, ← ingestAll, ih, get?_ingest]
    by_cases hkey : p.1.key = key
    · rw [if_pos hkey.symm, List.filter_cons_of_pos (by simpa using hkey), rollAll, rollAll,
        List.foldl_cons]
      subst hkey
      rfl
    · rw [if_neg (Ne.symm hkey), List.filter_cons_of_neg (by simpa using hkey)]

end Aggregator

end Conveyor.Metrics
