import Conveyor.Metrics.Sample

/-!
# Running summaries

A `Summary` rolls the samples of one metric up into a count, the extremes, the sum, the mean and the
time of the sample that came last. It is built from the first sample and changed by each further one,
so it never holds fewer than one.
-/

namespace Conveyor.Metrics

open Json Time

/-- The samples of one metric, rolled up. -/
structure Summary where
  /-- The number of samples. -/
  count : Nat
  /-- The least value. -/
  min : Float
  /-- The greatest value. -/
  max : Float
  /-- The sum of the values, added up in order. -/
  sum : Float
  /-- The sum divided by the count. -/
  mean : Float
  /-- The time of the sample that came last. -/
  last : Timestamp

/-- The lesser of two values, and of two equal ones the second, which shows where a zero has a sign.
What is no number counts only if both are none. -/
def lesser (x y : Float) : Float :=
  if x.isNaN then y else if y ≤ x then y else x

/-- The greater of two values, and of two equal ones the second. What is no number counts only if both
are none. -/
def greater (x y : Float) : Float :=
  if x.isNaN then y else if x ≤ y then y else x

namespace Summary

/-- The summary of a single value. -/
def first (value : Float) (time : Timestamp) : Summary where
  count := 1
  min := value
  max := value
  sum := value
  mean := value
  last := time

/-- The summary with one more value. -/
def record (s : Summary) (value : Float) (time : Timestamp) : Summary where
  count := s.count + 1
  min := lesser s.min value
  max := greater s.max value
  sum := s.sum + value
  mean := (s.sum + value) / Float.ofNat (s.count + 1)
  last := time

/-- What a text says about a summary so far. -/
structure Draft where
  /-- The number of samples. -/
  count : Option Nat := none
  /-- The least value. -/
  min : Option Float := none
  /-- The greatest value. -/
  max : Option Float := none
  /-- The sum. -/
  sum : Option Float := none
  /-- The mean. -/
  mean : Option Float := none
  /-- The time of the last sample. -/
  last : Option Timestamp := none

namespace Draft

/-- The fields of a summary in order. -/
def table : List (Decoder.Field Draft) :=
  [.of "count" Draft.count (fun d v ↦ { d with count := some v }) .natural,
   .of "min" Draft.min (fun d v ↦ { d with min := some v }) .float,
   .of "max" Draft.max (fun d v ↦ { d with max := some v }) .float,
   .of "sum" Draft.sum (fun d v ↦ { d with sum := some v }) .float,
   .of "mean" Draft.mean (fun d v ↦ { d with mean := some v }) .float,
   .of "last" Draft.last (fun d v ↦ { d with last := some v }) .timestamp]

/-- The summary of a draft. Every part is required. -/
def summary (d : Draft) : Except Refusal Summary := do
  let count ← Decoder.required d.count
  let min ← Decoder.required d.min
  let max ← Decoder.required d.max
  let sum ← Decoder.required d.sum
  let mean ← Decoder.required d.mean
  let last ← Decoder.required d.last
  return { count, min, max, sum, mean, last }

end Draft

/-- The decoder of a summary. -/
def decoder : Decoder Summary := fun n ↦ do
  Draft.summary (← Decoder.record Draft.table {} n)

/-- A summary as JSON. -/
def json (s : Summary) : Value :=
  .object
    [("count", .natural s.count),
     ("min", .float s.min),
     ("max", .float s.max),
     ("sum", .float s.sum),
     ("mean", .float s.mean),
     ("last", .ofTimestamp s.last)]

end Summary

end Conveyor.Metrics
