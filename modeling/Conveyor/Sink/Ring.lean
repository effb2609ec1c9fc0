import Conveyor.Event.Basic
import Conveyor.Sink.Basic

/-!
# The ring of recent events

A sink that keeps the latest events. At most `capacity` events are kept; a further one takes the
place of the oldest.
-/

namespace Conveyor.Sink

/-- The latest events, oldest first. -/
structure Ring where
  /-- How many events are kept at most. -/
  capacity : Nat
  /-- The events kept, oldest first. -/
  recent : List Event := []
  deriving DecidableEq

namespace Ring

/-- The capacity of a ring that is asked to keep nothing. -/
def defaultCapacity : Nat := 100

/-- The name of the sink in the log. -/
def name : String := "ring_buffer"

/-- An empty ring for the given number of events; zero stands for the usual number. -/
def ofCapacity (n : Nat) : Ring :=
  { capacity := if n = 0 then defaultCapacity else n }

/-- An empty ring of the usual size. -/
def default : Ring := ofCapacity defaultCapacity

/-- Keeps an event, in place of the oldest if the ring is full. -/
def push (r : Ring) (e : Event) : Ring :=
  { r with recent := (if r.recent.length = r.capacity then r.recent.tail else r.recent) ++ [e] }

/-- Takes an event as a sink: keeps it, and never fails. -/
def consume (r : Ring) (e : Event) : Reply × Ring := (.delivered, r.push e)

/-- Keeps events one after another: of all that were kept and the new ones, the latest. -/
def pushAll (r : Ring) (es : List Event) : Ring :=
  let all := r.recent ++ es
  { r with recent := all.drop (all.length - r.capacity) }

/-- The number of events kept. -/
def size (r : Ring) : Nat := r.recent.length

/-- No event is kept. -/
def isEmpty (r : Ring) : Bool := r.recent.isEmpty

@[simp] theorem capacity_push (r : Ring) (e : Event) : (r.push e).capacity = r.capacity := rfl

/-- In a ring that is not overfull only the latest events are left after a further one. -/
theorem recent_push (r : Ring) (e : Event) (h : r.size ≤ r.capacity) (hc : 0 < r.capacity) :
    (r.push e).recent = (r.recent ++ [e]).drop (r.size + 1 - r.capacity) := by
  unfold size at h ⊢
  unfold push
  split
  · rename_i full
    have one_over : r.recent.length + 1 - r.capacity = 1 := by omega
    have kept : 1 ≤ r.recent.length := by omega
    rw [one_over, List.drop_append_of_le_length kept, List.drop_one]
  · have none_over : r.recent.length + 1 - r.capacity = 0 := by omega
    rw [none_over, List.drop_zero]

/-- A ring that is not overfull does not become so. -/
theorem size_push_le (r : Ring) (e : Event) (h : r.size ≤ r.capacity) (hc : 0 < r.capacity) :
    (r.push e).size ≤ r.capacity := by
  unfold size at h ⊢
  rw [recent_push r e h hc]
  simp [size]
  omega

/-- Keeping events at once is keeping them one by one. -/
theorem pushAll_eq_foldl (r : Ring) (es : List Event) (h : r.size ≤ r.capacity)
    (hc : 0 < r.capacity) : r.pushAll es = es.foldl push r := by
  induction es generalizing r with
  | nil =>
    have none_over : r.recent.length - r.capacity = 0 := by
      unfold size at h
      omega
    simp [pushAll, none_over]
  | cons e es ih =>
    rw [List.foldl_cons, ← ih (r.push e) (size_push_le r e h hc) hc]
    unfold size at h
    have excess_le : r.recent.length + 1 - r.capacity ≤ (r.recent ++ [e]).length := by simp
    simp only [pushAll, recent_push r e h hc, capacity_push, size]
    rw [← List.drop_append_of_le_length excess_le, List.drop_drop, List.append_cons]
    congr 2
    simp
    omega

end Ring

end Conveyor.Sink
