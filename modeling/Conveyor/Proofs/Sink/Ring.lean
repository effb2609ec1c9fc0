import Mathlib.Data.List.DropRight
import Conveyor.Sink.Ring

/-!
# The ring is a sliding window

What a ring answers to calls that come in order, of which some give it an event and the others read
from it. The main statement is `window_of_calls`: at every moment it shows the latest of the events
that it was given by then, as many as it has places for, and nothing else of the past can be seen.

A ring looks for room by an equality: it drops its oldest event only when exactly as many are kept
as there are places. That this is enough is a matter of the whole history, for it never has too
many. So the invariant says what is kept and not only how many (`Shows`); one call keeps it and is
answered from it (`Shows.call`), and so do all of them (`Shows.perform`).
-/

namespace Conveyor.Sink.Ring

/-! ### Calls -/

/-- A call of a ring. -/
inductive Call where
  /-- An event is put into the ring. -/
  | push (e : Event)
  /-- The ring is given an event as a sink. -/
  | consume (e : Event)
  /-- The events kept are read. -/
  | recent
  /-- Their number is read. -/
  | size
  /-- The ring is asked whether it keeps none. -/
  | isEmpty

/-- What a call returns. -/
inductive Answer where
  /-- Nothing. -/
  | done
  /-- What a sink replies. -/
  | reply (r : Reply)
  /-- Events, oldest first. -/
  | events (es : List Event)
  /-- A number of events. -/
  | number (n : Nat)
  /-- Whether something is so. -/
  | truth (b : Bool)
  deriving DecidableEq

/-- The event that a call gives to the ring. -/
def Call.event? : Call → Option Event
  | push e => some e
  | consume e => some e
  | _ => none

/-- The events that calls give to a ring, in order. -/
def given (calls : List Call) : List Event := calls.filterMap Call.event?

/-- Makes a call. -/
def call (r : Ring) : Call → Answer × Ring
  | .push e => (.done, r.push e)
  | .consume e => (.reply (r.consume e).1, (r.consume e).2)
  | .recent => (.events r.recent, r)
  | .size => (.number r.size, r)
  | .isEmpty => (.truth r.isEmpty, r)

/-- Makes calls one after the other. -/
def perform (r : Ring) : List Call → List Answer × Ring
  | [] => ([], r)
  | c :: calls =>
    let (answer, r) := r.call c
    let (answers, r) := r.perform calls
    (answer :: answers, r)

/-! ### What a window shows -/

/-- What a call is answered where at most `capacity` of the events of the past are kept. -/
def Call.answer (capacity : Nat) (past : List Event) : Call → Answer
  | push _ => .done
  | consume _ => .reply .delivered
  | recent => .events (past.rtake capacity)
  | size => .number (min capacity past.length)
  | isEmpty => .truth past.isEmpty

/-- The ring shows the latest events of the past, as many as it has places for. -/
structure Shows (capacity : Nat) (past : List Event) (r : Ring) : Prop where
  /-- The ring has as many places. -/
  capacity_eq : r.capacity = capacity
  /-- There is at least one. -/
  capacity_pos : 0 < capacity
  /-- The latest events are kept, in order. -/
  recent : r.recent = past.rtake capacity

theorem length_rtake {α : Type} (n : Nat) (xs : List α) :
    (xs.rtake n).length = min n xs.length := by
  rw [List.rtake, List.length_drop]
  omega

theorem given_cons (c : Call) (calls : List Call) :
    given (c :: calls) = c.event?.toList ++ given calls := by
  rw [given, List.filterMap_cons]
  cases c.event? <;> rfl

namespace Shows

variable {capacity n : Nat} {past : List Event} {r : Ring} {calls : List Call}

/-- A new ring shows nothing. -/
theorem of_ofCapacity (n : Nat) : Shows (ofCapacity n).capacity [] (ofCapacity n) where
  capacity_eq := rfl
  capacity_pos := by
    rw [ofCapacity]
    split
    · exact Nat.zero_lt_succ _
    · exact Nat.pos_of_ne_zero ‹_›
  recent := (List.rtake_nil _).symm

theorem size_eq (h : Shows capacity past r) : r.size = min capacity past.length := by
  rw [size, h.recent, length_rtake]

/-- A ring with a place shows nothing as long as there is no past, and only then. -/
theorem isEmpty_eq (h : Shows capacity past r) : r.isEmpty = past.isEmpty := by
  have hpos := h.capacity_pos
  rw [isEmpty, h.recent, Bool.eq_iff_iff, List.isEmpty_iff_length_eq_zero,
    List.isEmpty_iff_length_eq_zero, length_rtake]
  omega

/-- An event that is put in takes the place of the oldest one if there is no other place. -/
theorem push (h : Shows capacity past r) (e : Event) : Shows capacity (past ++ [e]) (r.push e) where
  capacity_eq := h.capacity_eq
  capacity_pos := h.capacity_pos
  recent := by
    have hpos := h.capacity_pos
    have hsize := h.size_eq
    have hroom : r.size ≤ r.capacity := by
      rw [hsize, h.capacity_eq]
      exact Nat.min_le_left _ _
    have hkept : past.length - capacity ≤ past.length := Nat.sub_le _ _
    rw [recent_push r e hroom (h.capacity_eq ▸ hpos), h.recent, h.capacity_eq, hsize, List.rtake,
      ← List.drop_append_of_le_length hkept, List.drop_drop, List.rtake, List.length_append,
      List.length_singleton]
    congr 1
    omega

/-- A call is answered from the events of the past, and adds the one that it gives. -/
theorem call (h : Shows capacity past r) (c : Call) :
    (r.call c).1 = c.answer capacity past ∧
      Shows capacity (past ++ c.event?.toList) (r.call c).2 := by
  have hsame : Shows capacity (past ++ []) r := by rwa [List.append_nil]
  cases c with
  | push e => exact ⟨rfl, h.push e⟩
  | consume e => exact ⟨rfl, h.push e⟩
  | recent => exact ⟨congrArg Answer.events h.recent, hsame⟩
  | size => exact ⟨congrArg Answer.number h.size_eq, hsame⟩
  | isEmpty => exact ⟨congrArg Answer.truth h.isEmpty_eq, hsame⟩

/-- Each of the calls is answered from the events of the past and those that the calls before it
gave. -/
theorem perform (h : Shows capacity past r) (calls : List Call) :
    Shows capacity (past ++ given calls) (r.perform calls).2 ∧
      ∀ before c after, calls = before ++ c :: after →
        (r.perform calls).1[before.length]? = some (c.answer capacity (past ++ given before)) := by
  induction calls generalizing past r with
  | nil =>
    refine ⟨?_, fun before c after hsplit ↦ ?_⟩
    · show Shows capacity (past ++ []) r
      rwa [List.append_nil]
    · exact absurd hsplit.symm (List.append_ne_nil_of_right_ne_nil _ (List.cons_ne_nil _ _))
  | cons c calls ih =>
    obtain ⟨hanswer, hnext⟩ := h.call c
    obtain ⟨hlast, hanswers⟩ := ih hnext
    rw [List.append_assoc, ← given_cons] at hlast
    refine ⟨hlast, fun before d after hsplit ↦ ?_⟩
    rcases before with - | ⟨b, before⟩
    · obtain ⟨rfl, -⟩ := List.cons.inj hsplit
      rw [given, List.filterMap_nil, List.append_nil, ← hanswer]
      rfl
    · obtain ⟨rfl, hrest⟩ := List.cons.inj hsplit
      have hlater := hanswers before d after hrest
      rw [List.append_assoc, ← given_cons] at hlater
      exact hlater

end Shows

/-- Events that are put into a new ring in order leave the latest of them in it. -/
theorem recent_foldl_push (n : Nat) (es : List Event) :
    (es.foldl push (ofCapacity n)).recent = es.rtake (ofCapacity n).capacity := by
  rw [← pushAll_eq_foldl _ _ (Nat.zero_le _) (Shows.of_ofCapacity n).capacity_pos]
  rfl

/-! ### The statement -/

/-- What a ring that was asked for `n` places shows after calls, and what it answered. -/
structure SlidingWindow (n : Nat) (calls : List Call) (answers : List Answer) (r : Ring) :
    Prop where
  /-- The ring has the places that it was asked for, or as many as usual if it was asked for none.
  -/
  capacity_eq : r.capacity = if n = 0 then defaultCapacity else n
  /-- It has at least one. -/
  capacity_pos : 1 ≤ r.capacity
  /-- The latest of the events that it was given are kept, oldest first and as they were given. -/
  recent : r.recent = (given calls).rtake r.capacity
  /-- They are as many as there are places, or all if there are fewer. -/
  size : r.size = min r.capacity (given calls).length
  /-- The ring is empty as long as no event was given. -/
  isEmpty : r.isEmpty = true ↔ (given calls).length = 0
  /-- There is an answer to each call. -/
  length_answers : answers.length = calls.length
  /-- Each call was answered by what such a window shows of the events given before it; a sink never
  fails. -/
  answers : ∀ before c after, calls = before ++ c :: after →
    answers[before.length]? = some (c.answer r.capacity (given before))
  /-- Calls that only read change nothing. -/
  reading : ∀ reads, given reads = [] → (r.perform reads).2 = r
  /-- The number of events kept never gets smaller. -/
  size_le : ∀ later, r.size ≤ (r.perform later).2.size

theorem length_perform (r : Ring) (calls : List Call) :
    (r.perform calls).1.length = calls.length := by
  induction calls generalizing r with
  | nil => rfl
  | cons c calls ih => exact congrArg Nat.succ (ih _)

/-- A call that gives no event leaves the ring as it is. -/
theorem call_of_event?_eq_none (r : Ring) {c : Call} (h : c.event? = none) : (r.call c).2 = r := by
  cases c with
  | push e => exact absurd h (Option.some_ne_none e)
  | consume e => exact absurd h (Option.some_ne_none e)
  | _ => rfl

theorem perform_of_given_eq_nil (r : Ring) {calls : List Call} (h : given calls = []) :
    (r.perform calls).2 = r := by
  have hnone : ∀ c ∈ calls, c.event? = none := List.filterMap_eq_nil_iff.1 h
  clear h
  induction calls generalizing r with
  | nil => rfl
  | cons c calls ih =>
    obtain ⟨hfirst, hrest⟩ := List.forall_mem_cons.1 hnone
    show ((r.call c).2.perform calls).2 = r
    rw [r.call_of_event?_eq_none hfirst, ih r hrest]

/-- **A sliding window.** Whatever was asked of a new ring and in whichever order, it keeps the
latest of the events that it was given, and answers every call by them. -/
theorem window_of_calls (n : Nat) (calls : List Call) :
    SlidingWindow n calls ((ofCapacity n).perform calls).1 ((ofCapacity n).perform calls).2 := by
  obtain ⟨hlast, hanswers⟩ := (Shows.of_ofCapacity n).perform calls
  rw [List.nil_append] at hlast
  have hcapacity := hlast.capacity_eq
  exact {
    capacity_eq := hcapacity
    capacity_pos := hcapacity ▸ hlast.capacity_pos
    recent := hcapacity ▸ hlast.recent
    size := hcapacity ▸ hlast.size_eq
    isEmpty := by rw [hlast.isEmpty_eq, List.isEmpty_iff_length_eq_zero]
    length_answers := length_perform _ calls
    answers := fun before c after hsplit ↦ hcapacity ▸ hanswers before c after hsplit
    reading := fun reads ↦ perform_of_given_eq_nil _
    size_le := fun later ↦ by
      rw [hlast.size_eq, (hlast.perform later).1.size_eq, List.length_append]
      omega }

end Conveyor.Sink.Ring
