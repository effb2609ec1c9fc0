import Conveyor.Proofs.Pipeline.Drain

/-!
# What one sink is given

The deliveries of a pipeline go to all sinks, event by event. Of these a sink that was registered
once has each event once, so what it was given is, in order, the first of the events that were
admitted (`Ledger.given_isPrefix`), and all of them once a pipeline that was started is drained
(`Ledger.given_eq`).
-/

namespace Conveyor.Pipeline

variable {σ : Type}

/-! ### A history of registrations -/

section Registrations

variable (sinks : List σ)

@[simp] theorem registered_map : registered (sinks.map .registered) = sinks :=
  extract_map_eq_self (fun _ ↦ by rfl) sinks

@[simp] theorem admitted_map_registered :
    admitted (sinks.map (.registered : σ → Note σ)) = [] :=
  extract_map_eq_nil (fun _ ↦ by rfl) sinks

@[simp] theorem calls_map_registered : calls (sinks.map (.registered : σ → Note σ)) = [] :=
  extract_map_eq_nil (fun _ ↦ by rfl) sinks

/-- A pipeline at which sinks were registered, and nothing else has happened. -/
theorem Ledger.of_registered (capacity : Nat) (minLevel : Level) :
    Ledger { State.new capacity minLevel with sinks } (sinks.map .registered) where
  sinks := registered_map sinks
  created _ := admitted_map_registered sinks
  unborn _ := calls_map_registered sinks
  balance := by
    rw [calls_map_registered, admitted_map_registered]
    exact ⟨[], rfl, fun _ ↦ rfl⟩

end Registrations

/-! ### What one sink is given -/

variable [DecidableEq σ] {sink : σ} {s : State σ} {notes : List (Note σ)}

/-- The event in a call of this sink. -/
def givenBy? (sink : σ) (call : σ × Event) : Option Event :=
  if call.1 = sink then some call.2 else none

/-- The events that a sink was given, in order. -/
def given (sink : σ) (notes : List (Note σ)) : List Event :=
  extract (givenBy? sink) (calls notes)

@[simp] theorem given_append (sink : σ) (notes later : List (Note σ)) :
    given sink (notes ++ later) = given sink notes ++ given sink later := by
  simp only [given, extract_append]

/-- A sink is given an event as often as it occurs among the sinks. -/
theorem extract_givenBy_map (sinks : List σ) (e : Event) :
    extract (givenBy? sink) (sinks.map (·, e)) = List.replicate (sinks.count sink) e := by
  induction sinks with
  | nil => rfl
  | cons first rest ih =>
    rw [List.map_cons, extract_cons, ih, givenBy?, List.count_cons]
    by_cases hfirst : first = sink
    · simp [hfirst, List.replicate_succ]
    · simp [hfirst]

/-- Of the deliveries of events each sink that is there once has each event once. -/
theorem extract_givenBy_deliveries {sinks : List σ} (honce : sinks.count sink = 1)
    (es : List Event) : extract (givenBy? sink) (deliveries sinks es) = es := by
  induction es with
  | nil => rfl
  | cons e es ih =>
    rw [deliveries_cons, extract_append, extract_givenBy_map, honce, ih]
    rfl

namespace Ledger

/-- A sink was given the first of the events that were admitted. -/
theorem given_isPrefix (hl : Ledger s notes) (honce : s.sinks.count sink = 1) :
    given sink notes <+: admitted notes := by
  have hprefix := hl.calls_isPrefix.filterMap (givenBy? sink)
  rwa [← extract, ← extract, extract_givenBy_deliveries honce] at hprefix

/-- When a pipeline that was started is drained, a sink was given all events that were admitted. -/
theorem given_eq (hl : Ledger s notes) (honce : s.sinks.count sink = 1) (hdrained : s.IsDrained)
    (hborn : s.task ≠ .unborn) (hfailed : s.task ≠ .failed) :
    given sink notes = admitted notes := by
  have hremaining : s.remaining = [] := by
    have hdead := hdrained.2
    rw [State.remaining]
    split
    case h_1 hunborn => exact absurd hunborn hborn
    case h_2 hidle => simp [hidle, Task.isAlive] at hdead
    case h_3 hcalling => simp [hcalling, Task.isAlive] at hdead
    case h_4 => rfl
  have hbalance := hl.balance_of_isLossless ⟨hfailed, fun _ ↦ hborn⟩
  rw [hremaining, List.append_nil] at hbalance
  rw [given, hbalance, extract_givenBy_deliveries honce]

end Ledger

end Conveyor.Pipeline
