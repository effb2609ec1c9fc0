import Conveyor.Proofs.Phases
import Conveyor.Proofs.Pool.Rest

/-!
# The phases of a pool

As with the pipeline, the lifecycle of a pool is what the calls make of it in the order in which they
were issued (`lifecycle_of_runs`), since a call that has to wait comes to a pool that is stopped
already (`InTurn.stopped`).
-/

namespace Conveyor.Moderation.Pool

open Time

variable {policy : Policy} {s t : State} {a : Action} {call : Call} {as : List Action}
  {notes new : List Note}

/-- A call that gets to work later than it was issued finds the pool stopped, so that it does not
matter when it does. -/
theorem InTurn.afterAll_of_beginning (h : InTurn s) (hbegun : s.beginning? a = some call) :
    s.lifecycle.afterAll (requests Action.call? [a]) = s.lifecycle.after call.request := by
  cases a with
  | issue other =>
    obtain ⟨-, rfl⟩ := State.lock_of_beginning_issue hbegun
    rfl
  | step x now =>
    have hgranted := State.lock_of_beginning_step hbegun
    rw [h.stopped (by simp [hgranted]), Lifecycle.stopped_after]
    rfl
  | _ => simp [State.beginning?] at hbegun

/-! ### The lifecycle -/

/-- A call that gets to work moves the lifecycle. -/
theorem Change.lifecycle_of_beginning (h : Change policy s a t new)
    (hbegun : s.beginning? a = some call) : t.lifecycle = s.lifecycle.after call.request := by
  cases h with
  | start begun request created =>
    obtain rfl : _ = call := Option.some.inj (begun.symm.trans hbegun)
    rw [request, created]
    rfl
  | passBy begun nothing =>
    obtain rfl : _ = call := Option.some.inj (begun.symm.trans hbegun)
    rcases nothing with ⟨hstart, hcreated⟩ | ⟨hstop, hstopped⟩
    · rw [hstart, Lifecycle.after_start_of_ne_created hcreated]
    · rw [hstop, Lifecycle.after_stop]
      exact hstopped
  | close begun request | discard begun request =>
    obtain rfl : _ = call := Option.some.inj (begun.symm.trans hbegun)
    rw [request, Lifecycle.after_stop]
  | leaveResults nothing =>
    rcases nothing with ⟨rfl, -⟩ | ⟨rfl, -⟩ | ⟨rfl, -⟩ <;> simp [State.beginning?] at hbegun
  | wait busy => simp [State.beginning?, Turns.entering?] at hbegun
  | passWorker held | reportDeath held | finishCall held =>
    exact absurd held (State.not_held_of_beginning hbegun _ _)
  | _ => simp [State.beginning?] at hbegun

/-- Nothing else moves it. -/
theorem Change.lifecycle_of_not_beginning (h : Change policy s a t new)
    (hnone : s.beginning? a = none) : t.lifecycle = s.lifecycle := by
  cases h with
  | start begun | passBy begun | close begun | discard begun => simp [begun] at hnone
  | _ => rfl

/-- Only a call that is issued moves the lifecycle. -/
theorem Change.lifecycle_eq (hturn : InTurn s) (h : Change policy s a t new) :
    t.lifecycle = s.lifecycle.afterAll (requests Action.call? [a]) := by
  rcases hbegun : s.beginning? a with - | call
  · rw [h.lifecycle_of_not_beginning hbegun]
    cases a with
    | issue call =>
      -- The call has to wait, and so it comes to a service that is stopped.
      have hbusy : s.turns.lock ≠ .free := fun hfree ↦ by
        simp [State.beginning?, Turns.entering?, hfree] at hbegun
      show s.lifecycle = s.lifecycle.after call.request
      rw [hturn.stopped hbusy, Lifecycle.stopped_after]
    | _ => rfl
  · rw [hturn.afterAll_of_beginning hbegun, h.lifecycle_of_beginning hbegun]

/-- The lifecycle is what the calls make of it in the order in which they were issued. -/
theorem lifecycle_of_runs (hs : s.Coupled) (hturn : InTurn s)
    (h : Runs (State.act · policy) s as t notes) :
    t.lifecycle = s.lifecycle.afterAll (requests Action.call? as) := by
  refine h.lifecycle_eq State.lifecycle fun run act_eq ↦ ?_
  exact ((hs.of_runs run).change act_eq).lifecycle_eq (hturn.of_runs hs run)

/-- A pool is stopped as soon as a call of `stop` is issued. -/
theorem stopped_iff_of_runs (hs : s.Coupled) (hturn : InTurn s)
    (h : Runs (State.act · policy) s as t notes) (hlife : s.lifecycle ≠ .stopped) :
    t.lifecycle = .stopped ↔ ∃ id, .issue ⟨id, .stop⟩ ∈ as := by
  rw [lifecycle_of_runs hs hturn h, Lifecycle.afterAll_eq_stopped_iff, or_iff_right hlife,
    mem_requests_iff Action.call?_eq_some_iff]

/-- A new pool whose lock nobody holds. -/
theorem InTurn.of_new (workers capacity : Nat) : InTurn (.new workers capacity) :=
  .of_calls_eq_nil rfl rfl

/-- A call that was issued has not returned yet, or its return is in the history. -/
theorem mem_calls_or_returned (hs : s.Coupled) (h : Runs (State.act · policy) s as t notes)
    (hissued : .issue call ∈ as) : call ∈ t.turns.calls ∨ .returned call.id ∈ notes := by
  refine h.mem_calls_or_returned State.turns (·.lifecycle = .stopped) .returned
    (fun run act_eq ↦ ?_) ((mem_extract_iff Action.call?_eq_some_iff).2 hissued)
  exact ((hs.of_runs run).change act_eq).turns (hs.of_runs run)

end Conveyor.Moderation.Pool
