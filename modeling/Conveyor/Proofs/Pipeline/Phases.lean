import Conveyor.Proofs.Phases
import Conveyor.Proofs.Pipeline.Drain

/-!
# The phases of a pipeline

How far a pipeline has come is told by the calls that were issued, whatever else happened and however
they took turns (`lifecycle_of_runs`). For a call that finds the lock free gets to work at once, and
one that has to wait comes to a pipeline that is stopped already (`InTurn.stopped`), where no call
changes anything.
-/

namespace Conveyor.Pipeline

variable {σ : Type} {s t : State σ} {a : Action σ} {call : Call} {as : List (Action σ)}
  {notes new : List (Note σ)}

/-! ### The lock -/

/-- What is so of the lock. -/
structure InTurn (s : State σ) : Prop where
  /-- Calls wait only while another call has the lock. -/
  order : s.turns.InOrder
  /-- A call keeps the lock or passes it on only when the pipeline is stopped. -/
  stopped : s.turns.lock ≠ .free → s.lifecycle = .stopped

namespace InTurn

/-- A new pipeline. -/
theorem of_new (capacity : Nat) (minLevel : Level) :
    InTurn (State.new capacity minLevel : State σ) where
  order _ := rfl
  stopped h := absurd rfl h

/-- The lock that is given up before the stop is free. -/
theorem release_of_not_stopped (h : InTurn s) (hlife : s.lifecycle ≠ .stopped) :
    s.turns.release.lock = .free := by
  have hfree : s.turns.lock = .free := Classical.byContradiction fun hbusy ↦ hlife (h.stopped hbusy)
  exact Turns.lock_release_of_waiting_nil (h.order hfree)

/-- Every move keeps the lock in turn. -/
theorem of_move (h : InTurn s) (hs : s.Coupled) (hmove : Move s a t new) : InTurn t := by
  refine ⟨(hmove.turns hs).inOrder h.order, fun hbusy ↦ ?_⟩
  cases hmove with
  | wait busy => exact h.stopped busy
  | start begun request created =>
    exact absurd (h.release_of_not_stopped (by rw [created]; decide)) hbusy
  | passBy begun nothing =>
    exact Classical.byContradiction fun hlife ↦ hbusy (h.release_of_not_stopped hlife)
  | close | discard => rfl
  | finishCall held | reportDeath held => exact (hs.held _ held).1
  | _ => exact h.stopped hbusy

theorem of_runs (h : InTurn s) (hs : s.Coupled) (hruns : Runs State.act s as t notes) :
    InTurn t := by
  refine hs.runs_induction hruns (motive := fun _ t _ ↦ InTurn t) h ?_
  intro as t notes a u new ht hmove ih
  exact ih.of_move ht hmove

/-- A call that gets to work later than it was issued finds the pipeline stopped, so that it does not
matter when it does. -/
theorem afterAll_of_beginning (h : InTurn s) (hbegun : s.beginning? a = some call) :
    s.lifecycle.afterAll (requests Action.call? [a]) = s.lifecycle.after call.request := by
  cases a with
  | issue other =>
    obtain ⟨-, rfl⟩ := State.lock_of_beginning_issue hbegun
    rfl
  | step x =>
    have hgranted := State.lock_of_beginning_step hbegun
    rw [h.stopped (by simp [hgranted]), Lifecycle.stopped_after]
    rfl
  | _ => simp [State.beginning?] at hbegun

end InTurn

/-! ### The lifecycle -/

/-- Only a call that is issued moves the lifecycle. -/
theorem Move.lifecycle_eq (hturn : InTurn s) (h : Move s a t new) :
    t.lifecycle = s.lifecycle.afterAll (requests Action.call? [a]) := by
  rcases hbegun : s.beginning? a with - | call
  · rw [h.lifecycle_of_not_beginning hbegun]
    cases a with
    | issue call =>
      -- The call has to wait, and so it comes to a service that is stopped.
      have hbusy : s.turns.lock ≠ .free := fun hfree ↦ by
        simp [State.beginning?, Turns.entering?, hfree] at hbegun
      show s.lifecycle = s.lifecycle.after call.request
      rw [hturn.stopped hbusy, Lifecycle.stopped_after]
    | _ => rfl
  · rw [hturn.afterAll_of_beginning hbegun, h.lifecycle_of_beginning hbegun]

/-- The lifecycle is what the calls make of it in the order in which they were issued. -/
theorem lifecycle_of_runs (hs : s.Coupled) (hturn : InTurn s) (h : Runs State.act s as t notes) :
    t.lifecycle = s.lifecycle.afterAll (requests Action.call? as) := by
  refine h.lifecycle_eq State.lifecycle fun run act_eq ↦ ?_
  exact ((hs.of_runs run).move act_eq).lifecycle_eq (hturn.of_runs hs run)

/-- A pipeline is stopped as soon as a call of `stop` is issued. -/
theorem stopped_iff_of_runs (hs : s.Coupled) (hturn : InTurn s) (h : Runs State.act s as t notes)
    (hlife : s.lifecycle ≠ .stopped) :
    t.lifecycle = .stopped ↔ ∃ id, .issue ⟨id, .stop⟩ ∈ as := by
  rw [lifecycle_of_runs hs hturn h, Lifecycle.afterAll_eq_stopped_iff, or_iff_right hlife,
    mem_requests_iff Action.call?_eq_some_iff]

/-- A call that was issued has not returned yet, or its return is in the history. -/
theorem mem_calls_or_returned (hs : s.Coupled) (h : Runs State.act s as t notes)
    (hissued : .issue call ∈ as) : call ∈ t.turns.calls ∨ .returned call.id ∈ notes := by
  refine h.mem_calls_or_returned State.turns (·.lifecycle = .stopped) .returned
    (fun run act_eq ↦ ?_) ((mem_extract_iff Action.call?_eq_some_iff).2 hissued)
  exact ((hs.of_runs run).move act_eq).turns (hs.of_runs run)

end Conveyor.Pipeline
