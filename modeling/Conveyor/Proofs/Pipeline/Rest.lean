import Conveyor.Proofs.Pipeline.Drain

/-!
# A pipeline comes to rest

Left to itself a pipeline makes finitely many steps, for each of them takes something of its weight
(`Move.weight_lt`). When no step is possible any more, no call is left that has not returned
(`State.Coupled.calls_eq_nil`), and if the pipeline is stopped, its queue is empty and its task over
(`State.Coupled.finished`).

A call of `stop` that has begun stops the pipeline, or has not returned yet (`Move.stopping`).
-/

namespace Conveyor.Pipeline

variable {σ : Type}

/-- A bound on the number of steps that the task makes without taking another event. -/
def Task.weight : Task σ → Nat
  | idle _ => 1
  | calling _ _ _ rest => rest.length + 2
  | _ => 0

/-- A bound on the number of steps that are possible before a client acts again. -/
def State.weight (s : State σ) : Nat :=
  s.queue.length * (s.sinks.length + 2) + s.turns.weight 1 (fun _ ↦ 1) + s.task.weight

/-- No step is possible. -/
def State.AtRest (s : State σ) : Prop := ∀ x, s.step x = none

/-- The pipeline is stopped, or a call of `stop` with this number has not returned. -/
def State.Stopping (s : State σ) (id : Nat) : Prop :=
  s.lifecycle = .stopped ∨ ⟨id, .stop⟩ ∈ s.turns.calls

theorem Task.weight_turnTo_le (sinks : List σ) (e : Event) (rest : List σ) :
    (turnTo sinks e rest).weight ≤ rest.length + 1 := by
  cases rest <;> simp [turnTo, weight]

section Moves

variable {s t : State σ} {a : Action σ} {x : Step} {call c : Call} {as : List (Action σ)}
  {notes new : List (Note σ)}

/-! ### The weight -/

/-- Every step takes something of the weight. -/
theorem Move.weight_lt (hs : s.Coupled) (h : Move s (.step x) t new) : t.weight < s.weight := by
  have hrelease := s.turns.weight_release_le 1 fun _ ↦ 1
  cases h with
  | start begun | passBy begun =>
    have hturns := Turns.weight_of_granted 1 (fun _ ↦ 1) (State.lock_of_beginning_step begun)
    simp only [State.weight, Task.weight]
    omega
  | close begun =>
    have hturns := Turns.weight_of_granted 1 (fun _ ↦ 1) (State.lock_of_beginning_step begun)
    simp only [State.weight, Turns.weight_hold]
    omega
  | discard begun =>
    have hturns := Turns.weight_of_granted 1 (fun _ ↦ 1) (State.lock_of_beginning_step begun)
    simp only [State.weight, List.length_nil, Nat.zero_mul]
    omega
  | @pull sinks e queue idle next =>
    have hsinks : sinks = s.sinks := hs.sinks sinks (by simp [idle, Task.sinks?])
    have htask := Task.weight_turnTo_le sinks e sinks
    rw [hsinks] at htask
    have hidle : s.task.weight = 1 := by rw [idle, Task.weight]
    simp only [State.weight, hsinks, next, List.length_cons, Nat.add_one_mul]
    omega
  | @reply sinks e sink rest r calling alive =>
    have htask := Task.weight_turnTo_le sinks e rest
    have hcalling : s.task.weight = rest.length + 2 := by rw [calling, Task.weight]
    simp only [State.weight]
    omega
  | die calling =>
    simp only [State.weight, calling, Task.weight, List.length_nil, Nat.zero_mul]
    omega
  | finish idle =>
    simp only [State.weight, idle, Task.weight]
    omega
  | finishCall held | reportDeath held =>
    have hturns := Turns.weight_of_held 1 (fun _ ↦ 1) held
    simp only [State.weight]
    omega

/-- A call that is issued adds little to the weight. -/
theorem Move.weight_le (h : Move s (.issue call) t new) : t.weight ≤ s.weight + 3 := by
  have hrelease := s.turns.weight_release_le 1 fun _ ↦ 1
  cases h with
  | wait busy =>
    simp only [State.weight, Turns.weight_queue]
    omega
  | start begun | passBy begun =>
    have hturns := Turns.weight_of_free 1 (fun _ ↦ 1) (State.lock_of_beginning_issue begun).1
    simp only [State.weight, Task.weight]
    omega
  | close begun =>
    have hturns := Turns.weight_of_free 1 (fun _ ↦ 1) (State.lock_of_beginning_issue begun).1
    simp only [State.weight, Turns.weight_hold]
    omega
  | discard begun =>
    have hturns := Turns.weight_of_free 1 (fun _ ↦ 1) (State.lock_of_beginning_issue begun).1
    simp only [State.weight, List.length_nil, Nat.zero_mul]
    omega

/-! ### Calls that wait -/

/-- Calls wait only while another call has the lock. -/
theorem State.Coupled.inOrder_of_runs (hs : s.Coupled) (hfree : s.turns.InOrder)
    (h : Runs State.act s as t notes) : t.turns.InOrder := by
  refine hs.runs_induction h (motive := fun _ t _ ↦ t.turns.InOrder) hfree ?_
  intro as t notes a u new ht hmove ih
  exact (hmove.turns ht).inOrder ih

/-- A call of `stop` stops the pipeline in time, and it stays stopped. -/
theorem Move.stopping (hs : s.Coupled) (h : Move s a t new) {id : Nat}
    (hstop : s.Stopping id ∨ a = .issue ⟨id, .stop⟩) : t.Stopping id := by
  have hcall (hc : a.call? = some ⟨id, .stop⟩ ∨ ⟨id, .stop⟩ ∈ s.turns.calls) : t.Stopping id :=
    ((h.turns hs).stays hc).symm.imp_left fun hreturned ↦ hreturned.2 rfl
  rcases hstop with (hstopped | hwaiting) | rfl
  · exact .inl (h.of_stopped hs hstopped).1
  · exact hcall (.inr hwaiting)
  · exact hcall (.inl rfl)

/-! ### At rest -/

/-- The task of a stopped pipeline can go on as long as it is alive. -/
theorem State.Coupled.not_isAlive_of_atRest (hs : s.Coupled) (hrest : s.AtRest)
    (hstopped : s.lifecycle = .stopped) : s.task.isAlive = false := by
  have hsender := (hs.stopped hstopped).1
  cases htask : s.task with
  | idle sinks =>
    rcases hqueue : s.queue with - | ⟨e, queue⟩
    · have hfinish := hrest .finish
      simp [State.step, htask, hqueue, hsender] at hfinish
    · have hpull := hrest .pull
      simp [State.step, htask, hqueue] at hpull
  | calling sinks e sink rest =>
    have hreply := hrest (.reply .delivered)
    simp [State.step, htask] at hreply
  | _ => rfl

/-- Nobody has the lock of a pipeline at rest. -/
theorem State.Coupled.lock_eq_free (hs : s.Coupled) (hrest : s.AtRest) :
    s.turns.lock = .free := by
  have hresume := hrest .resume
  cases hlock : s.turns.lock with
  | free => rfl
  | granted call => simp [State.step, hlock] at hresume
  | held call on =>
    obtain ⟨hstopped, hborn⟩ := hs.held call hlock
    have hdead := hs.not_isAlive_of_atRest hrest hstopped
    cases htask : s.task <;> simp_all [State.step, Task.isAlive]

/-- Every call to a pipeline at rest has returned. -/
theorem State.Coupled.calls_eq_nil (hs : s.Coupled) (horder : s.turns.InOrder)
    (hrest : s.AtRest) : s.turns.calls = [] :=
  horder.calls_eq_nil (hs.lock_eq_free hrest)

/-- A pipeline that is stopped and at rest has delivered all there was. -/
theorem State.Coupled.finished (hs : s.Coupled) (hrest : s.AtRest)
    (hstopped : s.lifecycle = .stopped) : s.queue = [] ∧ s.task.isAlive = false := by
  have hdead := hs.not_isAlive_of_atRest hrest hstopped
  refine ⟨?_, hdead⟩
  cases htask : s.task with
  | unborn => exact hs.early hstopped htask
  | ended | failed => exact hs.emptied (by simp [htask, Task.isOver])
  | _ => simp [htask, Task.isAlive] at hdead

end Moves

end Conveyor.Pipeline
