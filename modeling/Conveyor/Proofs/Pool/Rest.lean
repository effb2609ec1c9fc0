import Conveyor.Moderation.Rota
import Conveyor.Proofs.Pool.Calls

/-!
# A pool comes to rest

Left to itself a pool makes finitely many steps, for each of them takes something of its weight
(`Change.weight_lt`). When no step is possible any more, no call is left that has not returned
(`State.Coupled.calls_eq_nil`), and if the pool is stopped, nobody in its crew is alive and nobody
has an end of the queue or a sending end of the channel (`State.Coupled.finished`).

Both rest on what is so of the lock of a pool (`InTurn`): it is taken only by a call that has
stopped the pool, and that call turns to one worker after the other and no further.
-/

namespace Conveyor.Moderation.Pool

open Time

/-- No step is possible, whatever the time. -/
def State.AtRest (s : State) (policy : Policy) : Prop := ∀ x now, s.step policy now x = none

/-- The pool is stopped, or a call of `stop` with this number has not returned. -/
def State.Stopping (s : State) (id : Nat) : Prop :=
  s.lifecycle = .stopped ∨ ⟨id, .stop⟩ ∈ s.turns.calls

/-- What is so of the lock. -/
structure InTurn (s : State) : Prop where
  /-- Calls wait only while another call has the lock. -/
  order : s.turns.InOrder
  /-- A call keeps the lock or passes it on only when the pool is stopped. -/
  stopped : s.turns.lock ≠ .free → s.lifecycle = .stopped
  /-- A call waits for a worker, or for none when it has waited for all. -/
  place : ∀ call i, s.turns.lock = .held call i → i ≤ s.crew.length

section Changes

variable {policy : Policy} {s t : State} {a : Action} {x : Step} {now : Timestamp} {call c : Call}
  {as : List Action} {notes new : List Note}

/-! ### The lock -/

namespace InTurn

/-- A pool whose lock is free. -/
theorem of_calls_eq_nil (hfree : s.turns.lock = .free) (hnone : s.turns.waiting = []) :
    InTurn s where
  order _ := hnone
  stopped h := absurd hfree h
  place _ _ h := by simp [hfree] at h

/-- Nobody waits at the lock of a pool that was not started. -/
theorem lock_of_created (h : InTurn s) (hcreated : s.lifecycle = .created) :
    s.turns.lock = .free := by
  cases hlock : s.turns.lock with
  | free => rfl
  | _ => simp [h.stopped (by simp [hlock])] at hcreated

/-- The call that has the lock gives it up. -/
theorem of_release (hturns : t.turns = s.turns.release)
    (hstopped : t.turns.lock ≠ .free → t.lifecycle = .stopped) : InTurn t where
  order := hturns ▸ Turns.inOrder_release _
  stopped := hstopped
  place call i h := absurd (hturns ▸ h) (s.turns.lock_release_ne_held call i)

/-- Every change keeps the lock in turn. -/
theorem of_change (h : InTurn s) (hs : s.Coupled) (hchange : Change policy s a t new) :
    InTurn t := by
  have horder := (hchange.turns hs).inOrder h.order
  cases hchange with
  | wait busy => exact ⟨horder, h.stopped, h.place⟩
  | start begun request created =>
    have hnone := h.order (h.lock_of_created created)
    exact of_release rfl fun hbusy ↦ absurd (Turns.lock_release_of_waiting_nil hnone) hbusy
  | passBy begun nothing =>
    refine of_release rfl fun hbusy ↦ h.stopped fun hfree ↦ ?_
    exact hbusy (Turns.lock_release_of_waiting_nil (h.order hfree))
  | close =>
    refine ⟨horder, fun _ ↦ rfl, fun other i hheld ↦ ?_⟩
    simp only [Turns.lock_hold, Lock.held.injEq] at hheld
    omega
  | discard => exact of_release rfl fun _ ↦ rfl
  | @passWorker other i _ held left | @reportDeath other i _ held dead =>
    refine ⟨horder, fun _ ↦ (hs.held other i held).2.1, fun other k hheld ↦ ?_⟩
    have hi := (List.getElem?_eq_some_iff.1 ‹s.crew[i]? = some _›).1
    simp only [Turns.lock_hold, Lock.held.injEq] at hheld
    show k ≤ s.crew.length
    omega
  | @finishCall other i _ held => exact of_release rfl fun _ ↦ (hs.held other i held).2.1
  | arrive | pull | offer | drop | die | dieLast | leave =>
    refine ⟨horder, h.stopped, fun other i hheld ↦ ?_⟩
    simpa [State.setWorker] using h.place other i hheld
  | _ => exact ⟨horder, h.stopped, h.place⟩

theorem of_runs (h : InTurn s) (hs : s.Coupled) (hruns : Runs (State.act · policy) s as t notes) :
    InTurn t := by
  refine hs.runs_induction hruns (motive := fun _ t _ ↦ InTurn t) h ?_
  intro as t notes a u new ht hchange ih
  exact ih.of_change ht hchange

end InTurn

/-! ### The weight -/

/-- The number of workers is settled from the start. -/
theorem Change.workers_eq (h : Change policy s a t new) : t.workers = s.workers := by
  cases h <;> rfl

/-- What the workers of a crew count in the bound on the number of steps. -/
def crewWeight (crew : List Worker) : Nat := crew.foldr (fun w n ↦ w.weight + n) 0

theorem crewWeight_replicate (n : Nat) : crewWeight (List.replicate n .arriving) = n * 2 := by
  induction n with
  | zero => rfl
  | succ n ih =>
    rw [List.replicate_succ, crewWeight, List.foldr_cons, ← crewWeight, ih, Worker.weight]
    omega

/-- One worker of the crew changes. -/
theorem crewWeight_set {crew : List Worker} {i : Nat} {old : Worker} (h : crew[i]? = some old)
    (w : Worker) : crewWeight (crew.set i w) + old.weight = crewWeight crew + w.weight := by
  induction crew generalizing i with
  | nil => simp at h
  | cons v crew ih =>
    cases i with
    | zero =>
      obtain rfl : v = old := by simpa using h
      simp only [List.set_cons_zero, crewWeight, List.foldr_cons]
      omega
    | succ i =>
      have hrest := ih (by simpa using h)
      simp only [List.set_cons_succ, crewWeight, List.foldr_cons] at hrest ⊢
      omega

theorem State.weight_eq (s : State) :
    s.weight =
      s.queue.length * 5 + s.channel.length * 2 + crewWeight s.crew +
        s.turns.weight (s.crew.length + 1) fun i ↦ s.crew.length + 1 - i := rfl

/-- What one worker does takes something of the weight if it does so where it happens: in the queue,
in the channel and at the worker. -/
theorem State.weight_lt_of_worker {i : Nat} {old w : Worker} (h : s.crew[i]? = some old)
    (hcrew : t.crew = s.crew.set i w) (hturns : t.turns = s.turns)
    (hless : t.queue.length * 5 + t.channel.length * 2 + w.weight <
      s.queue.length * 5 + s.channel.length * 2 + old.weight) : t.weight < s.weight := by
  have hset := crewWeight_set h w
  simp only [State.weight_eq, hcrew, hturns, List.length_set]
  omega

/-- Every step takes something of the weight. -/
theorem Change.weight_lt (hs : s.Coupled) (hturn : InTurn s)
    (h : Change policy s (.step x now) t new) : t.weight < s.weight := by
  have hrelease := s.turns.weight_release_le (s.crew.length + 1) fun i ↦ s.crew.length + 1 - i
  -- A call that was handed the lock finds the pool stopped, and has nothing to do.
  have hgranted {call : Call} (hbegun : s.beginning? (.step x now) = some call) :=
    hturn.stopped (by simp [State.lock_of_beginning_step hbegun])
  cases h with
  | leaveResults nothing => simp at nothing
  | start begun request created => simp [hgranted begun] at created
  | passBy begun =>
    have hturns := Turns.weight_of_granted (s.crew.length + 1) (fun i ↦ s.crew.length + 1 - i)
      (State.lock_of_beginning_step begun)
    simp only [State.weight_eq]
    omega
  | close begun request running => simp [hgranted begun] at running
  | discard begun request created => simp [hgranted begun] at created
  | arrive arriving =>
    exact State.weight_lt_of_worker arriving rfl rfl (Nat.add_lt_add_left (by decide) _)
  | pull first next =>
    refine State.weight_lt_of_worker (hs.inLine_of_first first) rfl rfl ?_
    simp only [next, List.length_cons, Worker.weight, State.setWorker]
    omega
  | offer busy =>
    refine State.weight_lt_of_worker busy rfl rfl ?_
    simp only [List.length_append, List.length_singleton, Worker.weight, State.setWorker]
    omega
  | drop busy =>
    exact State.weight_lt_of_worker busy rfl rfl (Nat.add_lt_add_left (by simp [Worker.weight]) _)
  | die busy =>
    exact State.weight_lt_of_worker busy rfl rfl (Nat.add_lt_add_left (by simp [Worker.weight]) _)
  | dieLast busy =>
    refine State.weight_lt_of_worker busy rfl rfl ?_
    simp only [List.length_nil, Worker.weight, State.setWorker]
    omega
  | leave first =>
    exact State.weight_lt_of_worker (hs.inLine_of_first first) rfl rfl
      (Nat.add_lt_add_left (by decide) _)
  | @passWorker other i _ held left | @reportDeath other i _ held dead =>
    have hi := (List.getElem?_eq_some_iff.1 ‹s.crew[i]? = some _›).1
    have hturns := Turns.weight_of_held (s.crew.length + 1) (fun i ↦ s.crew.length + 1 - i) held
    simp only [State.weight_eq, Turns.weight_hold]
    omega
  | @finishCall other i _ held all =>
    have hi := hturn.place other i held
    have hturns := Turns.weight_of_held (s.crew.length + 1) (fun i ↦ s.crew.length + 1 - i) held
    simp only [State.weight_eq]
    omega

/-- A call that is issued adds little to the weight: it may set the crew to work, or join the
line. -/
theorem Change.weight_le (hs : s.Coupled) (hturn : InTurn s)
    (h : Change policy s (.issue call) t new) : t.weight ≤ s.weight + (s.workers * 2 + 2) := by
  have hrelease := s.turns.weight_release_le (s.crew.length + 1) fun i ↦ s.crew.length + 1 - i
  have hpos := hs.workers_pos
  have hcrew : s.crew.length ≤ s.workers := by
    by_cases hcrew : s.crew = []
    · simp [hcrew]
    · exact Nat.le_of_eq (hs.crewed hcrew)
  cases h with
  | leaveResults => omega
  | wait busy =>
    simp only [State.weight_eq, Turns.weight_queue]
    omega
  | start begun request created =>
    have hnone := hturn.order (State.lock_of_beginning_issue begun).1
    simp only [State.weight_eq, Turns.weight, Turns.release, hnone, crewWeight_replicate,
      List.length_nil, Nat.zero_mul]
    omega
  | passBy begun =>
    have hturns := Turns.weight_of_free (s.crew.length + 1) (fun i ↦ s.crew.length + 1 - i)
      (State.lock_of_beginning_issue begun).1
    simp only [State.weight_eq]
    omega
  | close begun =>
    have hturns := Turns.weight_of_free (s.crew.length + 1) (fun i ↦ s.crew.length + 1 - i)
      (State.lock_of_beginning_issue begun).1
    simp only [State.weight_eq, Turns.weight_hold]
    omega
  | discard begun =>
    have hturns := Turns.weight_of_free (s.crew.length + 1) (fun i ↦ s.crew.length + 1 - i)
      (State.lock_of_beginning_issue begun).1
    simp only [State.weight_eq, List.length_nil, Nat.zero_mul]
    omega

/-! ### Calls that wait -/

/-- A pool that is stopped stays so. -/
theorem Change.of_stopped (h : Change policy s a t new) (hstopped : s.lifecycle = .stopped) :
    t.lifecycle = .stopped := by
  cases h <;> simp_all [State.setWorker]

/-- A call of `stop` stops the pool in time, and it stays stopped. -/
theorem Change.stopping (hs : s.Coupled) (h : Change policy s a t new) {id : Nat}
    (hstop : s.Stopping id ∨ a = .issue ⟨id, .stop⟩) : t.Stopping id := by
  have hcall (hc : a.call? = some ⟨id, .stop⟩ ∨ ⟨id, .stop⟩ ∈ s.turns.calls) : t.Stopping id :=
    ((h.turns hs).stays hc).symm.imp_left fun hreturned ↦ hreturned.2 rfl
  rcases hstop with (hstopped | hwaiting) | rfl
  · exact .inl (h.of_stopped hstopped)
  · exact hcall (.inr hwaiting)
  · exact hcall (.inl rfl)

/-! ### At rest -/

/-- A worker of a stopped pool can go on as long as it is alive. -/
theorem State.Coupled.unmanned_of_atRest (hs : s.Coupled) (hrest : s.AtRest policy)
    (hstopped : s.lifecycle = .stopped) : s.isManned = false := by
  rw [← Bool.not_eq_true, State.isManned_iff]
  rintro ⟨i, w, hw, halive⟩
  have hsender := (hs.stopped hstopped).1
  cases w with
  | arriving =>
    have harrive := hrest (.arrive i) .epoch
    simp [State.step, hw] at harrive
  | inLine =>
    -- The first in line can go on, whoever it is.
    rcases hline : s.line with - | ⟨first, line⟩
    · simpa [hline] using (hs.inLine i).2 hw
    rcases hqueue : s.queue with - | ⟨j, queue⟩
    · have hleave := hrest (.leave first) .epoch
      simp [State.step, hline, hqueue, hsender] at hleave
    · have hpull := hrest (.pull first) .epoch
      simp [State.step, hline, hqueue] at hpull
  | busy j =>
    have hjudge := hrest (.judge i) .epoch
    simp only [State.step, hw] at hjudge
    split at hjudge <;> simp at hjudge
  | left | dead => simp [Worker.isAlive] at halive

/-- Nobody has the lock of a pool at rest. -/
theorem State.Coupled.lock_eq_free (hs : s.Coupled) (hrest : s.AtRest policy) :
    s.turns.lock = .free := by
  have hresume := hrest .resume .epoch
  cases hlock : s.turns.lock with
  | free => rfl
  | granted call => simp [State.step, State.resume?, hlock] at hresume
  | held call i =>
    have hunmanned := hs.unmanned_of_atRest hrest (hs.held call i hlock).2.1
    simp only [State.step, State.resume?, hlock, State.await] at hresume
    split at hresume
    case h_4 w hleft hdead hw =>
      have halive : w.isAlive = true := by cases w <;> simp_all [Worker.isAlive]
      simp [State.isManned_iff.2 ⟨i, w, hw, halive⟩] at hunmanned
    all_goals simp at hresume

/-- Every call to a pool at rest has returned. -/
theorem State.Coupled.calls_eq_nil (hs : s.Coupled) (hturn : InTurn s)
    (hrest : s.AtRest policy) : s.turns.calls = [] :=
  hturn.order.calls_eq_nil (hs.lock_eq_free hrest)

/-- In a pool that is stopped and at rest nobody is left to take a job or to send a verdict. -/
theorem State.Coupled.finished (hs : s.Coupled) (hrest : s.AtRest policy)
    (hstopped : s.lifecycle = .stopped) :
    s.queue = [] ∧ s.isManned = false ∧ s.sends = false := by
  have hunmanned := hs.unmanned_of_atRest hrest hstopped
  have hreceives : s.receives = false := by
    simp [State.receives, (hs.stopped hstopped).2, hunmanned]
  refine ⟨hs.emptied hreceives, hunmanned, ?_⟩
  rcases hs.draining hstopped with ⟨call, i, hheld⟩ | houtlet
  · simp [hs.lock_eq_free hrest] at hheld
  · simp [State.sends, houtlet, hunmanned]

end Changes

end Conveyor.Moderation.Pool
