import Conveyor.Proofs.Phases
import Conveyor.Proofs.Pipeline.Delivery

/-!
# Draining before a stop returns

No call of `stop` returns before the task has ended and every admitted event was offered to every
sink, whichever of several calls it is. The main statement is `drained_of_returned`.

## Why the second caller waits too

The call that closes the queue keeps the lock until the task is over, and a call that comes to the
lock later begins only when the lock is given to it. So a call that finds the pipeline stopped finds
the task over (`State.Coupled.draining`), and returns no earlier than the first.

## What stays

A pipeline that is stopped stays so and admits nothing (`State.Coupled.stopped_of_runs`), and a task
that has ended calls no sink again (`State.Coupled.ended_of_runs`). Both follow from one look at
every move.
-/

namespace Conveyor.Pipeline

variable {σ : Type}

/-- The action kills no sink. -/
def Action.isHarmless : Action σ → Bool
  | .step (.reply .died) => false
  | _ => true

/-- The call that is issued. -/
@[simp] def Action.call? : Action σ → Option Call
  | .issue call => some call
  | _ => none

/-- The calls with this number are calls of `stop`. -/
def IsStop (as : List (Action σ)) (id : Nat) : Prop :=
  ∀ call, .issue call ∈ as → call.id = id → call.request = .stop

namespace State

/-- The pipeline is stopped, and nobody empties its queue any more. -/
def IsDrained (s : State σ) : Prop := s.lifecycle = .stopped ∧ s.task.isAlive = false

/-- The pipeline has not been stopped, and no call waits at it. -/
structure IsOpen (s : State σ) : Prop where
  /-- The pipeline has not been stopped. -/
  lifecycle : s.lifecycle ≠ .stopped
  /-- No call holds the lock. -/
  lock : s.turns.lock = .free
  /-- No call waits for the lock. -/
  waiting : s.turns.waiting = []

end State

@[simp] theorem started_not_mem_callNext (e : Event) (rest : List σ) :
    .started ∉ callNext e rest := by
  cases rest <;> simp [callNext]

@[simp] theorem returned_not_mem_callNext (id : Nat) (e : Event) (rest : List σ) :
    .returned id ∉ callNext e rest := by
  cases rest <;> simp [callNext]

theorem Action.call?_eq_some_iff {a : Action σ} {call : Call} :
    a.call? = some call ↔ a = .issue call := by
  cases a <;> simp

section Moves

variable {s t : State σ} {a : Action σ} {x : Step} {call c : Call} {as : List (Action σ)}
  {notes new : List (Note σ)}

/-! ### What stays -/

/-- A stopped pipeline stays stopped, admits nothing and is not started. -/
theorem Move.of_stopped (hs : s.Coupled) (h : Move s a t new) (hstopped : s.lifecycle = .stopped) :
    t.lifecycle = .stopped ∧ admitted new = [] ∧ .started ∉ new := by
  cases h with
  | accept high taken => exact absurd taken (hs.admission_ne_ok hstopped)
  | _ => simp_all

/-- A task that has ended stays so and calls no sink. -/
theorem Move.of_ended (hs : s.Coupled) (h : Move s a t new) (hended : s.task = .ended) :
    t.task = .ended ∧ calls new = [] := by
  have hstopped := hs.ended hended
  cases h <;> simp_all

/-- A pipeline that is drained stays so. -/
theorem Move.of_drained (hs : s.Coupled) (h : Move s a t new) (hdrained : s.IsDrained) :
    t.IsDrained := by
  obtain ⟨hstopped, hdead⟩ := hdrained
  refine ⟨(h.of_stopped hs hstopped).1, ?_⟩
  cases h with
  | start begun request created => simp [hstopped] at created
  | pull idle => simp [idle, Task.isAlive] at hdead
  | reply calling => simp [calling, Task.isAlive] at hdead
  | die => rfl
  | finish => rfl
  | _ => exact hdead

/-- A pipeline that was started stays so. -/
theorem Move.of_born (h : Move s a t new) (hborn : s.task ≠ .unborn) : t.task ≠ .unborn := by
  cases h with
  | start => simp
  | pull => exact Task.ne_unborn_of_isAlive (by simp)
  | reply => exact Task.ne_unborn_of_isAlive (by simp)
  | die => simp
  | finish => simp
  | _ => exact hborn

/-- What is so of a stopped pipeline after every run. -/
theorem State.Coupled.stopped_of_runs (hs : s.Coupled) (h : Runs State.act s as t notes)
    (hstopped : s.lifecycle = .stopped) :
    t.lifecycle = .stopped ∧ admitted notes = [] ∧ .started ∉ notes := by
  refine hs.runs_induction h
    (motive := fun _ t notes ↦ t.lifecycle = .stopped ∧ admitted notes = [] ∧ .started ∉ notes)
    ⟨hstopped, rfl, by simp⟩ ?_
  rintro as t notes a u new ht hmove ⟨ihstopped, ihadmitted, ihstarted⟩
  obtain ⟨hstopped, hadmitted, hstarted⟩ := hmove.of_stopped ht ihstopped
  exact ⟨hstopped, by simp [ihadmitted, hadmitted], by simp [ihstarted, hstarted]⟩

/-- What is so of a task that has ended after every run. -/
theorem State.Coupled.ended_of_runs (hs : s.Coupled) (h : Runs State.act s as t notes)
    (hended : s.task = .ended) : t.task = .ended ∧ calls notes = [] := by
  refine hs.runs_induction h
    (motive := fun _ t notes ↦ t.task = .ended ∧ calls notes = []) ⟨hended, rfl⟩ ?_
  rintro as t notes a u new ht hmove ⟨ihended, ihcalls⟩
  obtain ⟨hended, hcalls⟩ := hmove.of_ended ht ihended
  exact ⟨hended, by simp [ihcalls, hcalls]⟩

/-! ### What the history tells about the task -/

/-- The task exists if and only if the pipeline was started. -/
theorem started_mem_iff (capacity : Nat) (minLevel : Level)
    (h : Runs State.act (State.new capacity minLevel) as t notes) :
    .started ∈ notes ↔ t.task ≠ .unborn := by
  refine (State.Coupled.of_new capacity minLevel).runs_induction h
    (motive := fun _ t notes ↦ .started ∈ notes ↔ t.task ≠ .unborn) (by simp [State.new]) ?_
  intro as t notes a u new ht hmove ih
  rw [List.mem_append, ih]
  cases hmove with
  | start => simp
  | pull idle => simpa [idle] using Task.ne_unborn_of_isAlive (by simp)
  | reply calling => simpa [calling] using Task.ne_unborn_of_isAlive (by simp)
  | die calling => simp [calling]
  | finish idle => simp [idle]
  | _ => simp

/-- A task whose sinks do not die does not die. -/
theorem task_ne_failed (capacity : Nat) (minLevel : Level)
    (h : Runs State.act (State.new capacity minLevel) as t notes)
    (hharmless : ∀ a ∈ as, a.isHarmless = true) : t.task ≠ .failed := by
  refine (State.Coupled.of_new capacity minLevel).runs_induction h
    (motive := fun as t _ ↦ (∀ a ∈ as, a.isHarmless = true) → t.task ≠ .failed)
    (by simp [State.new]) ?_ hharmless
  intro as t notes a u new ht hmove ih hharmless
  have hbefore := ih fun x hx ↦ hharmless x (List.mem_append_left _ hx)
  cases hmove with
  | pull | reply => exact Task.turnTo_ne_failed _ _ _
  | die => simpa [Action.isHarmless] using hharmless (.step (.reply .died)) (by simp)
  | start => simp
  | finish => simp
  | _ => exact hbefore

/-! ### Calls that take turns -/

/-- The call that gets to work in a step was handed the lock. -/
theorem State.lock_of_beginning_step (h : s.beginning? (.step x) = some call) :
    s.turns.lock = .granted call := by
  cases x <;> simp [beginning?] at h
  exact Turns.lock_of_granted h

/-- The call that gets to work when it is issued finds the lock free. -/
theorem State.lock_of_beginning_issue (h : s.beginning? (.issue call) = some c) :
    s.turns.lock = .free ∧ c = call :=
  Turns.lock_of_entering h

/-- It is the turn of the call that gets to work. -/
theorem State.serves_of_beginning (hbegun : s.beginning? a = some call) :
    s.turns.Serves a.call? call := by
  cases a with
  | issue other =>
    obtain ⟨hlock, rfl⟩ := State.lock_of_beginning_issue hbegun
    exact .enters hlock
  | step x => exact .granted (State.lock_of_beginning_step hbegun)
  | _ => simp [State.beginning?] at hbegun

/-- A call that gets to work is issued in the action or has waited for the lock. -/
theorem State.mem_calls_of_beginning (hbegun : s.beginning? a = some call) :
    a = .issue call ∨ call ∈ s.turns.calls :=
  (State.serves_of_beginning hbegun).mem_calls.imp_left Action.call?_eq_some_iff.1

/-- What a move does at the lock. A call of `stop` that returns has stopped the pipeline. -/
theorem Move.turns (hs : s.Coupled) (h : Move s a t new) :
    s.turns.Goes (.returned · ∈ new) (t.lifecycle = .stopped) a.call? t.turns := by
  cases h with
  | wait busy => exact .joins busy (by simp)
  | start begun request =>
    exact .returns (State.serves_of_beginning begun) (by simp) (by simp [request])
  | passBy begun nothing =>
    exact .returns (State.serves_of_beginning begun) (by simp) fun hstop ↦ by
      simpa [hstop] using nothing
  | close begun => exact .waits (State.serves_of_beginning begun) (by simp)
  | discard begun => exact .returns (State.serves_of_beginning begun) (by simp) fun _ ↦ rfl
  | finishCall held | reportDeath held =>
    exact .returns (.inside held) (by simp) fun _ ↦ (hs.held _ held).1
  | _ => exact .idle (by simp)

/-! ### Calls that return -/

/-- The calls that have not returned were issued. -/
theorem issue_mem_of_mem_calls (hs : s.Coupled) (hfree : s.turns.calls = [])
    (h : Runs State.act s as t notes) : ∀ call ∈ t.turns.calls, .issue call ∈ as := by
  refine hs.runs_induction h (motive := fun as t _ ↦ ∀ call ∈ t.turns.calls, .issue call ∈ as)
    (by simp [hfree]) ?_
  intro as t notes a u new ht hmove ih call hcall
  rcases (hmove.turns ht).mem_calls hcall with hissued | hold
  · simp [Action.call?_eq_some_iff.1 hissued]
  · exact List.mem_append_left _ (ih call hold)

/-- The call that returns in a move was issued in it or before, and if it is a call of `stop`, the
pipeline is stopped and nobody empties its queue any more. -/
theorem Move.of_returned (hs : s.Coupled) (h : Move s a t new) {id : Nat}
    (hreturned : .returned id ∈ new) :
    ∃ call : Call, call.id = id ∧ (a = .issue call ∨ call ∈ s.turns.calls) ∧
      (call.request = .stop → t.lifecycle = .stopped ∧ t.task.isAlive = false) := by
  cases h with
  | @start a call begun request created =>
    obtain rfl : id = call.id := by simpa using hreturned
    exact ⟨call, rfl, State.mem_calls_of_beginning begun, by simp [request]⟩
  | @passBy a call begun nothing =>
    obtain rfl : id = call.id := by simpa using hreturned
    refine ⟨call, rfl, State.mem_calls_of_beginning begun, fun hstop ↦ ?_⟩
    have hstopped : s.lifecycle = .stopped := by simpa [hstop] using nothing
    refine ⟨hstopped, ?_⟩
    -- A task that is alive would keep the lock held, and then this call had not begun.
    rw [← Bool.not_eq_true]
    intro halive
    obtain ⟨other, hheld⟩ := hs.draining hstopped halive
    exact State.not_held_of_beginning begun other hheld
  | @discard a call begun request created =>
    obtain rfl : id = call.id := by simpa using hreturned
    have hunborn := (hs.created created).2.2
    exact ⟨call, rfl, State.mem_calls_of_beginning begun, by simp [hunborn, Task.isAlive]⟩
  | @finishCall call held ended =>
    obtain rfl : id = call.id := by simpa using hreturned
    exact ⟨call, rfl, .inr (Turns.mem_calls_of_held held),
      fun _ ↦ ⟨(hs.held call held).1, by simp [ended, Task.isAlive]⟩⟩
  | @reportDeath call held failed =>
    obtain rfl : id = call.id := by simpa using hreturned
    exact ⟨call, rfl, .inr (Turns.mem_calls_of_held held),
      fun _ ↦ ⟨(hs.held call held).1, by simp [failed, Task.isAlive]⟩⟩
  | _ => simp at hreturned

/-- Once a call of `stop` has returned, the pipeline is drained. -/
theorem State.Coupled.isDrained_of_returned (hs : s.Coupled) (hfree : s.turns.calls = [])
    (h : Runs State.act s as t notes) {id : Nat} (hid : IsStop as id)
    (hreturned : .returned id ∈ notes) : t.IsDrained := by
  induction h with
  | refl => exact absurd hreturned List.not_mem_nil
  | @tail as u notes a t new run act_eq ih =>
    have hu := hs.of_runs run
    have hmove := hu.move act_eq
    rcases List.mem_append.1 hreturned with hbefore | hnow
    · have hearlier : IsStop as id := fun call hcall ↦ hid call (List.mem_append_left _ hcall)
      exact hmove.of_drained hu (ih hearlier hbefore)
    · obtain ⟨call, hcallid, hissued, hdrained⟩ := hmove.of_returned hu hnow
      refine hdrained (hid call ?_ hcallid)
      rcases hissued with rfl | hcall
      · exact List.mem_append_right _ List.mem_cons_self
      · exact List.mem_append_left _ (issue_mem_of_mem_calls hs hfree run call hcall)

/-- A call that gets to work moves the lifecycle. -/
theorem Move.lifecycle_of_beginning (h : Move s a t new) (hbegun : s.beginning? a = some call) :
    t.lifecycle = s.lifecycle.after call.request := by
  cases h with
  | start begun request created =>
    obtain rfl : _ = call := Option.some.inj (begun.symm.trans hbegun)
    rw [request, created]
    rfl
  | passBy begun nothing =>
    obtain rfl : _ = call := Option.some.inj (begun.symm.trans hbegun)
    rcases nothing with ⟨hstart, hcreated⟩ | ⟨hstop, hstopped⟩
    · rw [hstart, Lifecycle.after_start_of_ne_created hcreated]
    · rw [hstop, Lifecycle.after_stop]
      exact hstopped
  | close begun request | discard begun request =>
    obtain rfl : _ = call := Option.some.inj (begun.symm.trans hbegun)
    rw [request, Lifecycle.after_stop]
  | wait busy => simp [State.beginning?, Turns.entering?] at hbegun
  | finishCall held | reportDeath held =>
    exact absurd held (State.not_held_of_beginning hbegun _)
  | _ => simp [State.beginning?] at hbegun

/-- Nothing else moves it. -/
theorem Move.lifecycle_of_not_beginning (h : Move s a t new) (hnone : s.beginning? a = none) :
    t.lifecycle = s.lifecycle := by
  cases h with
  | start begun | passBy begun | close begun | discard begun => simp [begun] at hnone
  | _ => rfl

/-- A call of `stop` that gets to work leaves the pipeline stopped. -/
theorem Move.of_beginning_stop (h : Move s a t new) {call : Call}
    (hbegun : s.beginning? a = some call) (hstop : call.request = .stop) :
    t.lifecycle = .stopped := by
  rw [h.lifecycle_of_beginning hbegun, hstop, Lifecycle.after_stop]

/-! ### A pipeline that was not stopped -/

/-- Nothing but a call of `stop` closes a pipeline or makes its calls wait. -/
theorem Move.of_open (h : Move s a t new) (hopen : s.IsOpen)
    (ha : ∀ id, a ≠ .issue ⟨id, .stop⟩) : t.IsOpen := by
  obtain ⟨hlife, hlock, hwaiting⟩ := hopen
  have hreleased : s.turns.release = ⟨.free, []⟩ := by simp [Turns.release, hwaiting]
  -- Only the call that is issued can get to work, and it does not stop.
  have hstart {call : Call} (hbegun : s.beginning? a = some call) : call.request = .start := by
    cases a with
    | issue other =>
      rw [State.beginning?, Turns.entering?, hlock, Option.some.injEq] at hbegun
      rcases other with ⟨id, - | -⟩
      · rw [← hbegun]
      · exact absurd rfl (ha id)
    | step x => cases x <;> simp [State.beginning?, Turns.granted?, hlock] at hbegun
    | _ => simp [State.beginning?] at hbegun
  cases h with
  | wait busy => exact absurd hlock busy
  | start => exact ⟨by simp, by rw [hreleased], by rw [hreleased]⟩
  | passBy => exact ⟨hlife, by rw [hreleased], by rw [hreleased]⟩
  | close begun request | discard begun request => simp [hstart begun] at request
  | finishCall held | reportDeath held => simp [hlock] at held
  | _ => exact ⟨hlife, hlock, hwaiting⟩

/-- A call of `start` to an open pipeline finds it started or starts it. -/
theorem Move.born_of_start (hs : s.Coupled) {id : Nat} (h : Move s (.issue ⟨id, .start⟩) t new)
    (hopen : s.IsOpen) : t.task ≠ .unborn := by
  cases h with
  | wait busy => exact absurd hopen.lock busy
  | start => simp
  | passBy begun nothing =>
    obtain rfl := (State.lock_of_beginning_issue begun).2
    have hcreated : s.lifecycle ≠ .created := by simpa using nothing
    rcases hlife : s.lifecycle with - | - | -
    · exact absurd hlife hcreated
    · exact (hs.running hlife).2.2
    · exact absurd hlife hopen.lifecycle
  | close begun request | discard begun request =>
    obtain rfl := (State.lock_of_beginning_issue begun).2
    simp at request

/-- A pipeline stays open in a run without calls of `stop`. -/
theorem State.Coupled.open_of_runs (hs : s.Coupled) (h : Runs State.act s as t notes)
    (hopen : s.IsOpen) (has : ∀ id, .issue ⟨id, .stop⟩ ∉ as) : t.IsOpen := by
  refine hs.runs_induction h
    (motive := fun as t _ ↦ (∀ id, .issue ⟨id, .stop⟩ ∉ as) → t.IsOpen) (fun _ ↦ hopen) ?_ has
  intro as t notes a u new ht hmove ih has
  refine hmove.of_open (ih fun id hid ↦ has id (List.mem_append_left _ hid)) fun id ha ↦ ?_
  exact has id (by simp [ha])

/-- A pipeline that was started stays so in every run. -/
theorem State.Coupled.born_of_runs (hs : s.Coupled) (h : Runs State.act s as t notes)
    (hborn : s.task ≠ .unborn) : t.task ≠ .unborn :=
  hs.runs_induction h (motive := fun _ t _ ↦ t.task ≠ .unborn) hborn
    fun _ hmove ih ↦ hmove.of_born ih

end Moves

/-! ### The statement -/

section Statement

variable {capacity : Nat} {minLevel : Level} {before after : List (Action σ)} {a : Action σ}
  {s t u : State σ} {past now later : List (Note σ)}

/-- **Drain.** In a run of a pipeline that is started at some time, whose sinks do not die, look at
an action `a` and at all that is done before and after it. If a call of `stop` returns in it, the
task has ended, every event that was accepted so far was offered to every registered sink and all of
them have answered, and no sink is called again. If a call of `stop` gets to work in it, nothing is
accepted any more. -/
theorem drained_of_returned
    (hbefore : (State.new capacity minLevel).run before = some (s, past))
    (hact : s.act a = some (t, now)) (hafter : t.run after = some (u, later))
    (hharmless : ∀ x ∈ before ++ a :: after, x.isHarmless = true)
    (hstarted : .started ∈ past ++ now ++ later) :
    (∀ id, IsStop (before ++ [a]) id → .returned id ∈ now →
      t.task = .ended ∧
        calls (past ++ now) =
          deliveries ((State.new capacity minLevel).enlisted (before ++ [a]))
            ((State.new capacity minLevel).accepted (before ++ [a])) ∧
        (replies (before ++ [a])).length = (calls (past ++ now)).length ∧
        calls later = []) ∧
    (∀ call, s.beginning? a = some call → call.request = .stop →
      t.accepted after = [] ∧ admitted later = []) := by
  have hnew : (State.new capacity minLevel : State σ).Coupled := .of_new capacity minLevel
  have hpast := State.run_iff.1 hbefore
  have hlater := State.run_iff.1 hafter
  have hs : s.Coupled := hnew.of_runs hpast
  have hmove : Move s a t now := hs.move hact
  have ht : t.Coupled := hs.of_move hmove
  have hruns : Runs State.act (State.new capacity minLevel) (before ++ [a]) t (past ++ now) :=
    hpast.tail hact
  constructor
  · intro id hid hreturned
    obtain ⟨call, hcallid, hissued, hstopped⟩ := hmove.of_returned hs hreturned
    have hrequest : call.request = .stop := by
      refine hid call ?_ hcallid
      rcases hissued with rfl | hcall
      · simp
      · exact List.mem_append_left _ (issue_mem_of_mem_calls hnew rfl hpast call hcall)
    obtain ⟨hlife, hdead⟩ := hstopped hrequest
    -- The start lies before the return, since a stopped pipeline is not started.
    have hborn : t.task ≠ .unborn := by
      refine (started_mem_iff capacity minLevel hruns).1 ?_
      rcases List.mem_append.1 hstarted with hearlier | hafterwards
      · exact hearlier
      · exact absurd hafterwards (ht.stopped_of_runs hlater hlife).2.2
    have hfailed : t.task ≠ .failed := by
      refine task_ne_failed capacity minLevel hruns fun x hx ↦ hharmless x ?_
      rw [List.append_cons]
      exact List.mem_append_left _ hx
    have hended : t.task = .ended := by
      cases htask : t.task <;> simp_all [Task.isAlive]
    have hcalls : calls (past ++ now) = deliveries t.sinks (admitted (past ++ now)) := by
      have hledger := Ledger.of_runs capacity minLevel hruns
      have hbalance := hledger.balance_of_isLossless ⟨hfailed, fun _ ↦ hborn⟩
      simpa [State.remaining, hended] using hbalance
    obtain ⟨answered, hanswered, hlength, -⟩ :=
      Answered.of_runs (fun _ ↦ "") capacity minLevel hruns
    refine ⟨hended, ?_, ?_, (ht.ended_of_runs hlater hended).2⟩
    · rw [accepted_eq hnew hruns, enlisted_eq hnew hruns,
        (Ledger.of_runs capacity minLevel hruns).sinks, hcalls]
    · simp [hanswered, hended, Task.outstanding, hlength]
  · intro call hbegun hstop
    have hlife := hmove.of_beginning_stop hbegun hstop
    have hadmitted := (ht.stopped_of_runs hlater hlife).2.1
    exact ⟨(accepted_eq ht hlater).trans hadmitted, hadmitted⟩

end Statement

/-- Two calls of `stop` while a sink has not answered; the second one has got the lock at last. -/
def sampleDrain : List (Action Nat) :=
  [.register 0, .register 1, .issue ⟨0, .start⟩, .enqueue (sampleEvent .info "a"), .step .pull,
    .enqueue (sampleEvent .info "b"), .issue ⟨1, .stop⟩, .issue ⟨2, .stop⟩,
    .step (.reply .delivered), .step (.reply .delivered), .step .pull,
    .step (.reply (.failed (.status 500))), .step (.reply .delivered), .step .finish, .step .resume]

theorem drained_of_returned_sample : ∃ s past t now u later,
    (State.new 4 .info).run sampleDrain = some (s, past) ∧
      s.act (.step .resume) = some (t, now) ∧
      t.run [.enqueue (sampleEvent .info "c"), .issue ⟨3, .start⟩] = some (u, later) ∧
      (∀ x ∈ sampleDrain ++ .step .resume ::
        [.enqueue (sampleEvent .info "c"), .issue ⟨3, .start⟩], x.isHarmless = true) ∧
      .started ∈ past ++ now ++ later ∧
      (IsStop (sampleDrain ++ [.step .resume]) 2 ∧ .returned 2 ∈ now) ∧
      (s.beginning? (.step .resume) = some ⟨2, .stop⟩) ∧
      (t.task = .ended ∧
        calls (past ++ now) =
          deliveries [0, 1] [sampleEvent .info "a", sampleEvent .info "b"] ∧
        (replies (sampleDrain ++ [.step .resume])).length = (calls (past ++ now)).length ∧
        calls later = []) ∧
      t.accepted [.enqueue (sampleEvent .info "c"), .issue ⟨3, .start⟩] = [] ∧
      admitted later = [] := by
  have hruns : ∃ s past t now u later,
      (State.new 4 .info).run sampleDrain = some (s, past) ∧
        s.act (.step .resume) = some (t, now) ∧
        t.run [.enqueue (sampleEvent .info "c"), .issue ⟨3, .start⟩] = some (u, later) ∧
        .started ∈ past ++ now ++ later ∧ .returned 2 ∈ now ∧
        s.beginning? (.step .resume) = some ⟨2, .stop⟩ :=
    ⟨_, _, _, _, _, _, rfl, rfl, rfl, by decide, by decide, rfl⟩
  obtain ⟨s, past, t, now, u, later, hbefore, hact, hafter, hstarted, hreturned, hbegun⟩ := hruns
  have hharmless : ∀ x ∈ sampleDrain ++ .step .resume ::
      [.enqueue (sampleEvent .info "c"), .issue ⟨3, .start⟩], x.isHarmless = true := by
    simp [sampleDrain, Action.isHarmless]
  have hstop : IsStop (sampleDrain ++ [.step .resume]) 2 := by
    intro call hcall hid
    simp only [sampleDrain, List.cons_append, List.nil_append, List.mem_cons, Action.issue.injEq,
      reduceCtorEq, false_or, List.not_mem_nil, or_false] at hcall
    rcases hcall with rfl | rfl | rfl
    · simp at hid
    · rfl
    · rfl
  have hdrained := drained_of_returned hbefore hact hafter hharmless hstarted
  exact ⟨s, past, t, now, u, later, hbefore, hact, hafter, hharmless, hstarted,
    ⟨hstop, hreturned⟩, hbegun, hdrained.1 2 hstop hreturned, hdrained.2 _ hbegun rfl⟩

end Conveyor.Pipeline
