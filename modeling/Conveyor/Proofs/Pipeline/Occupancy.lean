import Conveyor.Proofs.Pipeline.Drain

/-!
# Occupancy and exact admission

How many accepted events a pipeline holds that have not been delivered, and what exactly decides
about the next one. The main statement is `occupancy_of_run`: the queue keeps within its capacity,
all accepted events but one more than that have been offered to every sink and answered, and as long
as no sink has died the answer to an event depends on the lifecycle and the length of the queue
alone.

## Where an accepted event is

The invariant is `Stock`: the accepted events are, in order, those that are done with, the one in
the hands of the task, those in the queue, and those that were lost. An event that is pulled moves
from the queue into the hands of the task, and to those that are done with when its last sink has
answered, so the number of events that are not done with grows with an admission only. An event that
no sink is registered for is done with as soon as it is pulled.

That an event is done with means more than its place in this list: the calls for it are among those
that were made (`Stock.calls`) and answered (`Stock.length_deliveries_le`).
-/

namespace Conveyor.Pipeline

variable {σ : Type}

/-! ### The event in the hands of the task -/

namespace Task

/-- The event that is being dispatched. -/
def event? : Task σ → Option Event
  | calling _ e _ _ => some e
  | _ => none

/-- These calls were made for the event that is being dispatched, or for the one of which the task
died. -/
def HasBegun : Task σ → List (σ × Event) → Prop
  | calling sinks e sink rest, begun =>
    ∃ front, sinks = front ++ sink :: rest ∧ begun = (front ++ [sink]).map (·, e)
  | failed, _ => True
  | _, begun => begun = []

/-- The call that waits for its answer was made for the event that is being dispatched. -/
theorem HasBegun.length_outstanding_le {task : Task σ} {begun : List (σ × Event)}
    (h : task.HasBegun begun) : task.outstanding.length ≤ begun.length := by
  cases task with
  | calling sinks e sink rest =>
    obtain ⟨front, -, rfl⟩ := h
    simp [outstanding]
  | _ => simp [outstanding]

end Task

/-! ### The stock of accepted events -/

/-- The accepted events of a history by where they are: `done` are done with and `lost` were lost,
and the others are in the hands of the task and in the queue. -/
structure Stock (s : State σ) (notes : List (Note σ)) (done lost : List Event) : Prop where
  /-- The events are in the order of admission. -/
  admitted : admitted notes = done ++ s.task.event?.toList ++ s.queue ++ lost
  /-- The events that are done with were offered to every sink, and no later event was but the one
  that the task has or had in its hands. -/
  calls : ∃ begun, calls notes = deliveries s.sinks done ++ begun ∧ s.task.HasBegun begun
  /-- Without a task no event is done with. -/
  unborn : s.task = .unborn → done = []
  /-- Nothing is lost as long as the task lives and was not anticipated by a stop. -/
  lossless : s.IsLossless → lost = []
  /-- The queue keeps within its bound. -/
  queue_le : s.queue.length ≤ s.capacity
  /-- One event more than the queue takes is not done with. -/
  undone_le : (s.task.event?.toList ++ s.queue ++ lost).length ≤ s.capacity + 1

namespace Stock

variable {s t : State σ} {a : Action σ} {as : List (Action σ)} {notes new : List (Note σ)}
  {done lost : List Event}

/-- A new pipeline holds nothing. -/
theorem of_new (capacity : Nat) (minLevel : Level) :
    Stock (State.new capacity minLevel : State σ) [] [] [] where
  admitted := rfl
  calls := ⟨[], rfl, rfl⟩
  unborn _ := rfl
  lossless _ := rfl
  queue_le := Nat.zero_le _
  undone_le := Nat.zero_le _

/-- A move that leaves all events where they are. -/
theorem of_quiet (h : Stock s notes done lost) (hsinks : t.sinks = s.sinks)
    (hcapacity : t.capacity = s.capacity) (hqueue : t.queue = s.queue)
    (hevent : t.task.event? = s.task.event?)
    (hbegun : ∀ {begun}, s.task.HasBegun begun → t.task.HasBegun begun)
    (hunborn : t.task = .unborn → s.task = .unborn) (hlossless : t.IsLossless → s.IsLossless)
    (hnew : Pipeline.admitted new = [] ∧ Pipeline.calls new = []) :
    Stock t (notes ++ new) done lost where
  admitted := by simpa [hnew.1, hevent, hqueue] using h.admitted
  calls := by
    obtain ⟨begun, hcalls, hhas⟩ := h.calls
    exact ⟨begun, by simpa [hnew.2, hsinks] using hcalls, hbegun hhas⟩
  unborn ht := h.unborn (hunborn ht)
  lossless ht := h.lossless (hlossless ht)
  queue_le := by simpa [hqueue, hcapacity] using h.queue_le
  undone_le := by simpa [hqueue, hevent, hcapacity] using h.undone_le

/-- The task turns to the sinks of `rest`, after those of `front` were called for the event. -/
theorem of_turnTo (h : Stock s notes done lost) (halive : s.task.isAlive = true)
    {sinks front rest : List σ} {e : Event} {queue : List Event} (hsinks : sinks = s.sinks)
    (hfront : sinks = front ++ rest) (hheld : s.task.event?.toList ++ s.queue = e :: queue)
    (hcalls : Pipeline.calls notes = deliveries s.sinks done ++ front.map (·, e))
    (hqueue : queue.length ≤ s.capacity) (answers : List (Note σ))
    (hanswers : Pipeline.calls answers = [] ∧ Pipeline.admitted answers = []) :
    ∃ done lost, Stock { s with queue, task := .turnTo sinks e rest }
      (notes ++ (answers ++ callNext e rest)) done lost := by
  have hborn : s.task ≠ .unborn := Task.ne_unborn_of_isAlive halive
  have hlost : lost = [] := h.lossless
    ⟨by rintro hfailed; simp [hfailed, Task.isAlive] at halive, fun _ ↦ hborn⟩
  have hadmitted := h.admitted
  have hundone := h.undone_le
  rw [List.append_assoc done, hheld, hlost, List.append_nil] at hadmitted
  rw [hheld, hlost, List.append_nil, List.length_cons] at hundone
  rcases rest with - | ⟨sink, rest⟩
  · -- The last sink has answered, and the event is done with.
    refine ⟨done ++ [e], [], ?_⟩
    have hall : s.sinks = front := by rw [← hsinks, hfront, List.append_nil]
    exact {
      admitted := by simp [hadmitted, hanswers.2, callNext, Task.turnTo, Task.event?]
      calls := ⟨[], by simp [hcalls, hanswers.1, callNext, hall], rfl⟩
      unborn := by simp [Task.turnTo]
      lossless := fun _ ↦ rfl
      queue_le := hqueue
      undone_le := by
        simp only [Task.turnTo, Task.event?, Option.toList_none, List.nil_append, List.append_nil]
        exact Nat.le_succ_of_le hqueue }
  · refine ⟨done, [], ?_⟩
    exact {
      admitted := by simp [hadmitted, hanswers.2, callNext, Task.turnTo, Task.event?]
      calls := ⟨(front ++ [sink]).map (·, e), by simp [hcalls, hanswers.1, callNext],
        front, hfront, rfl⟩
      unborn := by simp [Task.turnTo]
      lossless := fun _ ↦ rfl
      queue_le := hqueue
      undone_le := by simpa [Task.turnTo, Task.event?] using hundone }

/-- Every move keeps the stock. -/
theorem of_move (hs : s.Coupled) (h : Stock s notes done lost) (hmove : Move s a t new) :
    ∃ done lost, Stock t (notes ++ new) done lost := by
  cases hmove with
  | register created =>
    have hunborn : s.task = .unborn := (hs.created created).2.2
    have hdone : done = [] := h.unborn hunborn
    obtain ⟨begun, hcalls, hhas⟩ := h.calls
    refine ⟨done, lost, ?_⟩
    exact {
      admitted := by simpa using h.admitted
      calls := ⟨begun, by simpa [hdone] using hcalls, hhas⟩
      unborn := h.unborn
      lossless := h.lossless
      queue_le := h.queue_le
      undone_le := h.undone_le }
  | @accept e high taken =>
    have hlost : lost = [] := h.lossless (State.isLossless_of_admission hs taken)
    have hroom := (State.admission_eq_ok_iff.1 taken).2.2
    obtain ⟨begun, hcalls, hhas⟩ := h.calls
    have hevent : s.task.event?.toList.length ≤ 1 := by cases s.task.event? <;> simp
    refine ⟨done, lost, ?_⟩
    exact {
      admitted := by simp [h.admitted, hlost]
      calls := ⟨begun, by simpa using hcalls, hhas⟩
      unborn := h.unborn
      lossless := h.lossless
      queue_le := by simpa using Nat.succ_le_of_lt hroom
      undone_le := by
        simp only [hlost, List.append_nil, List.length_append, List.length_cons, List.length_nil]
        omega }
  | start begun request created =>
    have hunborn : s.task = .unborn := (hs.created created).2.2
    refine ⟨done, lost, h.of_quiet rfl rfl rfl (by simp [hunborn, Task.event?]) ?_ (by simp)
      (fun _ ↦ ⟨by simp [hunborn], by simp [created]⟩) (by simp)⟩
    simp [hunborn, Task.HasBegun]
  | close begun request running =>
    exact ⟨done, lost, h.of_quiet rfl rfl rfl rfl id id
      (fun ht ↦ ⟨ht.1, by simp [running]⟩) (by simp)⟩
  | discard begun request created =>
    have hunborn : s.task = .unborn := (hs.created created).2.2
    obtain ⟨begun, hcalls, hhas⟩ := h.calls
    refine ⟨done, s.queue ++ lost, ?_⟩
    exact {
      admitted := by simp [h.admitted]
      calls := ⟨begun, by simpa using hcalls, hhas⟩
      unborn := h.unborn
      lossless := fun ht ↦ absurd hunborn (ht.2 rfl)
      queue_le := Nat.zero_le _
      undone_le := by simpa using h.undone_le }
  | @pull sinks e queue idle next =>
    have hsinks : sinks = s.sinks := hs.sinks sinks (by simp [idle, Task.sinks?])
    obtain ⟨begun, hcalls, hhas⟩ := h.calls
    obtain rfl : begun = [] := by simpa [idle, Task.HasBegun] using hhas
    have hqueue := h.queue_le
    rw [next, List.length_cons] at hqueue
    exact h.of_turnTo (by simp [idle, Task.isAlive]) hsinks (List.nil_append sinks).symm
      (by simp [idle, Task.event?, next]) hcalls (Nat.le_of_succ_le hqueue) [] (by simp)
  | @reply sinks e sink rest r calling alive =>
    have hsinks : sinks = s.sinks := hs.sinks sinks (by simp [calling, Task.sinks?])
    obtain ⟨begun, hcalls, hhas⟩ := h.calls
    obtain ⟨front, hfront, rfl⟩ : ∃ front, sinks = front ++ sink :: rest ∧
        begun = (front ++ [sink]).map (·, e) := by simpa [calling, Task.HasBegun] using hhas
    rw [List.append_cons] at hfront
    exact h.of_turnTo (by simp [calling, Task.isAlive]) hsinks hfront
      (by simp [calling, Task.event?]) hcalls h.queue_le [.replied sink e r] (by simp)
  | @die sinks e sink rest calling =>
    obtain ⟨begun, hcalls, -⟩ := h.calls
    refine ⟨done, e :: s.queue ++ lost, ?_⟩
    exact {
      admitted := by simp [h.admitted, calling, Task.event?]
      calls := ⟨begun, by simpa using hcalls, trivial⟩
      unborn := by simp
      lossless := fun ht ↦ absurd rfl ht.1
      queue_le := Nat.zero_le _
      undone_le := by simpa [calling, Task.event?] using h.undone_le }
  | finish idle empty closed =>
    refine ⟨done, lost, h.of_quiet rfl rfl rfl (by simp [idle, Task.event?]) ?_ (by simp)
      (fun _ ↦ ⟨by simp [idle], by simp [idle]⟩) (by simp)⟩
    simp [idle, Task.HasBegun]
  | _ => exact ⟨done, lost, h.of_quiet rfl rfl rfl rfl id id id (by simp)⟩

/-- The stock after every run. -/
theorem of_runs (capacity : Nat) (minLevel : Level)
    (h : Runs State.act (State.new capacity minLevel) as t notes) :
    ∃ done lost, Stock t notes done lost := by
  refine (State.Coupled.of_new capacity minLevel).runs_induction h
    (motive := fun _ t notes ↦ ∃ done lost, Stock t notes done lost)
    ⟨[], [], of_new capacity minLevel⟩ ?_
  rintro as t notes a u new ht hmove ⟨done, lost, ih⟩
  exact ih.of_move ht hmove

/-- The calls for the events that are done with have all been answered. -/
theorem length_deliveries_le (h : Stock s notes done lost) {name : σ → String}
    (hanswered : Answered name as s notes) :
    (deliveries s.sinks done).length ≤ (replies as).length := by
  obtain ⟨begun, hcalls, hbegun⟩ := h.calls
  obtain ⟨answered, hall, hlength, -⟩ := hanswered
  have houtstanding := hbegun.length_outstanding_le
  have hlengths := congrArg List.length (hcalls.symm.trans hall)
  simp only [List.length_append] at hlengths
  omega

end Stock

/-! ### What decides about an event -/

section Admission

variable {s t : State σ} {a : Action σ} {as : List (Action σ)} {notes new : List (Note σ)}

/-- No move changes the bound of the queue and the minimum level. -/
theorem Move.bounds_eq (h : Move s a t new) : t.capacity = s.capacity ∧ t.minLevel = s.minLevel := by
  cases h <;> exact ⟨rfl, rfl⟩

theorem bounds_of_runs (hs : s.Coupled) (h : Runs State.act s as t notes) :
    t.capacity = s.capacity ∧ t.minLevel = s.minLevel := by
  refine hs.runs_induction h
    (motive := fun _ t _ ↦ t.capacity = s.capacity ∧ t.minLevel = s.minLevel) ⟨rfl, rfl⟩ ?_
  rintro as t notes a u new ht hmove ⟨hcapacity, hlevel⟩
  exact ⟨hmove.bounds_eq.1.trans hcapacity, hmove.bounds_eq.2.trans hlevel⟩

/-- Both ends of the queue of a pipeline whose task has not died are there until it is stopped. -/
theorem State.Coupled.ends_of_not_stopped (hs : s.Coupled) (hfailed : s.task ≠ .failed)
    (hlife : s.lifecycle ≠ .stopped) : s.sender = true ∧ s.receives = true := by
  rcases hstate : s.lifecycle with - | - | -
  · obtain ⟨hsender, hreceiver, -⟩ := hs.created hstate
    exact ⟨hsender, by simp [State.receives, hreceiver]⟩
  · obtain ⟨hsender, -, hborn⟩ := hs.running hstate
    have hended : s.task ≠ .ended := fun hended ↦ hlife (hs.ended hended)
    have halive : s.task.isAlive = true := by
      cases htask : s.task <;> simp_all [Task.isAlive]
    exact ⟨hsender, by simp [State.receives, halive]⟩
  · exact absurd hstate hlife

/-- The answer to an event that is offered to the queue of a pipeline whose task has not died. -/
theorem State.Coupled.admission_eq (hs : s.Coupled) (hfailed : s.task ≠ .failed) :
    s.admission =
      if s.lifecycle = .stopped then .error (.closed queueName)
      else if s.queue.length < s.capacity then .ok ()
      else .error (.full queueName s.capacity) := by
  by_cases hlife : s.lifecycle = .stopped
  · simp [State.admission, State.admissionAt, (hs.stopped hlife).1, hlife]
  · obtain ⟨hsender, hreceives⟩ := hs.ends_of_not_stopped hfailed hlife
    simp [State.admission, State.admissionAt, hsender, hreceives, hlife]

end Admission

/-! ### The statement -/

/-- Where the accepted events are after a run of the pipeline `start`. -/
structure Occupancy (start : State σ) (as : List (Action σ)) (s : State σ)
    (notes : List (Note σ)) : Prop where
  /-- The queue keeps within its bound. -/
  queue_le : s.queue.length ≤ start.capacity
  /-- The accepted events are, in order, those that are done with, at most one that is being
  dispatched, those in the queue and those that were lost. Each event that is done with was offered
  to every enlisted sink, and all of them have answered. There are at most one more than the queue
  takes that are not done with, and events are lost only by a stop before the start and by the death
  of the task. -/
  undelivered : ∃ done lost,
    start.accepted as = done ++ (s.task.event?.toList ++ s.queue ++ lost) ∧
      deliveries (start.enlisted as) done <+: calls notes ∧
      (deliveries (start.enlisted as) done).length ≤ (replies as).length ∧
      (s.task.event?.toList ++ s.queue ++ lost).length ≤ start.capacity + 1 ∧
      (s.IsLossless → lost = [])

/-- What a pipeline of a given capacity answers to an event, and what the answer means. -/
structure Decides (capacity : Nat) (s : State σ) (e : Event) : Prop where
  /-- The event is accepted as long as the pipeline is not stopped and its queue has room. -/
  ok : (s.enqueue e).1 = .ok () ↔ s.lifecycle ≠ .stopped ∧ s.queue.length < capacity
  /-- The event is turned away for now when the queue is full. -/
  full : (s.enqueue e).1 = .error (.full queueName capacity) ↔
    s.lifecycle ≠ .stopped ∧ s.queue.length = capacity
  /-- The event is turned away for good once the pipeline is stopped. -/
  closed : (s.enqueue e).1 = .error (.closed queueName) ↔ s.lifecycle = .stopped
  /-- An event that is accepted enters the queue at its end, and nothing else changes. -/
  entered : (s.enqueue e).1 = .ok () →
    (s.enqueue e).2 = ({ s with queue := s.queue ++ [e] }, [.admitted e])
  /-- Nothing changes when an event is turned away. -/
  refused : ∀ why, (s.enqueue e).1 = .error why → (s.enqueue e).2 = (s, [.refused e why])

/-- What decides about an event of at least the minimum level, as long as the task has not died. -/
theorem State.Coupled.decides {s : State σ} (hs : s.Coupled) (hfailed : s.task ≠ .failed)
    (hqueue : s.queue.length ≤ s.capacity) {e : Event} (high : ¬e.level < s.minLevel) :
    Decides s.capacity s e := by
  have hanswer : (s.enqueue e).1 = s.admission := s.answer_enqueue high
  constructor
  case entered =>
    intro htaken
    rw [hanswer] at htaken
    rw [State.enqueue, if_neg high, htaken]
  case refused =>
    intro why hrefused
    rw [hanswer] at hrefused
    rw [State.enqueue, if_neg high, hrefused]
  all_goals
    rw [hanswer, hs.admission_eq hfailed]
    split
    · simp_all
    · split
      · have hne : s.queue.length ≠ s.capacity := by omega
        simp_all
      · have heq : s.queue.length = s.capacity := by omega
        simp_all

/-- **Occupancy.** After every run of a new pipeline, whatever the clients and the scheduler did, all
but a bounded number of the accepted events are done with. An event below the minimum level is
accepted and changes nothing; about every other event the lifecycle and the length of the queue
decide, as long as no sink has died. -/
theorem occupancy_of_run {capacity : Nat} {minLevel : Level} {as : List (Action σ)} {s : State σ}
    {notes : List (Note σ)} (hrun : (State.new capacity minLevel).run as = some (s, notes)) :
    Occupancy (State.new capacity minLevel) as s notes ∧
      (∀ e, e.level < minLevel → s.enqueue e = (.ok (), s, [.passedOver e])) ∧
      ((∀ a ∈ as, a.isHarmless = true) → ∀ e, ¬e.level < minLevel →
        Decides (State.new capacity minLevel : State σ).capacity s e) := by
  have hnew : (State.new capacity minLevel : State σ).Coupled := .of_new capacity minLevel
  have hruns := State.run_iff.1 hrun
  have hs := hnew.of_runs hruns
  obtain ⟨hcapacity, hlevel⟩ := bounds_of_runs hnew hruns
  have hlevel : s.minLevel = minLevel := hlevel
  obtain ⟨done, lost, hstock⟩ := Stock.of_runs capacity minLevel hruns
  refine ⟨⟨hcapacity ▸ hstock.queue_le, done, lost, ?_, ?_, ?_, ?_, hstock.lossless⟩, ?_, ?_⟩
  · rw [accepted_eq hnew hruns, hstock.admitted]
    simp only [List.append_assoc]
  · obtain ⟨begun, hcalls, -⟩ := hstock.calls
    rw [enlisted_eq hnew hruns, (Ledger.of_runs capacity minLevel hruns).sinks, hcalls]
    exact List.prefix_append _ _
  · rw [enlisted_eq hnew hruns, (Ledger.of_runs capacity minLevel hruns).sinks]
    exact hstock.length_deliveries_le (Answered.of_runs (fun _ ↦ "") capacity minLevel hruns)
  · exact hcapacity ▸ hstock.undone_le
  · intro e low
    rw [State.enqueue, hlevel, if_pos low]
  · intro hharmless e high
    have hfailed : s.task ≠ .failed := task_ne_failed capacity minLevel hruns hharmless
    rw [← hcapacity]
    exact hs.decides hfailed hstock.queue_le (hlevel ▸ high)

/-- A run after which a sink has not answered and the queue is full, so that as many events are not
done with as there can be. -/
def sampleCrowd : List (Action Nat) :=
  [.enqueue (sampleEvent .info "a"), .register 0, .issue ⟨0, .start⟩, .step .pull,
    .step (.reply (.failed (.status 500))), .enqueue (sampleEvent .info "b"), .step .pull,
    .enqueue (sampleEvent .warn "c")]

theorem occupancy_of_run_sample : ∃ s notes,
    (State.new 1 .info).run sampleCrowd = some (s, notes) ∧
      (∀ a ∈ sampleCrowd, a.isHarmless = true) ∧
      (s.task.event? = some (sampleEvent .info "b") ∧ s.queue = [sampleEvent .warn "c"]) ∧
      Occupancy (State.new 1 .info) sampleCrowd s notes ∧
      ((sampleEvent .debug "d").level < .info ∧
        s.enqueue (sampleEvent .debug "d") = (.ok (), s, [.passedOver (sampleEvent .debug "d")])) ∧
      (¬(sampleEvent .info "d").level < .info ∧ Decides 1 s (sampleEvent .info "d") ∧
        (s.enqueue (sampleEvent .info "d")).1 = .error (.full queueName 1)) := by
  have hrun : ∃ s notes, (State.new 1 .info).run sampleCrowd = some (s, notes) ∧
      (s.task.event? = some (sampleEvent .info "b") ∧ s.queue = [sampleEvent .warn "c"]) ∧
      (s.enqueue (sampleEvent .info "d")).1 = .error (.full queueName 1) :=
    ⟨_, _, rfl, ⟨rfl, rfl⟩, rfl⟩
  obtain ⟨s, notes, hrun, hheld, hfull⟩ := hrun
  have hharmless : ∀ a ∈ sampleCrowd, a.isHarmless = true := by
    simp [sampleCrowd, Action.isHarmless]
  have hlow : (sampleEvent .debug "d").level < .info := by decide
  have hhigh : ¬(sampleEvent .info "d").level < .info := by decide
  obtain ⟨hoccupancy, hpassed, hdecides⟩ := occupancy_of_run hrun
  exact ⟨s, notes, hrun, hharmless, hheld, hoccupancy, ⟨hlow, hpassed _ hlow⟩, hhigh,
    hdecides hharmless _ hhigh, hfull⟩

end Conveyor.Pipeline
