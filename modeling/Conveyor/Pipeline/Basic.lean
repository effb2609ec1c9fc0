import Conveyor.Event.Basic
import Conveyor.Lifecycle
import Conveyor.Record
import Conveyor.Sink.Basic
import Conveyor.Turns

/-!
# The pipeline of log events

Events are admitted to a queue of bounded length, and one task delivers each of them, in the order of
admission, to every sink in the order of registration. Admission never waits: a full queue refuses.

The pipeline is a machine. Clients register sinks, enqueue events and issue calls; between these, the
task and the calls that wait make *steps* of their own, in whatever order a scheduler picks. What
happens outside, the answer of a sink, is part of the step. An operation or a step is everything that
happens between two points at which the program waits, so nothing comes between its parts.

Each operation and step says what happened as a list of *notes*. The history of a run is the list of
its notes, and the records of the log are read off them.

## Starting and stopping

`start` and `stop` take turns through a lock, first come, first served. The call of `stop` that finds
the pipeline running closes the queue and keeps the lock until the task has ended; the task still
delivers what is in the queue. A call that comes to the lock later finds nothing left to do.

The queue has two ends, and each can be given up by its holder. The sending end lies in the pipeline
until it is stopped. The receiving end lies in the pipeline until it is started and then belongs to
the task; when the task dies it is gone, and all that was in the queue with it.
-/

namespace Conveyor.Pipeline

/-- The name of the queue in refusals. -/
def queueName : String := "log pipeline"

/-- The capacity of a pipeline that is asked for none. -/
def defaultCapacity : Nat := 64

/-- The task that delivers events to sinks of the type `σ`. -/
inductive Task (σ : Type) where
  /-- There has been no task. -/
  | unborn
  /-- The task waits for an event to deliver to its sinks. -/
  | idle (sinks : List σ)
  /-- The task waits for the answer of a sink; the sinks of `rest` come after it. -/
  | calling (sinks : List σ) (event : Event) (sink : σ) (rest : List σ)
  /-- The task has delivered all there was. -/
  | ended
  /-- The task died with a sink. -/
  | failed
  deriving DecidableEq

namespace Task

variable {σ : Type}

/-- The task has the receiving end of the queue. -/
def isAlive : Task σ → Bool
  | idle _ => true
  | calling .. => true
  | _ => false

/-- The task has ended, well or not. -/
def isOver : Task σ → Bool
  | ended => true
  | failed => true
  | _ => false

end Task

/-- A pipeline with sinks of the type `σ`. -/
structure State (σ : Type) where
  /-- How many events the queue holds at most. -/
  capacity : Nat
  /-- Events below this level are accepted and left out. -/
  minLevel : Level
  /-- How far the pipeline has come. -/
  lifecycle : Lifecycle
  /-- The registered sinks, in order. -/
  sinks : List σ
  /-- The sending end of the queue lies in the pipeline. -/
  sender : Bool
  /-- The receiving end of the queue lies in the pipeline. -/
  receiver : Bool
  /-- The events in the queue, in order of admission. -/
  queue : List Event
  /-- The task that delivers them. -/
  task : Task σ
  /-- The turns of `start` and `stop`; a call that waits inside waits for the task to end. -/
  turns : Turns Unit
  deriving DecidableEq

/-- Something that happened in a pipeline. -/
inductive Note (σ : Type) where
  /-- A sink was registered. -/
  | registered (sink : σ)
  /-- An event entered the queue. -/
  | admitted (event : Event)
  /-- An event below the minimum level was accepted and left out. -/
  | passedOver (event : Event)
  /-- An event was turned away. -/
  | refused (event : Event) (why : QueueRefusal)
  /-- The pipeline was started. -/
  | started
  /-- A sink was given an event. -/
  | called (sink : σ) (event : Event)
  /-- A sink answered. -/
  | replied (sink : σ) (event : Event) (reply : Sink.Reply)
  /-- A call of `stop` found that the task had died. -/
  | taskFailed
  /-- The pipeline was stopped before it was started, with this many events in its queue. -/
  | stoppedEarly (discarded : Nat)
  /-- A call returned. -/
  | returned (id : Nat)
  deriving DecidableEq

/-- The records of the log about what happened, where `name` names the sinks. What the task died of
(`error`), which is said by the runtime, is left out. -/
def Note.records {σ : Type} (name : σ → String) : Note σ → List Record
  | replied sink event (.failed fault) =>
    [.failure "Log sink error"
      [("sink", name sink), ("source", event.source), ("error", fault.message)]]
  | taskFailed => [.failure "Log dispatch task failed" []]
  | stoppedEarly discarded =>
    [.warning "Log pipeline stopped before it was started" [("discarded", toString discarded)]]
  | _ => []

/-- A step of the task or of a call that waits. -/
inductive Step where
  /-- The task takes the next event from the queue and calls the first sink. -/
  | pull
  /-- The sink that was called answers, and the task goes on. -/
  | reply (reply : Sink.Reply)
  /-- The task finds the queue closed and empty, and ends. -/
  | finish
  /-- The call that holds the lock goes on. -/
  | resume
  deriving DecidableEq, Repr

namespace State

variable {σ : Type}

/-- A pipeline that has not been started. A capacity of zero stands for the usual one. -/
def new (capacity : Nat) (minLevel : Level) : State σ where
  capacity := if capacity = 0 then defaultCapacity else capacity
  minLevel := minLevel
  lifecycle := .created
  sinks := []
  sender := true
  receiver := true
  queue := []
  task := .unborn
  turns := {}

/-! ### Operations of clients -/

/-- Someone has the receiving end of the queue. -/
def receives (s : State σ) : Bool :=
  s.receiver || s.task.isAlive

/-- Registers a sink, behind those registered before. Only a pipeline that was not started yet takes
sinks. -/
def register (s : State σ) (sink : σ) : Admission × State σ × List (Note σ) :=
  match s.lifecycle with
  | .created => (.ok (), { s with sinks := s.sinks ++ [sink] }, [.registered sink])
  | .running => (.error (.alreadyStarted queueName), s, [])
  | .stopped => (.error (.closed queueName), s, [])

/-- The answer to an event that is offered to the queue when there are `size` events in it. -/
def admissionAt (s : State σ) (size : Nat) : Admission :=
  if !s.sender || !s.receives then .error (.closed queueName)
  else if size < s.capacity then .ok ()
  else .error (.full queueName s.capacity)

/-- The answer to an event that is offered to the queue. -/
def admission (s : State σ) : Admission :=
  s.admissionAt s.queue.length

/-- Offers an event to the queue, unless it is below the minimum level. -/
def enqueue (s : State σ) (e : Event) : Admission × State σ × List (Note σ) :=
  if e.level < s.minLevel then (.ok (), s, [.passedOver e])
  else
    match s.admission with
    | .ok () => (.ok (), { s with queue := s.queue ++ [e] }, [.admitted e])
    | .error why => (.error why, s, [.refused e why])

/-- What becomes of an event that is offered when there are `size` events in the queue: the answer,
the event if it is admitted, and what happened. -/
def offerAt (s : State σ) (size : Nat) (e : Event) : Admission × List Event × Note σ :=
  if e.level < s.minLevel then (.ok (), [], .passedOver e)
  else
    match s.admissionAt size with
    | .ok () => (.ok (), [e], .admitted e)
    | .error why => (.error why, [], .refused e why)

/-- What became of events that were offered one after another. -/
structure Offers (σ : Type) where
  /-- How many events there are in the queue by now. -/
  size : Nat
  /-- The events that were admitted, the latest first. -/
  admitted : List Event := []
  /-- The answers, the latest first. -/
  answers : List Admission := []
  /-- What happened, the latest first. -/
  notes : List (Note σ) := []

/-- One more event is offered. -/
def offerNext (s : State σ) (o : Offers σ) (e : Event) : Offers σ :=
  let (answer, entered, note) := s.offerAt o.size e
  ⟨o.size + entered.length, entered ++ o.admitted, answer :: o.answers, note :: o.notes⟩

/-- Offers events to the queue one after another, with their answers in order. The queue is measured
and extended only once. -/
def enqueueAll (s : State σ) (es : List Event) : List Admission × State σ × List (Note σ) :=
  let o := es.foldl s.offerNext { size := s.queue.length }
  (o.answers.reverse, { s with queue := s.queue ++ o.admitted.reverse }, o.notes.reverse)

/-- The queue is extended by what is admitted. -/
theorem enqueue_eq_offerAt (s : State σ) (e : Event) :
    s.enqueue e =
      let (answer, entered, note) := s.offerAt s.queue.length e
      (answer, { s with queue := s.queue ++ entered }, [note]) := by
  unfold enqueue offerAt admission
  split
  · simp
  · split <;> simp

/-- At most one event enters the queue, so there is no order to reverse. -/
theorem reverse_offerAt (s : State σ) (size : Nat) (e : Event) :
    (s.offerAt size e).2.1.reverse = (s.offerAt size e).2.1 := by
  unfold offerAt
  split
  · rfl
  · split <;> rfl

/-- Earlier offers stand behind later ones and change nothing about them but the size of the queue. -/
theorem foldl_offerNext (s : State σ) (es : List Event) (o : Offers σ) :
    es.foldl s.offerNext o =
      let later := es.foldl s.offerNext { size := o.size }
      ⟨later.size, later.admitted ++ o.admitted, later.answers ++ o.answers,
        later.notes ++ o.notes⟩ := by
  induction es generalizing o with
  | nil => rfl
  | cons e es ih =>
    rw [List.foldl_cons, List.foldl_cons, ih (s.offerNext o e), ih (s.offerNext { size := o.size } e)]
    simp [offerNext]

theorem enqueueAll_nil (s : State σ) : s.enqueueAll [] = ([], s, []) := by
  simp [enqueueAll]

/-- Offering events at once is offering the first one and then the others. -/
theorem enqueueAll_cons (s : State σ) (e : Event) (es : List Event) :
    s.enqueueAll (e :: es) =
      let (answer, s, notes) := s.enqueue e
      let (answers, s, later) := s.enqueueAll es
      (answer :: answers, s, notes ++ later) := by
  have offerNext_queue (q : List Event) :
      ({ s with queue := q } : State σ).offerNext = s.offerNext := rfl
  simp only [enqueue_eq_offerAt, enqueueAll, List.foldl_cons, offerNext_queue]
  rw [foldl_offerNext]
  simp [offerNext, reverse_offerAt]

/-! ### Calls -/

/-- The call that holds the lock returns. -/
def release (s : State σ) (call : Call) : State σ × List (Note σ) :=
  ({ s with turns := s.turns.release }, [.returned call.id])

/-- A call that holds the lock begins. The receiving end goes from the pipeline to the new task when
it starts; the sending end is given up when it stops. -/
def begin (s : State σ) (call : Call) : State σ × List (Note σ) :=
  match call.request with
  | .start =>
    let (moved, lifecycle) := s.lifecycle.tryStart
    let s := { s with lifecycle }
    if moved && s.receiver then
      let (s, notes) := release { s with receiver := false, task := .idle s.sinks } call
      (s, .started :: notes)
    else s.release call
  | .stop =>
    let (previous, lifecycle) := s.lifecycle.tryStop
    let s := { s with lifecycle }
    match previous with
    | none => s.release call
    | some .running =>
      match s.task with
      | .unborn => { s with sender := false }.release call
      | _ => ({ s with sender := false, turns := s.turns.hold call () }, [])
    | some _ =>
      let discarded := if s.receiver then s.queue.length else 0
      let (s, notes) := release { s with sender := false, receiver := false, queue := [] } call
      (s, .stoppedEarly discarded :: notes)

/-- Issues a call, which begins at once if the lock is free and waits behind the others if not. -/
def issue (s : State σ) (call : Call) : State σ × List (Note σ) :=
  match s.turns.lock with
  | .free => s.begin call
  | _ => ({ s with turns := s.turns.queue call }, [])

/-! ### Steps -/

/-- The task turns to the sinks that are left for an event. -/
def deliver (s : State σ) (sinks : List σ) (e : Event) : (rest : List σ) → State σ × List (Note σ)
  | [] => ({ s with task := .idle sinks }, [])
  | sink :: rest => ({ s with task := .calling sinks e sink rest }, [.called sink e])

/-- The state and the notes after a step, if it is possible. -/
def step (s : State σ) : Step → Option (State σ × List (Note σ))
  | .pull =>
    match s.task, s.queue with
    | .idle sinks, e :: queue => some ({ s with queue }.deliver sinks e sinks)
    | _, _ => none
  | .reply r =>
    match s.task with
    | .calling sinks e sink rest =>
      match r with
      -- The queue dies with the task, and with it all that was in there.
      | .died => some ({ s with task := .failed, queue := [] }, [.replied sink e r])
      | _ =>
        let (s, notes) := s.deliver sinks e rest
        some (s, .replied sink e r :: notes)
    | _ => none
  | .finish =>
    match s.task, s.queue, s.sender with
    | .idle _, [], false => some ({ s with task := .ended }, [])
    | _, _, _ => none
  | .resume =>
    match s.turns.lock with
    | .free => none
    | .granted call => some (s.begin call)
    | .held call () =>
      match s.task with
      | .ended => some (s.release call)
      | .failed =>
        let (s, notes) := s.release call
        some (s, .taskFailed :: notes)
      | _ => none

end State

/-! ### Runs -/

/-- Something that a client or the scheduler does. -/
inductive Action (σ : Type) where
  /-- A client registers a sink. -/
  | register (sink : σ)
  /-- A client offers an event. -/
  | enqueue (event : Event)
  /-- A client issues a call. -/
  | issue (call : Call)
  /-- The scheduler lets a step happen. -/
  | step (step : Step)

namespace State

variable {σ : Type}

/-- The state and the notes after an action. Clients may act at any time; a step must be possible. -/
def act (s : State σ) : Action σ → Option (State σ × List (Note σ))
  | .register sink => some (s.register sink).2
  | .enqueue e => some (s.enqueue e).2
  | .issue call => some (s.issue call)
  | .step x => s.step x

/-- The state and the history after a run, if all its steps are possible. -/
def run (s : State σ) : List (Action σ) → Option (State σ × List (Note σ))
  | [] => some (s, [])
  | a :: as => do
    let (s, notes) ← s.act a
    let (s, later) ← s.run as
    return (s, notes ++ later)

end State

end Conveyor.Pipeline
