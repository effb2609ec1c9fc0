import Conveyor.Pipeline.Basic
import Conveyor.Proofs.Run

/-!
# What a pipeline can do

`Move s a t notes` lists everything that an action can do to a pipeline, one constructor for each
way it can turn out, with what is known about the state before. Every statement about runs of a
pipeline goes by cases on it, so the operations themselves are opened only here
(`State.Coupled.move`).

## Which ways are left out

Some branches of the operations are never taken: the receiving end is always there when a pipeline
is started, and the task is always there when a running one is stopped. That rests on
`State.Coupled`, which says how the lifecycle, the two ends of the queue, the task and the lock hang
together. It holds of a new pipeline, every move keeps it, and so it holds after every run
(`State.Coupled.of_runs`).
-/

namespace Conveyor.Pipeline

variable {σ : Type}

/-! ### What a history says -/

namespace Note

/-- The call of a sink that a note tells of. -/
@[simp] def called? : Note σ → Option (σ × Event)
  | called sink e => some (sink, e)
  | _ => none

/-- The event that entered the queue. -/
@[simp] def admitted? : Note σ → Option Event
  | admitted e => some e
  | _ => none

/-- The sink that was registered. -/
@[simp] def registered? : Note σ → Option σ
  | registered sink => some sink
  | _ => none

end Note

/-- The calls of sinks in a history, in order. -/
abbrev calls (notes : List (Note σ)) : List (σ × Event) := extract Note.called? notes

/-- The events that entered the queue, in order. -/
abbrev admitted (notes : List (Note σ)) : List Event := extract Note.admitted? notes

/-- The sinks that were registered, in order. -/
abbrev registered (notes : List (Note σ)) : List σ := extract Note.registered? notes

/-! ### The task between two sinks -/

/-- What happens when the task turns to the sinks of `rest`: it calls the first of them. -/
def callNext (e : Event) : (rest : List σ) → List (Note σ)
  | [] => []
  | sink :: _ => [.called sink e]

@[simp] theorem admitted_callNext (e : Event) (rest : List σ) :
    admitted (callNext e rest) = [] := by
  cases rest <;> rfl

@[simp] theorem registered_callNext (e : Event) (rest : List σ) :
    registered (callNext e rest) = [] := by
  cases rest <;> rfl

namespace Task

/-- The task when the sinks of `rest` are left for an event. -/
def turnTo (sinks : List σ) (e : Event) : (rest : List σ) → Task σ
  | [] => idle sinks
  | sink :: rest => calling sinks e sink rest

/-- The sinks that the task was started with, while it is alive. -/
def sinks? : Task σ → Option (List σ)
  | idle sinks => some sinks
  | calling sinks _ _ _ => some sinks
  | _ => none

@[simp] theorem isAlive_turnTo (sinks : List σ) (e : Event) (rest : List σ) :
    (turnTo sinks e rest).isAlive = true := by
  cases rest <;> rfl

@[simp] theorem isOver_turnTo (sinks : List σ) (e : Event) (rest : List σ) :
    (turnTo sinks e rest).isOver = false := by
  cases rest <;> rfl

theorem turnTo_ne_failed (sinks : List σ) (e : Event) (rest : List σ) :
    turnTo sinks e rest ≠ .failed := by
  cases rest <;> simp [turnTo]

@[simp] theorem sinks?_turnTo (sinks : List σ) (e : Event) (rest : List σ) :
    (turnTo sinks e rest).sinks? = some sinks := by
  cases rest <;> rfl

theorem ne_unborn_of_isAlive {task : Task σ} (h : task.isAlive = true) : task ≠ unborn := by
  rintro rfl
  simp [isAlive] at h

theorem ne_ended_of_isAlive {task : Task σ} (h : task.isAlive = true) : task ≠ ended := by
  rintro rfl
  simp [isAlive] at h

end Task

namespace State

/-- Turning to the sinks that are left changes the task alone, and calls the first of them. -/
theorem deliver_eq (s : State σ) (sinks : List σ) (e : Event) (rest : List σ) :
    s.deliver sinks e rest =
      ({ s with task := .turnTo sinks e rest }, callNext e rest) := by
  cases rest <;> rfl

/-- The call that gets to work in an action: it comes to the free lock or was handed the lock. -/
def beginning? (s : State σ) : Action σ → Option Call
  | .issue call => s.turns.entering? call
  | .step .resume => s.turns.granted?
  | _ => none

end State

namespace State

/-- An event of at least the minimum level gets the answer of the queue. -/
theorem answer_enqueue (s : State σ) {e : Event} (high : ¬e.level < s.minLevel) :
    (s.enqueue e).1 = s.admission := by
  rw [enqueue, if_neg high]
  cases s.admission <;> rfl

/-- The queue takes an event as long as both its ends are there and it has room. -/
theorem admission_eq_ok_iff {s : State σ} :
    s.admission = .ok () ↔
      s.sender = true ∧ s.receives = true ∧ s.queue.length < s.capacity := by
  unfold admission admissionAt
  split
  case isTrue hclosed =>
    simp only [reduceCtorEq, false_iff]
    rintro ⟨hsender, hreceives, -⟩
    simp [hsender, hreceives] at hclosed
  case isFalse => split <;> simp_all

/-- A call gets to work only when no other call waits inside. -/
theorem not_held_of_beginning {s : State σ} {a : Action σ} {call : Call}
    (h : s.beginning? a = some call) (other : Call) : s.turns.lock ≠ .held other () := by
  intro hheld
  unfold beginning? at h
  split at h <;> simp_all [Turns.entering?, Turns.granted?]

end State

/-! ### Moves -/

/-- Everything that can happen in an action. -/
inductive Move (s : State σ) : Action σ → State σ → List (Note σ) → Prop where
  /-- A sink is registered. -/
  | register {sink : σ} (created : s.lifecycle = .created) :
      Move s (.register sink) { s with sinks := s.sinks ++ [sink] } [.registered sink]
  /-- A sink comes too late. -/
  | keepOut {sink : σ} (late : s.lifecycle ≠ .created) : Move s (.register sink) s []
  /-- An event is left out because of its level. -/
  | passOver {e : Event} (low : e.level < s.minLevel) : Move s (.enqueue e) s [.passedOver e]
  /-- An event enters the queue. -/
  | accept {e : Event} (high : ¬e.level < s.minLevel) (taken : s.admission = .ok ()) :
      Move s (.enqueue e) { s with queue := s.queue ++ [e] } [.admitted e]
  /-- An event is turned away. -/
  | refuse {e : Event} {why : QueueRefusal} (high : ¬e.level < s.minLevel)
      (refused : s.admission = .error why) : Move s (.enqueue e) s [.refused e why]
  /-- A call joins the line at the lock. -/
  | wait {call : Call} (busy : s.turns.lock ≠ .free) :
      Move s (.issue call) { s with turns := s.turns.queue call } []
  /-- A call starts the pipeline. -/
  | start {a : Action σ} {call : Call} (begun : s.beginning? a = some call)
      (request : call.request = .start) (created : s.lifecycle = .created) :
      Move s a
        { s with
          lifecycle := .running, receiver := false, task := .idle s.sinks,
          turns := s.turns.release }
        [.started, .returned call.id]
  /-- A call finds nothing to do. -/
  | passBy {a : Action σ} {call : Call} (begun : s.beginning? a = some call)
      (nothing : call.request = .start ∧ s.lifecycle ≠ .created ∨
        call.request = .stop ∧ s.lifecycle = .stopped) :
      Move s a { s with turns := s.turns.release } [.returned call.id]
  /-- A call closes the queue of the running pipeline, and waits for the task to end. -/
  | close {a : Action σ} {call : Call} (begun : s.beginning? a = some call)
      (request : call.request = .stop) (running : s.lifecycle = .running) :
      Move s a { s with lifecycle := .stopped, sender := false, turns := s.turns.hold call () } []
  /-- A call stops the pipeline before it was started, and the queue is lost. -/
  | discard {a : Action σ} {call : Call} (begun : s.beginning? a = some call)
      (request : call.request = .stop) (created : s.lifecycle = .created) :
      Move s a
        { s with
          lifecycle := .stopped, sender := false, receiver := false, queue := [],
          turns := s.turns.release }
        [.stoppedEarly s.queue.length, .returned call.id]
  /-- The task takes the next event and turns to its sinks. -/
  | pull {sinks : List σ} {e : Event} {queue : List Event} (idle : s.task = .idle sinks)
      (next : s.queue = e :: queue) :
      Move s (.step .pull) { s with queue, task := .turnTo sinks e sinks } (callNext e sinks)
  /-- A sink answers, and the task turns to those that are left. -/
  | reply {sinks : List σ} {e : Event} {sink : σ} {rest : List σ} {r : Sink.Reply}
      (calling : s.task = .calling sinks e sink rest) (alive : r ≠ .died) :
      Move s (.step (.reply r)) { s with task := .turnTo sinks e rest }
        (.replied sink e r :: callNext e rest)
  /-- A sink dies, and the task with it. -/
  | die {sinks : List σ} {e : Event} {sink : σ} {rest : List σ}
      (calling : s.task = .calling sinks e sink rest) :
      Move s (.step (.reply .died)) { s with task := .failed, queue := [] }
        [.replied sink e .died]
  /-- The task finds the queue closed and empty. -/
  | finish {sinks : List σ} (idle : s.task = .idle sinks) (empty : s.queue = [])
      (closed : s.sender = false) : Move s (.step .finish) { s with task := .ended } []
  /-- The call that waited for the task returns. -/
  | finishCall {call : Call} (held : s.turns.lock = .held call ()) (ended : s.task = .ended) :
      Move s (.step .resume) { s with turns := s.turns.release } [.returned call.id]
  /-- The call that waited for the task finds that it died, and returns. -/
  | reportDeath {call : Call} (held : s.turns.lock = .held call ()) (failed : s.task = .failed) :
      Move s (.step .resume) { s with turns := s.turns.release } [.taskFailed, .returned call.id]

/-! ### How the parts of the state hang together -/

namespace State

/-- The lifecycle, the ends of the queue, the task and the lock of a pipeline agree. -/
structure Coupled (s : State σ) : Prop where
  /-- Before the start both ends of the queue lie in the pipeline and there is no task. -/
  created : s.lifecycle = .created → s.sender = true ∧ s.receiver = true ∧ s.task = .unborn
  /-- The start has handed the receiving end to the task. -/
  running : s.lifecycle = .running → s.sender = true ∧ s.receiver = false ∧ s.task ≠ .unborn
  /-- After the stop neither end lies in the pipeline. -/
  stopped : s.lifecycle = .stopped → s.sender = false ∧ s.receiver = false
  /-- A pipeline that was stopped before it was started has lost its queue. -/
  early : s.lifecycle = .stopped → s.task = .unborn → s.queue = []
  /-- Nothing is left when the task is over. -/
  emptied : s.task.isOver = true → s.queue = []
  /-- The task ends only after the stop. -/
  ended : s.task = .ended → s.lifecycle = .stopped
  /-- The task has the sinks that were registered. -/
  sinks : ∀ sinks, s.task.sinks? = some sinks → sinks = s.sinks
  /-- A call waits inside only when it has stopped a pipeline that was started. -/
  held : ∀ call, s.turns.lock = .held call () → s.lifecycle = .stopped ∧ s.task ≠ .unborn
  /-- While the task of a stopped pipeline is alive, the lock is held. -/
  draining : s.lifecycle = .stopped → s.task.isAlive = true →
    ∃ call, s.turns.lock = .held call ()

namespace Coupled

variable {s t : State σ} {a : Action σ} {call : Call} {new : List (Note σ)}

/-- A call that gets to work makes a move. -/
theorem move_begin (hs : s.Coupled) (hbegun : s.beginning? a = some call) :
    Move s a (s.begin call).1 (s.begin call).2 := by
  rcases hrequest : call.request with - | -
  · rcases hlife : s.lifecycle with - | - | -
    · have hreceiver : s.receiver = true := (hs.created hlife).2.1
      simp only [begin, hrequest, hlife, Lifecycle.tryStart, hreceiver, Bool.and_self, if_true,
        release]
      exact .start hbegun hrequest hlife
    all_goals
      have hnothing : call.request = .start ∧ s.lifecycle ≠ .created ∨
          call.request = .stop ∧ s.lifecycle = .stopped := .inl ⟨hrequest, by simp [hlife]⟩
      simpa [begin, hrequest, hlife, Lifecycle.tryStart, release] using Move.passBy hbegun hnothing
  · rcases hlife : s.lifecycle with - | - | -
    · have hreceiver : s.receiver = true := (hs.created hlife).2.1
      simp only [begin, hrequest, hlife, Lifecycle.tryStop, hreceiver, if_true, release]
      exact .discard hbegun hrequest hlife
    · have htask : s.task ≠ .unborn := (hs.running hlife).2.2
      simp only [begin, hrequest, hlife, Lifecycle.tryStop]
      exact .close hbegun hrequest hlife
    · have hnothing : call.request = .start ∧ s.lifecycle ≠ .created ∨
          call.request = .stop ∧ s.lifecycle = .stopped := .inr ⟨hrequest, hlife⟩
      simpa [begin, hrequest, hlife, Lifecycle.tryStop, release] using Move.passBy hbegun hnothing

/-- **Inversion.** Every action that is possible is one of the moves. -/
theorem move (hs : s.Coupled) (h : s.act a = some (t, new)) : Move s a t new := by
  cases a with
  | register sink =>
    simp only [act, register, Option.some.injEq] at h
    split at h
    case h_1 hcreated =>
      obtain ⟨rfl, rfl⟩ := Prod.mk.inj h
      exact .register hcreated
    all_goals
      obtain ⟨rfl, rfl⟩ := Prod.mk.inj h
      exact .keepOut (by simp_all)
  | enqueue e =>
    simp only [act, enqueue, Option.some.injEq] at h
    split at h
    case isTrue hlow =>
      obtain ⟨rfl, rfl⟩ := Prod.mk.inj h
      exact .passOver hlow
    case isFalse hhigh =>
      split at h
      case h_1 htaken =>
        obtain ⟨rfl, rfl⟩ := Prod.mk.inj h
        exact .accept hhigh htaken
      case h_2 hrefused =>
        obtain ⟨rfl, rfl⟩ := Prod.mk.inj h
        exact .refuse hhigh hrefused
  | issue call =>
    simp only [act, issue, Option.some.injEq] at h
    split at h
    case h_1 hfree =>
      have hbegun : s.beginning? (.issue call) = some call := by
        simp [beginning?, Turns.entering?, hfree]
      simpa [h] using hs.move_begin hbegun
    case h_2 hbusy =>
      obtain ⟨rfl, rfl⟩ := Prod.mk.inj h
      exact .wait hbusy
  | step x =>
    cases x with
    | pull =>
      simp only [act, step, deliver_eq] at h
      split at h
      case h_1 hidle hnext =>
        obtain ⟨rfl, rfl⟩ := Prod.mk.inj (Option.some.inj h)
        exact .pull hidle hnext
      case h_2 => simp at h
    | reply r =>
      simp only [act, step, deliver_eq] at h
      split at h
      case h_1 hcalling =>
        split at h
        case h_1 =>
          obtain ⟨rfl, rfl⟩ := Prod.mk.inj (Option.some.inj h)
          exact .die hcalling
        case h_2 halive =>
          obtain ⟨rfl, rfl⟩ := Prod.mk.inj (Option.some.inj h)
          exact .reply hcalling halive
      case h_2 => simp at h
    | finish =>
      simp only [act, step] at h
      split at h
      case h_1 hidle hempty hclosed =>
        obtain ⟨rfl, rfl⟩ := Prod.mk.inj (Option.some.inj h)
        exact .finish hidle hempty hclosed
      case h_2 => simp at h
    | resume =>
      simp only [act, step] at h
      split at h
      case h_1 => simp at h
      case h_2 call hgranted =>
        have hbegun : s.beginning? (.step .resume) = some call := by
          simp [beginning?, Turns.granted?, hgranted]
        simpa [Option.some.inj h] using hs.move_begin hbegun
      case h_3 call hheld =>
        split at h
        case h_1 hended =>
          obtain ⟨rfl, rfl⟩ := Prod.mk.inj (Option.some.inj h)
          exact .finishCall hheld hended
        case h_2 hfailed =>
          obtain ⟨rfl, rfl⟩ := Prod.mk.inj (Option.some.inj h)
          exact .reportDeath hheld hfailed
        case h_3 => simp at h

/-- A new pipeline. -/
theorem of_new (capacity : Nat) (minLevel : Level) :
    (State.new capacity minLevel : State σ).Coupled where
  created _ := ⟨rfl, rfl, rfl⟩
  running h := by simp [State.new] at h
  stopped h := by simp [State.new] at h
  early h := by simp [State.new] at h
  emptied _ := rfl
  ended h := by simp [State.new] at h
  sinks _ h := by simp [State.new, Task.sinks?] at h
  held _ h := by simp [State.new] at h
  draining h := by simp [State.new] at h

/-- The task of a pipeline that was started and not stopped has not ended. -/
theorem started (hs : s.Coupled) (h : s.task ≠ .unborn) : s.lifecycle ≠ .created :=
  fun hcreated ↦ h (hs.created hcreated).2.2

/-- Once the task is over nobody has the receiving end. -/
theorem not_receives_of_isOver (hs : s.Coupled) (h : s.task.isOver = true) :
    s.receives = false := by
  have hreceiver : s.receiver = false := by
    rcases hlife : s.lifecycle with - | - | -
    · simp [(hs.created hlife).2.2, Task.isOver] at h
    · exact (hs.running hlife).2.1
    · exact (hs.stopped hlife).2
  have hdead : s.task.isAlive = false := by
    cases htask : s.task <;> simp_all [Task.isOver, Task.isAlive]
  simp [receives, hreceiver, hdead]

/-- The queue of a stopped pipeline is closed. -/
theorem admission_of_stopped (hs : s.Coupled) (h : s.lifecycle = .stopped) :
    s.admission = .error (.closed queueName) := by
  simp [admission, admissionAt, (hs.stopped h).1]

/-- A stopped pipeline admits nothing. -/
theorem admission_ne_ok (hs : s.Coupled) (h : s.lifecycle = .stopped) : s.admission ≠ .ok () := by
  simp [hs.admission_of_stopped h]

/-- The task turns to the sinks that are left for an event. -/
theorem of_turnTo (hs : s.Coupled) (halive : s.task.isAlive = true) {sinks : List σ}
    (hsinks : s.task.sinks? = some sinks) (e : Event) (rest : List σ) (queue : List Event) :
    ({ s with queue, task := .turnTo sinks e rest } : State σ).Coupled := by
  have hborn : s.task ≠ .unborn := Task.ne_unborn_of_isAlive halive
  have hborn' : Task.turnTo sinks e rest ≠ .unborn := Task.ne_unborn_of_isAlive (by simp)
  have hended' : Task.turnTo sinks e rest ≠ .ended := Task.ne_ended_of_isAlive (by simp)
  exact {
    created := fun h ↦ absurd h (hs.started hborn)
    running := fun h ↦ ⟨(hs.running h).1, (hs.running h).2.1, hborn'⟩
    stopped := hs.stopped
    early := fun _ h ↦ absurd h hborn'
    emptied := by simp
    ended := fun h ↦ absurd h hended'
    sinks := fun other h ↦ by
      rw [Task.sinks?_turnTo, Option.some.injEq] at h
      exact h ▸ hs.sinks _ hsinks
    held := fun call h ↦ ⟨(hs.held call h).1, hborn'⟩
    draining := fun h _ ↦ hs.draining h halive }

/-- Every move keeps the parts of the state together. -/
theorem of_move (hs : s.Coupled) (h : Move s a t new) : t.Coupled := by
  cases h with
  | register created =>
    have hunborn : s.task = .unborn := (hs.created created).2.2
    exact { hs with sinks := by simp [hunborn, Task.sinks?] }
  | keepOut => exact hs
  | passOver => exact hs
  | accept high taken =>
    obtain ⟨-, hreceives, -⟩ := admission_eq_ok_iff.1 taken
    exact {
      hs with
      early := fun hstopped ↦ absurd taken (hs.admission_ne_ok hstopped)
      emptied := fun hover ↦ by simp [hs.not_receives_of_isOver hover] at hreceives }
  | refuse => exact hs
  | wait busy => exact { hs with }
  | start begun request created =>
    exact {
      created := by simp
      running := fun _ ↦ ⟨(hs.created created).1, rfl, by simp⟩
      stopped := by simp
      early := by simp
      emptied := by simp [Task.isOver]
      ended := by simp
      sinks := by simp [Task.sinks?]
      held := fun call h ↦ absurd h (s.turns.lock_release_ne_held call ())
      draining := by simp }
  | passBy begun nothing =>
    exact {
      hs with
      held := fun call h ↦ absurd h (s.turns.lock_release_ne_held call ())
      draining := fun hstopped halive ↦ by
        obtain ⟨call, hheld⟩ := hs.draining hstopped halive
        exact absurd hheld (not_held_of_beginning begun call) }
  | close begun request running =>
    obtain ⟨-, hreceiver, hborn⟩ := hs.running running
    exact {
      created := by simp
      running := by simp
      stopped := fun _ ↦ ⟨rfl, hreceiver⟩
      early := fun _ h ↦ absurd h hborn
      emptied := hs.emptied
      ended := fun _ ↦ rfl
      sinks := hs.sinks
      held := fun _ _ ↦ ⟨rfl, hborn⟩
      draining := fun _ _ ↦ ⟨_, rfl⟩ }
  | discard begun request created =>
    have hunborn : s.task = .unborn := (hs.created created).2.2
    exact {
      created := by simp
      running := by simp
      stopped := fun _ ↦ ⟨rfl, rfl⟩
      early := fun _ _ ↦ rfl
      emptied := fun _ ↦ rfl
      ended := fun _ ↦ rfl
      sinks := by simp [hunborn, Task.sinks?]
      held := fun call h ↦ absurd h (s.turns.lock_release_ne_held call ())
      draining := by simp [hunborn, Task.isAlive] }
  | pull idle next =>
    exact hs.of_turnTo (by simp [idle, Task.isAlive]) (by simp [idle, Task.sinks?]) _ _ _
  | reply calling alive =>
    exact hs.of_turnTo (by simp [calling, Task.isAlive]) (by simp [calling, Task.sinks?]) _ _ _
  | die calling =>
    have hborn : s.task ≠ .unborn := by simp [calling]
    exact {
      created := fun h ↦ absurd h (hs.started hborn)
      running := fun h ↦ ⟨(hs.running h).1, (hs.running h).2.1, by simp⟩
      stopped := hs.stopped
      early := by simp
      emptied := fun _ ↦ rfl
      ended := by simp
      sinks := by simp [Task.sinks?]
      held := fun call h ↦ ⟨(hs.held call h).1, by simp⟩
      draining := by simp [Task.isAlive] }
  | finish idle empty closed =>
    have hborn : s.task ≠ .unborn := by simp [idle]
    have hstopped : s.lifecycle = .stopped := by
      rcases hlife : s.lifecycle with - | - | -
      · exact absurd hlife (hs.started hborn)
      · simp [(hs.running hlife).1] at closed
      · rfl
    exact {
      created := fun h ↦ absurd h (hs.started hborn)
      running := fun h ↦ ⟨(hs.running h).1, (hs.running h).2.1, by simp⟩
      stopped := hs.stopped
      early := by simp
      emptied := fun _ ↦ empty
      ended := fun _ ↦ hstopped
      sinks := by simp [Task.sinks?]
      held := fun call h ↦ ⟨(hs.held call h).1, by simp⟩
      draining := by simp [Task.isAlive] }
  | finishCall held ended =>
    exact {
      hs with
      held := fun call h ↦ absurd h (s.turns.lock_release_ne_held call ())
      draining := fun _ h ↦ absurd ended (Task.ne_ended_of_isAlive h) }
  | reportDeath held failed =>
    exact {
      hs with
      held := fun call h ↦ absurd h (s.turns.lock_release_ne_held call ())
      draining := by simp [failed, Task.isAlive] }

end Coupled

/-! ### Runs -/

section Runs

variable {s t : State σ} {a : Action σ} {as : List (Action σ)} {notes new : List (Note σ)}

/-- The runs of a pipeline. -/
theorem run_iff : s.run as = some (t, notes) ↔ Runs act s as t notes := by
  refine Runs.iff_of_eqns (fun _ ↦ rfl) fun s a as ↦ ?_
  rw [run]
  rcases s.act a with - | ⟨t, new⟩
  · rfl
  · cases hrun : t.run as <;> simp [hrun]

/-- The parts of the state hang together after every run. -/
theorem Coupled.of_runs (hs : s.Coupled) (h : Runs act s as t notes) : t.Coupled := by
  induction h with
  | refl => exact hs
  | tail _ act_eq ih => exact ih.of_move (ih.move act_eq)

/-- An induction over the moves of a run. -/
theorem Coupled.runs_induction {motive : List (Action σ) → State σ → List (Note σ) → Prop}
    (hs : s.Coupled) (h : Runs act s as t notes) (refl : motive [] s [])
    (tail : ∀ {as t notes a u new}, t.Coupled → Move t a u new → motive as t notes →
      motive (as ++ [a]) u (notes ++ new)) : motive as t notes := by
  induction h with
  | refl => exact refl
  | tail run act_eq ih =>
    have ht := hs.of_runs run
    exact tail ht (ht.move act_eq) ih

end Runs

end State

end Conveyor.Pipeline
