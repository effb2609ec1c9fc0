import Conveyor.Moderation.Pool
import Conveyor.Proofs.Run

/-!
# What a pool can do

`Change policy s a t notes` lists everything that an action can do to a pool, one constructor for
each way it can turn out, with what is known about the state before. As with the pipeline, every
statement about runs of a pool goes by cases on it, and the operations are opened only here
(`State.Coupled.change`).

## Which ways are left out

Some branches of the operations are never taken: a pool that was not started has all its ends when
it is. That rests on `State.Coupled`, which says how the lifecycle, the ends of the queue and of the
channel, the crew, its line and the lock hang together. It holds of a new pool; that every change
keeps it is the matter of the next module.
-/

namespace Conveyor.Moderation.Pool

open Time

/-! ### What a history says -/

namespace Note

/-- The job that entered the queue. -/
@[simp] def admitted? : Note → Option Job
  | admitted j => some j
  | _ => none

/-- The worker that took a job, with the job. -/
@[simp] def pulled? : Note → Option (Nat × Job)
  | pulled i j => some (i, j)
  | _ => none

/-- The worker that judged a job, with its verdict if it lived to give one. -/
@[simp] def outcome? : Note → Option (Nat × Option Verdict)
  | offered i v => some (i, some v)
  | dropped i v _ => some (i, some v)
  | died i _ => some (i, none)
  | _ => none

/-- The verdict that a worker gave. -/
@[simp] def verdict? : Note → Option Verdict
  | offered _ v => some v
  | dropped _ v _ => some v
  | _ => none

/-- The verdict that was put into the channel. -/
@[simp] def kept? : Note → Option Verdict
  | offered _ v => some v
  | _ => none

/-- The verdict that was dropped, with the reason. -/
@[simp] def dropped? : Note → Option (Verdict × DropReason)
  | dropped _ v why => some (v, why)
  | _ => none

/-- The verdict that the reader took from the channel. -/
@[simp] def received? : Note → Option Verdict
  | received v => some v
  | _ => none

/-- The verdicts that were thrown away with the receiving end. -/
@[simp] def thrown : Note → List Verdict
  | thrownAway vs => vs
  | _ => []

end Note

/-- The jobs that entered the queue, in order. -/
abbrev admitted (notes : List Note) : List Job := extract Note.admitted? notes

/-- The jobs that were taken from the queue, in order, with the workers that took them. -/
abbrev pulled (notes : List Note) : List (Nat × Job) := extract Note.pulled? notes

/-- How judging went each time, in order, with the workers that judged. -/
abbrev outcomes (notes : List Note) : List (Nat × Option Verdict) := extract Note.outcome? notes

/-- The verdicts that workers gave, in order. -/
abbrev verdicts (notes : List Note) : List Verdict := extract Note.verdict? notes

/-- The verdicts that were put into the channel, in order. -/
abbrev kept (notes : List Note) : List Verdict := extract Note.kept? notes

/-- The verdicts that were dropped, in order, with the reasons. -/
abbrev dropped (notes : List Note) : List (Verdict × DropReason) := extract Note.dropped? notes

/-- The verdicts that the reader took from the channel, in order. -/
abbrev received (notes : List Note) : List Verdict := extract Note.received? notes

/-- The verdicts that were in the channel when the reader threw the receiving end away. -/
def thrown (notes : List Note) : List Verdict := notes.flatMap Note.thrown

@[simp] theorem thrown_nil : thrown [] = [] := rfl

@[simp] theorem thrown_cons (n : Note) (notes : List Note) :
    thrown (n :: notes) = n.thrown ++ thrown notes := rfl

@[simp] theorem thrown_append (notes later : List Note) :
    thrown (notes ++ later) = thrown notes ++ thrown later :=
  List.flatMap_append

namespace State

/-- The call that gets to work in an action: it comes to the free lock or was handed the lock. -/
def beginning? (s : State) : Action → Option Call
  | .issue call => s.turns.entering? call
  | .step .resume _ => s.turns.granted?
  | _ => none

/-- The channel takes no verdict now, for the reason given. -/
def Rejects (s : State) : DropReason → Prop
  | .full => s.reader ≠ .gone ∧ s.capacity ≤ s.channel.length
  | .closed => s.reader = .gone

/-- A job gets the answer of the queue. -/
theorem answer_enqueue (s : State) (j : Job) : (s.enqueue j).1 = s.admission := by
  rw [enqueue]
  cases s.admission <;> rfl

/-- The queue takes a job as long as both its ends are there and it has room. -/
theorem admission_eq_ok_iff {s : State} :
    s.admission = .ok () ↔
      s.sender = true ∧ s.receives = true ∧ s.queue.length < s.capacity := by
  unfold admission
  split
  case isTrue hclosed =>
    simp only [reduceCtorEq, false_iff]
    rintro ⟨hsender, hreceives, -⟩
    simp [hsender, hreceives] at hclosed
  case isFalse => split <;> simp_all

/-- A call gets to work only when no other call waits inside. -/
theorem not_held_of_beginning {s : State} {a : Action} {call : Call}
    (h : s.beginning? a = some call) (other : Call) (i : Nat) :
    s.turns.lock ≠ .held other i := by
  intro hheld
  unfold beginning? at h
  split at h <;> simp_all [Turns.entering?, Turns.granted?]

/-- Someone in the crew is alive if and only if there is a place with a living worker. -/
theorem isManned_iff {s : State} :
    s.isManned = true ↔ ∃ (i : Nat) (w : Worker), s.crew[i]? = some w ∧ w.isAlive = true := by
  simp only [isManned, List.any_eq_true, List.mem_iff_getElem?]
  constructor
  · rintro ⟨w, ⟨i, hi⟩, halive⟩
    exact ⟨i, w, hi, halive⟩
  · rintro ⟨i, w, hi, halive⟩
    exact ⟨w, ⟨i, hi⟩, halive⟩

/-- One place in the crew changes, and the others stay. -/
theorem getElem?_setWorker {s : State} {i : Nat} {old : Worker} (h : s.crew[i]? = some old)
    (w : Worker) (k : Nat) :
    (s.setWorker i w).crew[k]? = if i = k then some w else s.crew[k]? := by
  obtain ⟨hi, -⟩ := List.getElem?_eq_some_iff.1 h
  simp [setWorker, List.getElem?_set, hi]

/-- A worker that is set to something alive keeps the crew alive. -/
theorem isManned_setWorker {s : State} {i : Nat} {old w : Worker} (h : s.crew[i]? = some old)
    (halive : w.isAlive = true) : (s.setWorker i w).isManned = true :=
  isManned_iff.2 ⟨i, w, by simp [getElem?_setWorker h], halive⟩

end State

/-! ### Changes -/

/-- Everything that can happen in an action. -/
inductive Change (policy : Policy) (s : State) : Action → State → List Note → Prop where
  /-- A job enters the queue. -/
  | accept {j : Job} (taken : s.admission = .ok ()) :
      Change policy s (.enqueue j) { s with queue := s.queue ++ [j] } [.admitted j]
  /-- A job is turned away. -/
  | refuse {j : Job} {why : QueueRefusal} (refused : s.admission = .error why) :
      Change policy s (.enqueue j) s [.refused j why]
  /-- A reader takes the receiving end of the channel. -/
  | takeResults (untaken : s.reader = .untaken) :
      Change policy s .takeResults { s with reader := .taken } []
  /-- The reader takes the oldest verdict. -/
  | receive {v : Verdict} {channel : List Verdict} (taken : s.reader = .taken)
      (next : s.channel = v :: channel) :
      Change policy s .receive { s with channel } [.received v]
  /-- The reader throws the receiving end away. -/
  | throwAway (taken : s.reader = .taken) :
      Change policy s .dropResults { s with reader := .gone, channel := [] }
        [.thrownAway s.channel]
  /-- The receiving end of the channel is not there to be used, or the channel is empty. -/
  | leaveResults {a : Action}
      (nothing : a = .takeResults ∧ s.reader ≠ .untaken ∨
        a = .receive ∧ (s.reader = .taken → s.channel = []) ∨
        a = .dropResults ∧ s.reader ≠ .taken) :
      Change policy s a s []
  /-- A call joins the line at the lock. -/
  | wait {call : Call} (busy : s.turns.lock ≠ .free) :
      Change policy s (.issue call) { s with turns := s.turns.queue call } []
  /-- A call starts the pool. -/
  | start {a : Action} {call : Call} (begun : s.beginning? a = some call)
      (request : call.request = .start) (created : s.lifecycle = .created) :
      Change policy s a
        { s with
          lifecycle := .running, receiver := false, crew := List.replicate s.workers .arriving,
          turns := s.turns.release }
        [.started, .returned call.id]
  /-- A call finds nothing to do. -/
  | passBy {a : Action} {call : Call} (begun : s.beginning? a = some call)
      (nothing : call.request = .start ∧ s.lifecycle ≠ .created ∨
        call.request = .stop ∧ s.lifecycle = .stopped) :
      Change policy s a { s with turns := s.turns.release } [.returned call.id]
  /-- A call closes the queue of the running pool, and waits for the first worker. -/
  | close {a : Action} {call : Call} (begun : s.beginning? a = some call)
      (request : call.request = .stop) (running : s.lifecycle = .running) :
      Change policy s a
        { s with lifecycle := .stopped, sender := false, turns := s.turns.hold call 0 } []
  /-- A call stops the pool before it was started, and the queue is lost. -/
  | discard {a : Action} {call : Call} (begun : s.beginning? a = some call)
      (request : call.request = .stop) (created : s.lifecycle = .created) :
      Change policy s a
        { s with
          lifecycle := .stopped, sender := false, receiver := false, queue := [], outlet := false,
          turns := s.turns.release }
        [.stoppedEarly s.queue, .returned call.id]
  /-- A worker comes back and joins the line. -/
  | arrive {i : Nat} {now : Timestamp} (arriving : s.crew[i]? = some .arriving) :
      Change policy s (.step (.arrive i) now)
        { s.setWorker i .inLine with line := s.line ++ [i] } []
  /-- The first in line takes the next job, and gives it the time if it has none. -/
  | pull {i : Nat} {now : Timestamp} {j : Job} {line : List Nat} {queue : List Job}
      (first : s.line = i :: line) (next : s.queue = j :: queue) :
      Change policy s (.step (.pull i) now)
        { s.setWorker i (.busy (j.stamp now)) with line, queue } [.pulled i (j.stamp now)]
  /-- A worker judges its job, and the channel takes the verdict. -/
  | offer {i : Nat} {now : Timestamp} {j : Job} {v : Verdict} (busy : s.crew[i]? = some (.busy j))
      (judged : policy now j = some v) (readable : s.reader ≠ .gone)
      (room : s.channel.length < s.capacity) :
      Change policy s (.step (.judge i) now)
        { s.setWorker i .arriving with channel := s.channel ++ [v] } [.offered i v]
  /-- A worker judges its job, and drops the verdict that the channel does not take. -/
  | drop {i : Nat} {now : Timestamp} {j : Job} {v : Verdict} {why : DropReason}
      (busy : s.crew[i]? = some (.busy j)) (judged : policy now j = some v)
      (rejects : s.Rejects why) :
      Change policy s (.step (.judge i) now) (s.setWorker i .arriving) [.dropped i v why]
  /-- A worker dies of its job, and another one is alive. -/
  | die {i : Nat} {now : Timestamp} {j : Job} (busy : s.crew[i]? = some (.busy j))
      (judged : policy now j = none) (manned : (s.setWorker i .dead).isManned = true) :
      Change policy s (.step (.judge i) now) (s.setWorker i .dead) [.died i j]
  /-- The last worker dies of its job, and the queue is lost. -/
  | dieLast {i : Nat} {now : Timestamp} {j : Job} (busy : s.crew[i]? = some (.busy j))
      (judged : policy now j = none) (unmanned : (s.setWorker i .dead).isManned = false) :
      Change policy s (.step (.judge i) now) { s.setWorker i .dead with queue := [] }
        [.died i j, .lost s.queue]
  /-- The first in line finds the queue closed and empty, and ends. -/
  | leave {i : Nat} {now : Timestamp} {line : List Nat} (first : s.line = i :: line)
      (empty : s.queue = []) (closed : s.sender = false) :
      Change policy s (.step (.leave i) now) { s.setWorker i .left with line } []
  /-- The call that waits for a worker finds that it has ended, and turns to the next one. -/
  | passWorker {call : Call} {i : Nat} {now : Timestamp} (held : s.turns.lock = .held call i)
      (left : s.crew[i]? = some .left) :
      Change policy s (.step .resume now) { s with turns := s.turns.hold call (i + 1) } []
  /-- The call that waits for a worker finds that it died, and turns to the next one. -/
  | reportDeath {call : Call} {i : Nat} {now : Timestamp} (held : s.turns.lock = .held call i)
      (dead : s.crew[i]? = some .dead) :
      Change policy s (.step .resume now) { s with turns := s.turns.hold call (i + 1) }
        [.workerFailed i]
  /-- The call that has waited for all workers gives the pool's end up, and returns. -/
  | finishCall {call : Call} {i : Nat} {now : Timestamp} (held : s.turns.lock = .held call i)
      (all : s.crew[i]? = none) :
      Change policy s (.step .resume now)
        { s with outlet := false, turns := s.turns.release } [.returned call.id]

/-! ### How the parts of the state hang together -/

namespace State

/-- The lifecycle, the ends of queue and channel, the crew, its line and the lock agree. -/
structure Coupled (s : State) : Prop where
  /-- There are workers to set to work. -/
  workers_pos : 0 < s.workers
  /-- Before the start all ends lie in the pool and there is no crew. -/
  created : s.lifecycle = .created →
    s.sender = true ∧ s.receiver = true ∧ s.outlet = true ∧ s.crew = []
  /-- The start has handed the receiving end of the queue to a full crew. -/
  running : s.lifecycle = .running →
    s.sender = true ∧ s.receiver = false ∧ s.outlet = true ∧ s.crew ≠ []
  /-- After the stop neither end of the queue lies in the pool. -/
  stopped : s.lifecycle = .stopped → s.sender = false ∧ s.receiver = false
  /-- The crew is complete once there is one. -/
  crewed : s.crew ≠ [] → s.crew.length = s.workers
  /-- When nobody has the receiving end of the queue, the queue is empty. -/
  emptied : s.receives = false → s.queue = []
  /-- The line names the places of those who stand in it. -/
  inLine : ∀ i, i ∈ s.line ↔ s.crew[i]? = some .inLine
  /-- Nobody stands in line twice. -/
  nodup : s.line.Nodup
  /-- A worker leaves only when the queue is closed and empty. -/
  left : .left ∈ s.crew → s.sender = false ∧ s.queue = []
  /-- A call that waits inside has stopped a pool that was started, and those it has waited for are
  not alive. -/
  held : ∀ call i, s.turns.lock = .held call i →
    call.request = .stop ∧ s.lifecycle = .stopped ∧ s.outlet = true ∧ s.crew ≠ [] ∧
      ∀ k w, k < i → s.crew[k]? = some w → w.isAlive = false
  /-- A stopped pool whose lock is not held has no end of the channel left. -/
  draining : s.lifecycle = .stopped →
    (∃ call i, s.turns.lock = .held call i) ∨ s.outlet = false
  /-- The pool gives its own end of the channel up after the stop, when nobody is alive. -/
  outlet : s.outlet = false → s.lifecycle = .stopped ∧ s.isManned = false
  /-- Nothing is in the channel when nobody can read it. -/
  gone : s.reader = .gone → s.channel = []
  /-- The queue keeps within its bound. -/
  queue_le : s.queue.length ≤ s.capacity
  /-- The channel keeps within its bound. -/
  channel_le : s.channel.length ≤ s.capacity

namespace Coupled

variable {policy : Policy} {s t : State} {a : Action} {call : Call} {new : List Note} {i : Nat}
  {w old : Worker}

/-- A new pool. -/
theorem of_new (workers capacity : Nat) : (State.new workers capacity).Coupled where
  workers_pos := by
    simp only [State.new, defaultWorkers]
    split <;> omega
  created _ := ⟨rfl, rfl, rfl, rfl⟩
  running h := by simp [State.new] at h
  stopped h := by simp [State.new] at h
  crewed h := by simp [State.new] at h
  emptied _ := rfl
  inLine i := by simp [State.new]
  nodup := List.nodup_nil
  left h := by simp [State.new] at h
  held _ _ h := by simp [State.new] at h
  draining h := by simp [State.new] at h
  outlet h := by simp [State.new] at h
  gone _ := rfl
  queue_le := Nat.zero_le _
  channel_le := Nat.zero_le _

/-- A call that gets to work makes a change. -/
theorem change_begin (hs : s.Coupled) (hbegun : s.beginning? a = some call) :
    Change policy s a (s.begin call).1 (s.begin call).2 := by
  have hpass (hnothing : call.request = .start ∧ s.lifecycle ≠ .created ∨
      call.request = .stop ∧ s.lifecycle = .stopped) :
      Change policy s a { s with turns := s.turns.release } [.returned call.id] :=
    .passBy hbegun hnothing
  rcases hrequest : call.request with - | -
  · rcases hlife : s.lifecycle with - | - | -
    · obtain ⟨-, hreceiver, houtlet, -⟩ := hs.created hlife
      have hstart : Change policy s a _ _ := .start hbegun hrequest hlife
      simpa [begin, hrequest, hlife, Lifecycle.tryStart, hreceiver, houtlet, release] using hstart
    all_goals
      have hnothing := hpass (.inl ⟨hrequest, by simp [hlife]⟩)
      simpa [begin, hrequest, hlife, Lifecycle.tryStart, release] using hnothing
  · rcases hlife : s.lifecycle with - | - | -
    · have hreceiver : s.receiver = true := (hs.created hlife).2.1
      simp only [begin, hrequest, hlife, Lifecycle.tryStop, hreceiver, if_true, release]
      exact .discard hbegun hrequest hlife
    · simp only [begin, hrequest, hlife, Lifecycle.tryStop]
      exact .close hbegun hrequest hlife
    · have hnothing := hpass (.inr ⟨hrequest, hlife⟩)
      simpa [begin, hrequest, hlife, Lifecycle.tryStop, release] using hnothing

/-- A worker that lives to give a verdict makes a change. -/
theorem change_offer {now : Timestamp} {j : Job} {v : Verdict}
    (hbusy : s.crew[i]? = some (.busy j)) (hjudged : policy now j = some v) :
    Change policy s (.step (.judge i) now) ((s.setWorker i .arriving).offer i v).1
      ((s.setWorker i .arriving).offer i v).2 := by
  unfold offer
  split
  case h_1 hgone => exact .drop hbusy hjudged hgone
  case h_2 hreadable =>
    split
    case isTrue hroom => exact .offer hbusy hjudged hreadable hroom
    case isFalse hfull => exact .drop hbusy hjudged ⟨hreadable, Nat.le_of_not_lt hfull⟩

/-- A step that is possible makes a change. -/
theorem change_step (hs : s.Coupled) {x : Step} {now : Timestamp}
    (h : s.step policy now x = some (t, new)) : Change policy s (.step x now) t new := by
  cases x with
  | arrive i =>
    simp only [step] at h
    split at h
    case h_1 harriving =>
      obtain ⟨rfl, rfl⟩ := Prod.mk.inj (Option.some.inj h)
      exact .arrive harriving
    case h_2 => simp at h
  | pull i =>
    simp only [step] at h
    split at h
    case h_1 hline hqueue =>
      split at h
      case isTrue hfirst =>
        obtain ⟨rfl, rfl⟩ := Prod.mk.inj (Option.some.inj h)
        exact .pull (hfirst ▸ hline) hqueue
      case isFalse => simp at h
    case h_2 => simp at h
  | judge i =>
    simp only [step] at h
    split at h
    case h_1 hbusy =>
      split at h
      case h_1 hjudged => simpa [Option.some.inj h] using change_offer hbusy hjudged
      case h_2 hjudged =>
        simp only [bury, Option.some.injEq] at h
        split at h
        case isTrue hmanned =>
          obtain ⟨rfl, rfl⟩ := Prod.mk.inj h
          exact .die hbusy hjudged hmanned
        case isFalse hunmanned =>
          obtain ⟨rfl, rfl⟩ := Prod.mk.inj h
          exact .dieLast hbusy hjudged (by simpa using hunmanned)
    case h_2 => simp at h
  | leave i =>
    simp only [step] at h
    split at h
    case h_1 hline hqueue hclosed =>
      split at h
      case isTrue hfirst =>
        obtain ⟨rfl, rfl⟩ := Prod.mk.inj (Option.some.inj h)
        exact .leave (hfirst ▸ hline) hqueue hclosed
      case isFalse => simp at h
    case h_2 => simp at h
  | resume =>
    simp only [step, resume?] at h
    split at h
    case h_1 => simp at h
    case h_2 call hgranted =>
      have hbegun : s.beginning? (.step .resume now) = some call := by
        simp [beginning?, Turns.granted?, hgranted]
      simpa [Option.some.inj h] using hs.change_begin hbegun
    case h_3 call i hheld =>
      simp only [await] at h
      split at h
      case h_1 hall =>
        obtain ⟨rfl, rfl⟩ := Prod.mk.inj (Option.some.inj h)
        exact .finishCall hheld hall
      case h_2 hleft =>
        obtain ⟨rfl, rfl⟩ := Prod.mk.inj (Option.some.inj h)
        exact .passWorker hheld hleft
      case h_3 hdead =>
        obtain ⟨rfl, rfl⟩ := Prod.mk.inj (Option.some.inj h)
        exact .reportDeath hheld hdead
      case h_4 => simp at h

/-- **Inversion.** Every action that is possible is one of the changes. -/
theorem change (hs : s.Coupled) (h : s.act policy a = some (t, new)) : Change policy s a t new := by
  cases a with
  | enqueue j =>
    simp only [act, enqueue, Option.some.injEq] at h
    split at h
    case h_1 htaken =>
      obtain ⟨rfl, rfl⟩ := Prod.mk.inj h
      exact .accept htaken
    case h_2 hrefused =>
      obtain ⟨rfl, rfl⟩ := Prod.mk.inj h
      exact .refuse hrefused
  | takeResults =>
    simp only [act, takeResults, Option.some.injEq] at h
    split at h
    case h_1 huntaken =>
      obtain ⟨rfl, rfl⟩ := Prod.mk.inj h
      exact .takeResults huntaken
    case h_2 htaken =>
      obtain ⟨rfl, rfl⟩ := Prod.mk.inj h
      exact .leaveResults (.inl ⟨rfl, htaken⟩)
  | receive =>
    simp only [act, receive, Option.some.injEq] at h
    split at h
    case h_1 htaken hnext =>
      obtain ⟨rfl, rfl⟩ := Prod.mk.inj h
      exact .receive htaken hnext
    case h_2 htaken hempty =>
      obtain ⟨rfl, rfl⟩ := Prod.mk.inj h
      exact .leaveResults (.inr (.inl ⟨rfl, fun _ ↦ hempty⟩))
    case h_3 hnext hempty =>
      obtain ⟨rfl, rfl⟩ := Prod.mk.inj h
      refine .leaveResults (.inr (.inl ⟨rfl, fun htaken ↦ ?_⟩))
      rcases hchannel : s.channel with - | ⟨v, channel⟩
      · rfl
      · exact absurd hchannel (hnext v channel htaken)
  | dropResults =>
    simp only [act, dropResults, Option.some.injEq] at h
    split at h
    case h_1 htaken =>
      obtain ⟨rfl, rfl⟩ := Prod.mk.inj h
      exact .throwAway htaken
    case h_2 htaken =>
      obtain ⟨rfl, rfl⟩ := Prod.mk.inj h
      exact .leaveResults (.inr (.inr ⟨rfl, htaken⟩))
  | issue call =>
    simp only [act, issue, Option.some.injEq] at h
    split at h
    case h_1 hfree =>
      have hbegun : s.beginning? (.issue call) = some call := by
        simp [beginning?, Turns.entering?, hfree]
      simpa [h] using hs.change_begin hbegun
    case h_2 hbusy =>
      obtain ⟨rfl, rfl⟩ := Prod.mk.inj h
      exact .wait hbusy
  | step x now => exact hs.change_step h

end Coupled

end State

end Conveyor.Moderation.Pool
