import Conveyor.Lifecycle
import Conveyor.Moderation.Policy
import Conveyor.Record
import Conveyor.Turns

/-!
# The pool of workers

Jobs are admitted to a queue of bounded length. A fixed number of workers share its receiving end:
the workers stand in a line for it, the first in line takes the next job when there is one, judges it
by the policy and offers the verdict to a channel of the same bounded length. Nobody waits there: a
verdict for which the channel has no room is dropped with a warning.

Like the pipeline, the pool is a machine whose workers and waiting calls make steps in any order. The
policy and what the clock shows come from outside.

## Who holds what

The job queue has a sending end, which lies in the pool until it is stopped, and a receiving end,
which lies in the pool until it is started and then belongs to the workers. When the last of them
dies it is gone, and the jobs in the queue with it.

The channel of verdicts has a receiving end, which a single reader can take from the pool, and a
sending end for each living worker and one that lies in the pool. It is closed when all of these are
gone. A call of `stop` waits for every worker in turn before it gives up the pool's own, so no worker
is left to send by then.
-/

namespace Conveyor.Moderation

open Time

namespace Pool

/-- The name of the queue in refusals. -/
def queueName : String := "ugc queue"

/-- The number of workers of a pool that is asked for none. -/
def defaultWorkers : Nat := 2

/-- The capacity of a pool that is asked for none. -/
def defaultCapacity : Nat := 128

/-- A worker of the pool. -/
inductive Worker where
  /-- The worker comes back for another job. -/
  | arriving
  /-- The worker stands in line for the receiving end of the queue, or holds it. -/
  | inLine
  /-- The worker judges a job. -/
  | busy (job : Job)
  /-- The worker found the queue closed and empty, and has ended. -/
  | left
  /-- The worker died of a job. -/
  | dead
  deriving DecidableEq

namespace Worker

/-- The worker has its ends of the queue and the channel. -/
def isAlive : Worker → Bool
  | left => false
  | dead => false
  | _ => true

end Worker

/-- Where the receiving end of the channel of verdicts is. -/
inductive Reader where
  /-- It lies in the pool. -/
  | untaken
  /-- A reader has taken it. -/
  | taken
  /-- A reader has taken it and thrown it away. -/
  | gone
  deriving DecidableEq, Repr

/-- A pool of workers. -/
structure State where
  /-- The number of workers. -/
  workers : Nat
  /-- How many jobs the queue holds at most, and how many verdicts the channel. -/
  capacity : Nat
  /-- How far the pool has come. -/
  lifecycle : Lifecycle
  /-- The sending end of the queue lies in the pool. -/
  sender : Bool
  /-- The receiving end of the queue lies in the pool. -/
  receiver : Bool
  /-- The jobs in the queue, in order of admission. -/
  queue : List Job
  /-- The workers that were set to work. -/
  crew : List Worker
  /-- The places in the crew of the workers in line; the first holds the receiving end. -/
  line : List Nat
  /-- A sending end of the channel lies in the pool. -/
  outlet : Bool
  /-- The receiving end of the channel. -/
  reader : Reader
  /-- The verdicts in the channel, oldest first. -/
  channel : List Verdict
  /-- The turns of `start` and `stop`; a call that waits inside waits for the worker at this place
  in the crew. -/
  turns : Turns Nat
  deriving DecidableEq

/-- Why a verdict was dropped. -/
inductive DropReason where
  /-- The channel has no room. -/
  | full
  /-- Nobody will ever read it. -/
  | closed
  deriving DecidableEq, Repr

/-- The wording of a reason. -/
def DropReason.message : DropReason → String
  | full => "results channel full"
  | closed => "results channel closed"

/-- Something that happened in a pool. -/
inductive Note where
  /-- A job entered the queue. -/
  | admitted (job : Job)
  /-- A job was turned away. -/
  | refused (job : Job) (why : QueueRefusal)
  /-- The pool was started. -/
  | started
  /-- A worker took a job, which is shown with its time. -/
  | pulled (worker : Nat) (job : Job)
  /-- A worker judged its job and put the verdict into the channel. -/
  | offered (worker : Nat) (verdict : Verdict)
  /-- A worker judged its job and dropped the verdict. -/
  | dropped (worker : Nat) (verdict : Verdict) (reason : DropReason)
  /-- A worker died of its job. -/
  | died (worker : Nat) (job : Job)
  /-- The last worker died, and these jobs were lost with the queue. -/
  | lost (jobs : List Job)
  /-- The reader took a verdict from the channel. -/
  | received (verdict : Verdict)
  /-- The reader threw the receiving end away, with these verdicts in the channel. -/
  | thrownAway (verdicts : List Verdict)
  /-- The pool was stopped before it was started, with these jobs in its queue. -/
  | stoppedEarly (discarded : List Job)
  /-- A call of `stop` found that a worker had died. -/
  | workerFailed (worker : Nat)
  /-- A call returned. -/
  | returned (id : Nat)
  deriving DecidableEq

/-- The records of the log about what happened. Two details are left out: which worker dropped a verdict
(`worker_id`), and what a worker died of (`error`), which is said by the runtime. -/
def Note.records : Note → List Record
  | dropped _ v reason =>
    [.warning "Dropping moderation result"
      [("content_id", v.job.contentId), ("reason", reason.message)]]
  | stoppedEarly discarded =>
    [.warning "Worker pool stopped before it was started"
      [("discarded", toString discarded.length)]]
  | workerFailed _ => [.failure "Moderation worker failed" []]
  | _ => []

/-- A step of a worker, named by its place in the crew, or of a call that waits. -/
inductive Step where
  /-- A worker that comes back joins the line. -/
  | arrive (worker : Nat)
  /-- The first in line takes the next job. -/
  | pull (worker : Nat)
  /-- A busy worker judges its job and offers the verdict, or dies. -/
  | judge (worker : Nat)
  /-- The first in line finds the queue closed and empty, and ends. -/
  | leave (worker : Nat)
  /-- The call that holds the lock goes on. -/
  | resume
  deriving DecidableEq, Repr

/-- What a reader gets from the channel. -/
inductive Receipt where
  /-- The oldest verdict. -/
  | verdict (v : Verdict)
  /-- Nothing now, but there may be something later. -/
  | empty
  /-- Nothing now or later. -/
  | closed
  /-- Nothing, for the reader does not have the receiving end. -/
  | notTaken
  deriving DecidableEq

namespace State

/-- A pool that has not been started. Zero stands for the usual number of workers and the usual
capacity. -/
def new (workers capacity : Nat) : State where
  workers := if workers = 0 then defaultWorkers else workers
  capacity := if capacity = 0 then defaultCapacity else capacity
  lifecycle := .created
  sender := true
  receiver := true
  queue := []
  crew := []
  line := []
  outlet := true
  reader := .untaken
  channel := []
  turns := {}

/-- Some worker is alive. -/
def isManned (s : State) : Bool :=
  s.crew.any Worker.isAlive

/-- Someone has the receiving end of the queue. -/
def receives (s : State) : Bool :=
  s.receiver || s.isManned

/-- Someone has a sending end of the channel. -/
def sends (s : State) : Bool :=
  s.outlet || s.isManned

/-! ### Operations of clients -/

/-- The answer to a job that is offered to the queue. -/
def admission (s : State) : Admission :=
  if !s.sender || !s.receives then .error (.closed queueName)
  else if s.queue.length < s.capacity then .ok ()
  else .error (.full queueName s.capacity)

/-- Offers a job to the queue. -/
def enqueue (s : State) (j : Job) : Admission × State × List Note :=
  match s.admission with
  | .ok () => (.ok (), { s with queue := s.queue ++ [j] }, [.admitted j])
  | .error why => (.error why, s, [.refused j why])

/-- Takes the receiving end of the channel, and says whether it was there to be taken. -/
def takeResults (s : State) : Bool × State :=
  match s.reader with
  | .untaken => (true, { s with reader := .taken })
  | _ => (false, s)

/-- Reads from the channel without waiting. -/
def receive (s : State) : Receipt × State × List Note :=
  match s.reader, s.channel with
  | .taken, v :: channel => (.verdict v, { s with channel }, [.received v])
  | .taken, [] => (if s.sends then .empty else .closed, s, [])
  | _, _ => (.notTaken, s, [])

/-- Reads from the channel until nothing is left: the verdicts, and what there was instead of another
one. -/
def drain (s : State) : List Verdict × Receipt × State × List Note :=
  match s.reader with
  | .taken =>
    (s.channel, if s.sends then .empty else .closed, { s with channel := [] },
      s.channel.map .received)
  | _ => ([], .notTaken, s, [])

/-- Throws the receiving end of the channel away, if the reader has it. -/
def dropResults (s : State) : State × List Note :=
  match s.reader with
  | .taken => ({ s with reader := .gone, channel := [] }, [.thrownAway s.channel])
  | _ => (s, [])

/-! ### Calls -/

/-- The call that holds the lock returns. -/
def release (s : State) (call : Call) : State × List Note :=
  ({ s with turns := s.turns.release }, [.returned call.id])

/-- A call that holds the lock begins. When the pool starts, the receiving end of the queue goes to
the new workers, each of which also gets a sending end of the channel. When it stops, the sending end
of the queue is given up, and with workers to wait for the call waits for the first. -/
def begin (s : State) (call : Call) : State × List Note :=
  match call.request with
  | .start =>
    let (moved, lifecycle) := s.lifecycle.tryStart
    let s := { s with lifecycle }
    if moved && s.receiver then
      let s := { s with receiver := false }
      -- Every new worker gets a copy of the pool's own sending end of the channel.
      if s.outlet then
        let (s, notes) := release { s with crew := List.replicate s.workers .arriving } call
        (s, .started :: notes)
      else s.release call
    else s.release call
  | .stop =>
    let (previous, lifecycle) := s.lifecycle.tryStop
    let s := { s with lifecycle }
    match previous with
    | none => s.release call
    | some .created =>
      let discarded := if s.receiver then s.queue else []
      let s := { s with sender := false, receiver := false, queue := [], outlet := false }
      let (s, notes) := s.release call
      (s, .stoppedEarly discarded :: notes)
    | some _ => ({ s with sender := false, turns := s.turns.hold call 0 }, [])

/-- Issues a call, which begins at once if the lock is free and waits behind the others if not. -/
def issue (s : State) (call : Call) : State × List Note :=
  match s.turns.lock with
  | .free => s.begin call
  | _ => ({ s with turns := s.turns.queue call }, [])

/-- The call that waits for the worker at place `i` goes on: to the next worker when this one has
ended, and to its end when there is none left. -/
def await (s : State) (call : Call) (i : Nat) : Option (State × List Note) :=
  match s.crew[i]? with
  -- No worker is left to wait for, so this is the last sending end of the channel.
  | none =>
    let s := { s with outlet := false }
    some (s.release call)
  | some .left => some ({ s with turns := s.turns.hold call (i + 1) }, [])
  | some .dead => some ({ s with turns := s.turns.hold call (i + 1) }, [.workerFailed i])
  | some _ => none

/-- The call that holds the lock goes on, if it can. -/
def resume? (s : State) : Option (State × List Note) :=
  match s.turns.lock with
  | .free => none
  | .granted call => some (s.begin call)
  | .held call i => s.await call i

/-! ### Steps -/

/-- The state with another state of one worker. -/
def setWorker (s : State) (i : Nat) (w : Worker) : State :=
  { s with crew := s.crew.set i w }

/-- A worker offers a verdict to the channel. -/
def offer (s : State) (i : Nat) (v : Verdict) : State × List Note :=
  match s.reader with
  | .gone => (s, [.dropped i v .closed])
  | _ =>
    if s.channel.length < s.capacity then
      ({ s with channel := s.channel ++ [v] }, [.offered i v])
    else (s, [.dropped i v .full])

/-- A worker dies of its job. The queue goes with the last worker. -/
def bury (s : State) (i : Nat) (j : Job) : State × List Note :=
  let s := s.setWorker i .dead
  if s.isManned then (s, [.died i j])
  else ({ s with queue := [] }, [.died i j, .lost s.queue])

/-- The state and the notes after a step at a given time, if it is possible. -/
def step (s : State) (policy : Policy) (now : Timestamp) : Step → Option (State × List Note)
  | .arrive i =>
    match s.crew[i]? with
    | some .arriving => some ({ s.setWorker i .inLine with line := s.line ++ [i] }, [])
    | _ => none
  | .pull i =>
    match s.line, s.queue with
    | first :: line, j :: queue =>
      if first = i then
        let j := j.stamp now
        some ({ s.setWorker i (.busy j) with line, queue }, [.pulled i j])
      else none
    | _, _ => none
  | .judge i =>
    match s.crew[i]? with
    | some (.busy j) =>
      match policy now j with
      | some v => some ((s.setWorker i .arriving).offer i v)
      | none => some (s.bury i j)
    | _ => none
  | .leave i =>
    match s.line, s.queue, s.sender with
    | first :: line, [], false =>
      if first = i then some ({ s.setWorker i .left with line }, []) else none
    | _, _, _ => none
  | .resume => s.resume?

end State

/-! ### Runs -/

/-- Something that a client or the scheduler does. -/
inductive Action where
  /-- A client offers a job. -/
  | enqueue (job : Job)
  /-- A client takes the receiving end of the channel. -/
  | takeResults
  /-- The reader reads from the channel. -/
  | receive
  /-- The reader throws the receiving end away. -/
  | dropResults
  /-- A client issues a call. -/
  | issue (call : Call)
  /-- The scheduler lets a step happen at a given time. -/
  | step (step : Step) (now : Timestamp)

namespace State

/-- The state and the notes after an action. Clients may act at any time; a step must be possible. -/
def act (s : State) (policy : Policy) : Action → Option (State × List Note)
  | .enqueue j => some (s.enqueue j).2
  | .takeResults => some (s.takeResults.2, [])
  | .receive => some s.receive.2
  | .dropResults => some s.dropResults
  | .issue call => some (s.issue call)
  | .step x now => s.step policy now x

/-- The state and the history after a run, if all its steps are possible. -/
def run (s : State) (policy : Policy) : List Action → Option (State × List Note)
  | [] => some (s, [])
  | a :: as => do
    let (s, notes) ← s.act policy a
    let (s, later) ← s.run policy as
    return (s, notes ++ later)

end State

end Pool

end Conveyor.Moderation
