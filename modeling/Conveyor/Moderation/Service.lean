import Conveyor.Moderation.Rota
import Conveyor.Moderation.Store

/-!
# The moderation service

A pool of workers together with a collector, a task that moves every verdict from the channel of the
pool into a store. Whoever wants verdicts asks the store and has nothing to do with channels.

The collector is the single reader of the channel. It ends when the channel is closed and empty. If
the channel was taken by someone else before, there is no collector and the store stays empty.

Calls to the service are made of calls to the pool and of waiting for the collector. The handle to
wait with can be taken only once; a call that finds it taken does not wait.
-/

namespace Conveyor.Moderation

open Time

namespace Service

/-- The task that moves verdicts from the channel to the store. -/
inductive Collector where
  /-- There is none, because the channel was taken. -/
  | absent
  /-- It waits for a verdict. -/
  | ready
  /-- It has taken a verdict and not stored it yet. -/
  | carrying (verdict : Verdict)
  /-- It found the channel closed and empty, and has ended. -/
  | ended
  deriving DecidableEq

/-- What a call asks of the service. -/
inductive Request where
  /-- Start the pool. -/
  | start
  /-- Stop the pool. -/
  | stopPool
  /-- Wait for the collector to end. -/
  | shutdown
  /-- Stop the pool, then wait for the collector to end. -/
  | stop
  deriving DecidableEq, Repr

/-- What a call that has not returned waits for. -/
inductive Stage where
  /-- It waits for its call to the pool to return, and returns itself then. -/
  | atPool
  /-- It waits for its call to the pool to return, and turns to the collector then. -/
  | atPoolThenCollector
  /-- It waits for the collector to end. -/
  | atCollector
  deriving DecidableEq, Repr

/-- A call that has not returned. -/
structure Pending where
  /-- The number of the call. -/
  id : Nat
  /-- What it waits for. -/
  stage : Stage
  deriving DecidableEq, Repr

/-- A moderation service. -/
structure State where
  /-- The pool. -/
  pool : Pool.State
  /-- The collector. -/
  collector : Collector
  /-- The handle to wait for the collector with has not been taken. -/
  handle : Bool
  /-- The verdicts that wait to be fetched. -/
  store : Store
  /-- The calls that have not returned. -/
  pending : List Pending
  deriving DecidableEq

/-- Something that happened in a service. -/
inductive Note where
  /-- Something happened in the pool. -/
  | pool (note : Pool.Note)
  /-- The service was made without a collector. -/
  | uncollected
  /-- The collector took a verdict from the channel. -/
  | collected (verdict : Verdict)
  /-- The collector stored a verdict. -/
  | stored (verdict : Verdict)
  /-- A client fetched a verdict. -/
  | popped (verdict : Verdict)
  /-- A call returned. -/
  | returned (id : Nat)
  deriving DecidableEq

/-- The records of the log about what happened. -/
def Note.records : Note → List Record
  | pool note => note.records
  | uncollected => [.failure "Moderation results already taken; collector not started" []]
  | _ => []

/-- A step of the pool, the collector or a call that waits for it. -/
inductive Step where
  /-- A step of the pool. -/
  | pool (step : Pool.Step)
  /-- The collector takes the oldest verdict from the channel. -/
  | collect
  /-- The collector stores the verdict that it has taken. -/
  | store
  /-- The collector finds the channel closed and empty, and ends. -/
  | finish
  /-- A call that waits for the collector finds that it has ended. -/
  | join (id : Nat)
  deriving DecidableEq, Repr

namespace State

/-- The service over a pool, whose channel it takes if it can. -/
def ofPool (pool : Pool.State) : State × List Note :=
  match pool.takeResults with
  | (true, pool) => (⟨pool, .ready, true, .empty, []⟩, [])
  | (false, pool) => (⟨pool, .absent, false, .empty, []⟩, [.uncollected])

/-! ### Operations of clients -/

/-- Offers a job to the pool. -/
def submit (s : State) (j : Job) : Admission × State × List Note :=
  let (answer, pool, notes) := s.pool.enqueue j
  (answer, { s with pool }, notes.map .pool)

/-- Fetches the oldest verdict from the store, if there is one. -/
def pop (s : State) : Option Verdict × State × List Note :=
  match s.store.pop with
  | (some v, store) => (some v, { s with store }, [.popped v])
  | (none, store) => (none, { s with store }, [])

/-- Fetches every verdict from the store, oldest first. -/
def popAll (s : State) : List Verdict × State × List Note :=
  (s.store.waiting, { s with store := .empty }, s.store.waiting.map .popped)

/-- The number of verdicts in the store. -/
def available (s : State) : Nat := s.store.size

/-! ### Calls -/

/-- A call is over. -/
def complete (s : State) (id : Nat) : State × List Note :=
  ({ s with pending := s.pending.filter (·.id != id) }, [.returned id])

/-- A call turns to the collector: it takes the handle and waits, or returns if the handle is gone. -/
def turnToCollector (s : State) (id : Nat) : State × List Note :=
  if s.handle then
    ({ s with
        handle := false
        pending := s.pending.filter (·.id != id) ++ [⟨id, .atCollector⟩] }, [])
  else s.complete id

/-- A call to the pool has returned, and the call it was made for goes on. -/
def proceed (s : State) (id : Nat) : State × List Note :=
  -- Only the calls that were made through the service are known here.
  match s.pending.find? (·.id == id) with
  | some ⟨_, .atPool⟩ => s.complete id
  | some ⟨_, .atPoolThenCollector⟩ => s.turnToCollector id
  | _ => (s, [])

/-- Takes over what happened in the pool. -/
def absorb (s : State) : List Pool.Note → State × List Note
  | [] => (s, [])
  | note :: notes =>
    let (s, now) :=
      match note with
      | .returned id => s.proceed id
      | _ => (s, [])
    let (s, later) := s.absorb notes
    (s, .pool note :: now ++ later)

/-- Makes a call to the pool on behalf of a call. -/
def callPool (s : State) (id : Nat) (request : Conveyor.Request) (stage : Stage) :
    State × List Note :=
  let (pool, notes) := s.pool.issue ⟨id, request⟩
  absorb { s with pool, pending := s.pending ++ [⟨id, stage⟩] } notes

/-- Issues a call, with a number that no other call has. -/
def issue (s : State) (id : Nat) : Request → State × List Note
  | .start => s.callPool id .start .atPool
  | .stopPool => s.callPool id .stop .atPool
  | .stop => s.callPool id .stop .atPoolThenCollector
  | .shutdown => s.turnToCollector id

/-! ### Steps -/

/-- The state and the notes after a step at a given time, if it is possible. -/
def step (s : State) (policy : Policy) (now : Timestamp) : Step → Option (State × List Note)
  | .pool x => do
    let (pool, notes) ← s.pool.step policy now x
    return absorb { s with pool } notes
  | .collect =>
    match s.collector, s.pool.channel with
    | .ready, v :: channel =>
      some ({ s with pool := { s.pool with channel }, collector := .carrying v }, [.collected v])
    | _, _ => none
  | .store =>
    match s.collector with
    | .carrying v => some ({ s with collector := .ready, store := s.store.push v }, [.stored v])
    | _ => none
  | .finish =>
    match s.collector, s.pool.channel with
    | .ready, [] => if s.pool.sends then none else some ({ s with collector := .ended }, [])
    | _, _ => none
  | .join id =>
    match s.collector with
    | .ended =>
      if s.pending.contains (⟨id, .atCollector⟩ : Pending) then some (s.complete id) else none
    | _ => none

end State

/-! ### Runs -/

/-- Something that a client or the scheduler does. -/
inductive Action where
  /-- A client submits a job. -/
  | submit (job : Job)
  /-- A client fetches a verdict. -/
  | pop
  /-- A client issues a call. -/
  | issue (id : Nat) (request : Request)
  /-- The scheduler lets a step happen at a given time. -/
  | step (step : Step) (now : Timestamp)

namespace State

/-- The state and the notes after an action. Clients may act at any time; a step must be possible. -/
def act (s : State) (policy : Policy) : Action → Option (State × List Note)
  | .submit j => some (s.submit j).2
  | .pop => some s.pop.2
  | .issue id request => some (s.issue id request)
  | .step x now => s.step policy now x

/-- The state and the history after a run, if all its steps are possible. -/
def run (s : State) (policy : Policy) : List Action → Option (State × List Note)
  | [] => some (s, [])
  | a :: as => do
    let (s, notes) ← s.act policy a
    let (s, later) ← s.run policy as
    return (s, notes ++ later)

/-! ### One schedule -/

/-- The step of the collector, or else of a call that waits for it, if there is one. -/
def nextOfCollector? (s : State) : Option Step :=
  match s.collector, s.pool.channel with
  | .carrying _, _ => some .store
  | .ready, _ :: _ => some .collect
  | .ready, [] => if s.pool.sends then none else some .finish
  | .ended, _ => (s.pending.find? fun p ↦ p.stage == .atCollector).map fun p ↦ .join p.id
  | .absent, _ => none

/-- What comes next in the service, and the rota of the pool after it. The collector waits until
nothing more happens in the pool, so a verdict may be dropped although the collector is there. -/
def next (s : State) (rota : Pool.Rota) : Pool.Move Step × Pool.Rota :=
  match rota.next s.pool with
  | (.rest, rota) => (.ofOption s.nextOfCollector?, rota)
  | (move, rota) => (move.map .pool, rota)

/-- A bound on the number of steps that are possible before a client acts again. -/
def weight (s : State) : Nat :=
  s.pool.weight + s.pending.length +
    match s.collector with
    | .ready => 1
    | .carrying _ => 2
    | _ => 0

/-- Lets at most `budget` moves happen, at a given time. What happened before is listed with the
latest first. -/
def settleWithin (s : State) (rota : Pool.Rota) (policy : Policy) (now : Timestamp)
    (past : List Note) : (budget : Nat) → State × Pool.Rota × List Note
  | 0 => (s, rota, past.reverse)
  | budget + 1 =>
    match s.next rota with
    | (.rest, rota) => (s, rota, past.reverse)
    | (.shift, rota) => s.settleWithin rota policy now past budget
    | (.step x, rota) =>
      match s.step policy now x with
      | none => (s, rota, past.reverse)
      | some (s, notes) => s.settleWithin rota policy now (notes.reverse ++ past) budget

/-- Lets the steps happen that can in a pause between two operations of a client. -/
def pause (s : State) (rota : Pool.Rota) (policy : Policy) (now : Timestamp) :
    State × Pool.Rota × List Note :=
  let rounds := rota.grant Pace.roundsPerPause
  let (s, rota, notes) := s.settleWithin rounds policy now [] (Pool.moves s.weight)
  (s, rota.comeBack, notes)

/-- Lets the steps happen that can, until the service is at rest. -/
def settle (s : State) (rota : Pool.Rota) (policy : Policy) (now : Timestamp) :
    State × Pool.Rota × List Note :=
  let budget := Pool.moves s.weight
  s.settleWithin (rota.grant budget) policy now [] budget

/-- Issues a call, with a number that no other call has, and waits until it returns. -/
def call (s : State) (rota : Pool.Rota) (policy : Policy) (now : Timestamp) (id : Nat)
    (request : Request) : State × Pool.Rota × List Note :=
  let (s, notes) := s.issue id request
  if notes.contains (.returned id) then (s, rota, notes)
  else
    let (s, rota, later) := s.settle rota.spend policy now
    (s, rota, notes ++ later)

end State

end Service

end Conveyor.Moderation
