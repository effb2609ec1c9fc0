import Conveyor.Moderation.Pool
import Conveyor.Pace

/-!
# The rota of the workers

A pool allows its steps in any order that is possible. The rota is the order in which they happen when
the workers share one thread: one of them at a time is at work, until it steps back of its own accord.

* In its turn a worker joins the line if it comes back. While it is the first in line it takes a job,
  judges it and joins the line again, so with nobody else in line it takes one job after another. Its
  turn is over when another one is before it, when there is no job, or when it has ended.
* Whoever becomes the first in line is ready for a turn. Those who are ready come in the order in
  which they became it.
* A worker that has taken as many jobs as one turn allows is postponed to the next round, where those
  who were postponed last come first.
* A round is over when nobody is ready, or when as many turns have passed as one round allows. Only
  then does a call that waits go on, past as many ended workers as one turn allows.
* A client has turns too, between the rounds: it steps back when it waits, when it has no operation
  left, or in a pause.
* When there is no time for another round, those who are ready are so still when there is time again.

A job is judged in the turn in which it was taken, so the verdicts come in the order of the jobs.

Everything here chooses among steps; what a step does is a matter of the pool alone.
-/

namespace Conveyor.Moderation

open Time

namespace Pool

/-- How many jobs a worker takes at most in one turn: for each it gets the receiving end of the queue
and takes the job. -/
def jobsPerTurn : Nat := Pace.operationsPerTurn / 2

/-- What comes next in a machine that is run by a rota. -/
inductive Move (σ : Type) where
  /-- A step happens. -/
  | step (x : σ)
  /-- A turn or a round begins or ends, and nothing else happens. -/
  | shift
  /-- Nothing can happen before a client acts, or there is no time left for it. -/
  | rest
  deriving DecidableEq, Repr

namespace Move

variable {σ τ : Type}

/-- The step that is possible, if there is one. -/
def ofOption : Option σ → Move σ
  | some x => .step x
  | none => .rest

/-- The same move, as one of a machine that has this one as a part. -/
def map (f : σ → τ) : Move σ → Move τ
  | step x => .step (f x)
  | shift => .shift
  | rest => .rest

end Move

/-- Whose turn it is, and who comes next. Workers are named by their places in the crew. -/
structure Rota where
  /-- The worker at work, with the number of jobs that it may still take. -/
  turn : Option (Nat × Nat) := none
  /-- The workers that are ready for a turn, in order. -/
  ready : List Nat := []
  /-- The workers that are postponed to the next round, the latest first. -/
  postponed : List Nat := []
  /-- How many turns are left in the round. -/
  turnsLeft : Nat := 0
  /-- How many rounds there is time for. -/
  roundsLeft : Nat := 0
  /-- How many operations the client may still do before the next round. -/
  client : Nat := Pace.operationsPerTurn
  /-- How many workers of the crew have been ready at some time. -/
  enlisted : Nat := 0
  deriving DecidableEq, Repr

namespace Rota

/-- The turn is over. -/
def endTurn (r : Rota) : Rota := { r with turn := none }

/-- The first in line gives the receiving end away, and the one behind it becomes ready. -/
def handOver (r : Rota) (s : State) : Rota :=
  { r with ready := r.ready ++ s.line.tail.take 1 }

/-- What the worker at place `i` does in its turn, in which it may take `jobs` jobs more. -/
def work (r : Rota) (s : State) (i jobs : Nat) : Move Step × Rota :=
  match s.crew[i]? with
  | some .arriving =>
    if jobs = 0 then (.shift, { r.endTurn with postponed := i :: r.postponed })
    else (.step (.arrive i), r)
  | some .inLine =>
    if s.line.head? ≠ some i then (.shift, r.endTurn)
    else if !s.queue.isEmpty then
      (.step (.pull i), { r.handOver s with turn := some (i, jobs - 1) })
    else if !s.sender then (.step (.leave i), r.handOver s)
    else (.shift, r.endTurn)
  | some (.busy _) => (.step (.judge i), r)
  | _ => (.shift, r.endTurn)

/-- The workers that a client has set going: the first in line, if there is a job for it or the queue
was closed, and those that were just set to work. -/
def woken (r : Rota) (s : State) : List Nat :=
  let first := if s.queue.isEmpty && s.sender then [] else s.line.take 1
  first.filter (!r.ready.contains ·) ++ List.range' r.enlisted (s.crew.length - r.enlisted)

/-- Those who did not get their turn are ready for the next round, then the postponed, then those
that a client has set going. -/
def gather (r : Rota) (s : State) : Rota :=
  { r with
    ready := r.ready ++ r.postponed ++ r.woken s
    postponed := []
    enlisted := s.crew.length }

/-- What comes next when a round is over: the call that waits goes on as far as the client may, and
then the next round begins, if there is anything to do and time left. -/
def nextRound (r : Rota) (s : State) : Move Step × Rota :=
  let waiting := s.resume?.isSome
  if waiting && r.client != 0 then (.step .resume, { r with client := r.client - 1 })
  else
    let r := r.gather s
    if !waiting && r.ready.isEmpty then (.rest, r)
    else
      match r.roundsLeft with
      | 0 => (.rest, r)
      | roundsLeft + 1 =>
        (.shift, { r with
          turnsLeft := Pace.turnsPerRound, roundsLeft, client := Pace.operationsPerTurn })

/-- What comes next in the pool, and the rota after it. -/
def next (r : Rota) (s : State) : Move Step × Rota :=
  match r.turn, r.ready, r.turnsLeft with
  | some (i, jobs), _, _ => r.work s i jobs
  | none, i :: ready, turnsLeft + 1 =>
    (.shift, { r with turn := some (i, jobsPerTurn), ready, turnsLeft })
  | none, _, _ => r.nextRound s

/-- The client has done an operation. -/
def spend (r : Rota) : Rota := { r with client := r.client - 1 }

/-- The client waits, and there is time for this many rounds. -/
def grant (r : Rota) (rounds : Nat) : Rota := { r with roundsLeft := rounds }

/-- The client takes a new turn after it has stepped back. -/
def comeBack (r : Rota) : Rota := { r with client := Pace.operationsPerTurn }

end Rota

/-! ### Coming to rest -/

/-- What a worker counts in the bound on the number of steps. -/
def Worker.weight : Worker → Nat
  | .arriving => 2
  | .inLine => 1
  | .busy _ => 5
  | _ => 0

namespace State

/-- A bound on the number of steps that are possible before a client acts again, those that move
verdicts out of the channel included. -/
def weight (s : State) : Nat :=
  s.queue.length * 5 + s.channel.length * 2 + s.crew.foldr (fun w n ↦ w.weight + n) 0 +
    s.turns.weight (s.crew.length + 1) fun i ↦ s.crew.length + 1 - i

end State

/-- A bound on the number of moves of a machine that is run by a rota, where `steps` bounds the number
of its steps: a turn takes a step or was made ready by one, and takes three moves more at most, which
begin its round and begin and end the turn. -/
def moves (steps : Nat) : Nat := 4 * steps + 4

namespace State

/-- Lets at most `budget` moves happen, at a given time. What happened before is listed with the
latest first. -/
def settleWithin (s : State) (rota : Rota) (policy : Policy) (now : Timestamp) (past : List Note) :
    (budget : Nat) → State × Rota × List Note
  | 0 => (s, rota, past.reverse)
  | budget + 1 =>
    match rota.next s with
    | (.rest, rota) => (s, rota, past.reverse)
    | (.shift, rota) => s.settleWithin rota policy now past budget
    | (.step x, rota) =>
      match s.step policy now x with
      | none => (s, rota, past.reverse)
      | some (s, notes) => s.settleWithin rota policy now (notes.reverse ++ past) budget

/-- The client steps back while there is time for this many rounds. -/
def yield (s : State) (rota : Rota) (rounds : Nat) (policy : Policy) (now : Timestamp) :
    State × Rota × List Note :=
  let (s, rota, notes) := s.settleWithin (rota.grant rounds) policy now [] (moves s.weight)
  (s, rota.comeBack, notes)

/-- Lets the steps happen that can in a pause between two operations of a client. -/
def pause (s : State) (rota : Rota) (policy : Policy) (now : Timestamp) :
    State × Rota × List Note :=
  s.yield rota Pace.roundsPerPause policy now

/-- Lets the steps happen that can, until the pool is at rest. -/
def settle (s : State) (rota : Rota) (policy : Policy) (now : Timestamp) :
    State × Rota × List Note :=
  let budget := moves s.weight
  s.settleWithin (rota.grant budget) policy now [] budget

/-- Issues a call and waits until it returns. Coming to the lock is an operation of the client, which
steps back for a round first if it has none left. -/
def call (s : State) (rota : Rota) (policy : Policy) (now : Timestamp) (c : Call) :
    State × Rota × List Note :=
  let (s, rota, before) :=
    if rota.client = 0 then s.yield rota 1 policy now else (s, rota, [])
  let (s, notes) := s.issue c
  let rota := rota.spend
  if notes.contains (.returned c.id) then (s, rota, before ++ notes)
  else
    let (s, rota, later) := s.settle rota policy now
    (s, rota, before ++ notes ++ later)

end State

end Pool

end Conveyor.Moderation
