import Conveyor.Http.Failure
import Conveyor.Metrics.Aggregator
import Conveyor.Moderation.Service
import Conveyor.Pipeline.Basic
import Conveyor.Settings.Server
import Conveyor.Sink.Ring
import Conveyor.Sink.Stdout
import Conveyor.Sink.Webhook

/-!
# The server

The server puts the parts together: a pipeline with a ring of recent events, the log and, where it is
configured, a webhook as its sinks; a moderation service that judges by banned terms; and the
aggregator of metrics.

It is a machine made of the machines of its parts. A step of the server is a step of a part, and the
only choices left open are those of the scheduler, what became of an event that was posted, and what
the clock shows.

A call to the server is a list of stages, each a call to a part; a stage begins when the one before
has returned. A start goes through the pipeline and the pool, a shutdown through the pipeline, the
pool and the collector, so that no part is stopped while one that feeds it still works.

Nothing here measures time, so the time limits of the settings are left out. A stage of a shutdown may
take as long as it needs: none is given up with a warning after `shutdownTimeout`, and its call is
not dropped while it waits. No request is answered with 408 after `requestTimeout`.
-/

namespace Conveyor.Server

open Metrics Moderation Time

/-- A sink of the pipeline of the server. -/
inductive Outlet where
  /-- The ring of recent events. -/
  | recent
  /-- The log. -/
  | stdout
  /-- The webhook. -/
  | webhook
  deriving DecidableEq, Repr

namespace Outlet

/-- The name of a sink in the log. -/
def name : Outlet → String
  | recent => Sink.Ring.name
  | stdout => Sink.Stdout.name
  | webhook => Sink.Webhook.name

/-- The answer of a sink, if that becomes of an event that it posts. -/
def answer (o : Outlet) (delivery : Sink.Delivery) : Sink.Reply :=
  match o with
  | recent => .delivered
  | stdout => .delivered
  | webhook => Sink.Webhook.reply delivery

end Outlet

/-- A call to a part of the server. -/
inductive Stage where
  /-- A call to the pipeline. -/
  | pipeline (request : Request)
  /-- A call to the moderation service. -/
  | moderation (request : Service.Request)
  deriving DecidableEq, Repr

/-- What a call asks of the server. -/
inductive Order where
  /-- Start the pipeline and the pool. -/
  | start
  /-- Stop every part, each when it has finished what it took, without a time limit. -/
  | shutdown
  /-- Stop the pipeline alone. -/
  | stopPipeline
  /-- Stop the pool alone. -/
  | stopPool
  /-- Stop the moderation service alone. -/
  | stopModeration
  deriving DecidableEq, Repr

/-- The stages of a call, in order. -/
def Order.stages : Order → List Stage
  | start => [.pipeline .start, .moderation .start]
  | shutdown => [.pipeline .stop, .moderation .stopPool, .moderation .shutdown]
  | stopPipeline => [.pipeline .stop]
  | stopPool => [.moderation .stopPool]
  | stopModeration => [.moderation .stop]

/-- A call that has not returned: a stage of it is under way. -/
structure Pending where
  /-- The number of the call. -/
  id : Nat
  /-- The stages after the one that is under way. -/
  rest : List Stage
  deriving DecidableEq, Repr

/-- A server. -/
structure State where
  /-- The pipeline of log events. -/
  pipeline : Pipeline.State Outlet
  /-- The latest events. -/
  recent : Sink.Ring
  /-- The moderation service. -/
  moderation : Service.State
  /-- The terms that the moderation service judges by. -/
  banned : BannedTerms
  /-- The running summaries of metrics. -/
  metrics : Aggregator
  /-- The calls that have not returned. -/
  pending : List Pending

/-- Something that happened in the server. -/
inductive Note where
  /-- Something happened in the pipeline. -/
  | pipeline (note : Pipeline.Note Outlet)
  /-- Something happened in the moderation service. -/
  | moderation (note : Service.Note)
  /-- A request failed. -/
  | failed (failure : Http.Failure)
  /-- A call returned. -/
  | returned (id : Nat)
  deriving DecidableEq

/-- The records that a sink writes when it is given an event. -/
def Outlet.records (e : Event) : Outlet → List Record
  | stdout => [Sink.Stdout.record e]
  | _ => []

/-- The records of the log about what happened. -/
def Note.records : Note → List Record
  | pipeline note =>
    match note with
    | .called sink e => sink.records e
    | note => note.records Outlet.name
  | moderation note => note.records
  | failed failure => failure.records
  | returned _ => []

/-- A step in the background. -/
inductive Step where
  /-- The pipeline takes the next event and gives it to its first sink. -/
  | pull
  /-- The sink that was called answers; if it is the webhook, this became of the event. -/
  | answer (delivery : Sink.Delivery)
  /-- The task of the pipeline ends. -/
  | finish
  /-- A call to the pipeline goes on. -/
  | resume
  /-- A step of the moderation service. -/
  | moderation (step : Service.Step)
  deriving DecidableEq, Repr

namespace State

/-- The server of the given settings, with nothing started, and what happened while it was made. -/
def new (settings : Settings.Server) : State × List Note :=
  let p := settings.pipeline
  let sinks : List Outlet :=
    [.recent, .stdout] ++ if p.forwardUrl.isSome then [.webhook] else []
  let pipeline : Pipeline.State Outlet :=
    sinks.foldl (fun s o ↦ (s.register o).2.1) (.new p.queueSize p.minLevel)
  let m := settings.moderation
  let (moderation, notes) := Service.State.ofPool (.new m.workers m.queueSize)
  ({ pipeline
     recent := .ofCapacity p.recentCapacity
     moderation
     banned := .ofTerms m.bannedTerms
     metrics := .empty
     pending := [] }, notes.map .moderation)

/-- Both services have been started and not stopped. -/
def isHealthy (s : State) : Bool :=
  s.pipeline.lifecycle == .running && s.moderation.pool.lifecycle == .running

/-! ### What happens in the parts -/

/-- The ring keeps the events that it is given. -/
def keepRecent (ring : Sink.Ring) (notes : List (Pipeline.Note Outlet)) : Sink.Ring :=
  notes.foldl
    (fun ring note ↦
      match note with
      | .called .recent e => ring.push e
      | _ => ring)
    ring

/-- Takes over a new state of the pipeline with what happened. -/
def withPipeline (s : State) (pipeline : Pipeline.State Outlet)
    (notes : List (Pipeline.Note Outlet)) : State :=
  { s with pipeline, recent := keepRecent s.recent notes }

/-! ### Calls -/

/-- A call begins its next stages, as far as they return at once. -/
def advance (s : State) (id : Nat) : List Stage → State × List Note
  | [] => (s, [.returned id])
  | .pipeline request :: rest =>
    let (pipeline, notes) := s.pipeline.issue ⟨id, request⟩
    let s := s.withPipeline pipeline notes
    if notes.contains (.returned id) then
      let (s, later) := s.advance id rest
      (s, notes.map .pipeline ++ later)
    else ({ s with pending := s.pending ++ [⟨id, rest⟩] }, notes.map .pipeline)
  | .moderation request :: rest =>
    let (moderation, notes) := s.moderation.issue id request
    let s := { s with moderation }
    if notes.contains (.returned id) then
      let (s, later) := s.advance id rest
      (s, notes.map .moderation ++ later)
    else ({ s with pending := s.pending ++ [⟨id, rest⟩] }, notes.map .moderation)

/-- Issues a call, with a number that no other call has. -/
def issue (s : State) (id : Nat) (order : Order) : State × List Note :=
  s.advance id order.stages

/-- The stage of a call has returned, and its next one begins. -/
def proceed (s : State) (id : Nat) : State × List Note :=
  match s.pending.find? (·.id == id) with
  | some p => { s with pending := s.pending.filter (·.id != id) }.advance id p.rest
  | none => (s, [])

/-- The calls whose stages have returned go on, in order. -/
def proceedAll (s : State) : List Nat → State × List Note
  | [] => (s, [])
  | id :: ids =>
    let (s, now) := s.proceed id
    let (s, later) := s.proceedAll ids
    (s, now ++ later)

/-- The calls to the pipeline that returned. -/
def pipelineReturns (notes : List (Pipeline.Note Outlet)) : List Nat :=
  notes.filterMap fun note ↦
    match note with
    | .returned id => some id
    | _ => none

/-- The calls to the moderation service that returned. -/
def moderationReturns (notes : List Service.Note) : List Nat :=
  notes.filterMap fun note ↦
    match note with
    | .returned id => some id
    | _ => none

/-! ### Steps -/

/-- The state and the notes after a step of the pipeline, if it is possible. -/
def stepPipeline (s : State) (x : Pipeline.Step) : Option (State × List Note) := do
  let (pipeline, notes) ← s.pipeline.step x
  let (s, later) := (s.withPipeline pipeline notes).proceedAll (pipelineReturns notes)
  return (s, notes.map .pipeline ++ later)

/-- The state and the notes after a step of the moderation service, if it is possible. -/
def stepModeration (s : State) (now : Timestamp) (x : Service.Step) :
    Option (State × List Note) := do
  let (moderation, notes) ← s.moderation.step s.banned.policy now x
  let (s, later) := proceedAll { s with moderation } (moderationReturns notes)
  return (s, notes.map .moderation ++ later)

/-- The state and the notes after a step at a given time, if it is possible. -/
def step (s : State) (now : Timestamp) : Step → Option (State × List Note)
  | .pull => s.stepPipeline .pull
  | .answer delivery =>
    match s.pipeline.task with
    | .calling _ _ sink _ => s.stepPipeline (.reply (sink.answer delivery))
    | _ => none
  | .finish => s.stepPipeline .finish
  | .resume => s.stepPipeline .resume
  | .moderation x => s.stepModeration now x

/-! ### One schedule -/

/-- The step of the pipeline that a simple schedule lets happen next, if any can. -/
def nextOfPipeline? (s : State) (delivery : Sink.Delivery) : Option Step :=
  match s.pipeline.task with
  | .calling .. => some (.answer delivery)
  | .idle _ =>
    if !s.pipeline.queue.isEmpty then some .pull
    else if !s.pipeline.sender then some .finish
    else (s.pipeline.step .resume).map fun _ ↦ .resume
  | _ => (s.pipeline.step .resume).map fun _ ↦ .resume

/-- What comes next in the server, and the rota of the pool after it: the pipeline goes before the
moderation service. -/
def next (s : State) (rota : Pool.Rota) (delivery : Sink.Delivery) :
    Pool.Move Step × Pool.Rota :=
  match s.nextOfPipeline? delivery with
  | some x => (.step x, rota)
  | none =>
    let (move, rota) := s.moderation.next rota
    (move.map .moderation, rota)

/-- What the stages that a call has not begun count in the bound on the number of steps. -/
def Stage.weight (s : State) : Stage → Nat
  | .pipeline _ => 3
  | .moderation _ => s.moderation.pool.workers * 3 + 5

/-- A bound on the number of steps that are possible before a client acts again. -/
def weight (s : State) : Nat :=
  let p := s.pipeline
  p.queue.length * (p.sinks.length + 2) + p.turns.weight 1 (fun _ ↦ 1) +
    (match p.task with
      | .idle _ => 1
      | .calling _ _ _ rest => rest.length + 2
      | _ => 0) +
    s.moderation.weight +
    s.pending.foldr (fun c n ↦ c.rest.foldr (fun stage m ↦ Stage.weight s stage + m) n) 0

/-- Lets at most `budget` moves happen, at a given time, if that becomes of events that are posted.
What happened before is listed with the latest first. -/
def settleWithin (s : State) (rota : Pool.Rota) (now : Timestamp) (delivery : Sink.Delivery)
    (past : List Note) : (budget : Nat) → State × Pool.Rota × List Note
  | 0 => (s, rota, past.reverse)
  | budget + 1 =>
    match s.next rota delivery with
    | (.rest, rota) => (s, rota, past.reverse)
    | (.shift, rota) => s.settleWithin rota now delivery past budget
    | (.step x, rota) =>
      match s.step now x with
      | none => (s, rota, past.reverse)
      | some (s, notes) => s.settleWithin rota now delivery (notes.reverse ++ past) budget

/-- Lets the steps happen that can in a pause between two operations of a client. -/
def pause (s : State) (rota : Pool.Rota) (now : Timestamp) (delivery : Sink.Delivery) :
    State × Pool.Rota × List Note :=
  let rounds := rota.grant Pace.roundsPerPause
  let (s, rota, notes) := s.settleWithin rounds now delivery [] (Pool.moves s.weight)
  (s, rota.comeBack, notes)

/-- Lets the steps happen that can, until the server is at rest. -/
def settle (s : State) (rota : Pool.Rota) (now : Timestamp) (delivery : Sink.Delivery) :
    State × Pool.Rota × List Note :=
  let budget := Pool.moves s.weight
  s.settleWithin (rota.grant budget) now delivery [] budget

/-- Issues a call, with a number that no other call has, and waits until it returns. -/
def call (s : State) (rota : Pool.Rota) (now : Timestamp) (delivery : Sink.Delivery) (id : Nat)
    (order : Order) : State × Pool.Rota × List Note :=
  let (s, notes) := s.issue id order
  if notes.contains (.returned id) then (s, rota, notes)
  else
    let (s, rota, later) := s.settle rota.spend now delivery
    (s, rota, notes ++ later)

end State

end Conveyor.Server
