import Conveyor.Pace
import Conveyor.Pipeline.Basic
import Conveyor.Sink.Rack

/-!
# A pipeline on a bench

A pipeline together with a rack of sinks, run under one fixed schedule: an operation of a client
happens while everything else stands still, and in the pause after it the steps happen that can. A
pause is long enough for most queues, but not for every one: the task does as many operations in it as
the pace of the background allows. A call that waits is given the time that it takes, until the
pipeline is at rest. At rest every event has been delivered or a gate holds it up.

The schedule prefers the task to the calls that wait. It is one of many; what holds of every run of
the pipeline holds of the runs on a bench.
-/

namespace Conveyor.Pipeline

/-- What an observer of the sinks sees. -/
inductive Sighting where
  /-- A sink was given an event with this message. -/
  | called (sink : Nat) (message : String)
  /-- A gate let the event with this message by. -/
  | passed (sink : Nat) (message : String)
  deriving DecidableEq, Repr

/-- What is reported of a stretch of a run. -/
structure Report where
  /-- What an observer of the sinks saw. -/
  sightings : List Sighting := []
  /-- The records of the log. -/
  records : List Record := []
  /-- The calls that returned. -/
  returned : List Nat := []

namespace Report

/-- One stretch after another. -/
def append (a b : Report) : Report :=
  ⟨a.sightings ++ b.sightings, a.records ++ b.records, a.returned ++ b.returned⟩

instance : Append Report := ⟨append⟩

/-- Many stretches, one after another. -/
def join (rs : List Report) : Report :=
  ⟨rs.flatMap sightings, rs.flatMap records, rs.flatMap returned⟩

end Report

/-- A pipeline whose sinks are on a rack. -/
structure Bench where
  /-- The pipeline; a sink is its handle on the rack. -/
  pipeline : State Nat
  /-- The sinks. -/
  rack : Sink.Rack := {}
  /-- The calls that will begin in the background when the client steps back. -/
  background : List Call := []
  /-- How many operations the client may still do before it has to step back. -/
  client : Nat := Pace.operationsPerTurn

namespace Bench

/-- A bench with a pipeline that was not started and has no sinks. -/
def new (capacity : Nat) (minLevel : Level) : Bench where
  pipeline := .new capacity minLevel

/-- The sinks take part in what happened, and it is reported. -/
def observe (b : Bench) (note : Note Nat) : Bench × Report :=
  let records := note.records b.rack.name
  match note with
  | .called sink e =>
    ({ b with rack := b.rack.receive sink e },
      { sightings := [.called sink e.message], records := records ++ b.rack.records sink e })
  | .replied sink e _ =>
    ({ b with rack := b.rack.settle sink },
      { sightings := if b.rack.isGate sink then [.passed sink e.message] else [], records })
  | .returned id => (b, { records, returned := [id] })
  | _ => (b, { records })

/-- The notes of an operation or a step are observed in order. -/
def follow (b : Bench) (s : State Nat) (notes : List (Note Nat)) : Bench × Report :=
  notes.foldl
    (fun (b, report) note ↦
      let (b, more) := b.observe note
      (b, report ++ more))
    ({ b with pipeline := s }, {})

/-- Registers a sink and mounts it on the rack if it is taken. -/
def register (b : Bench) (m : Sink.Member) : Admission × Bench :=
  match b.pipeline.register b.rack.members.length with
  | (.ok (), s, _) => (.ok (), { b with pipeline := s, rack := b.rack.mount m })
  | (.error why, s, _) => (.error why, { b with pipeline := s })

/-- Offers an event. -/
def enqueue (b : Bench) (e : Event) : Admission × Bench :=
  let (answer, s, _) := b.pipeline.enqueue e
  (answer, { b with pipeline := s })

/-- Offers events one after another. -/
def enqueueAll (b : Bench) (es : List Event) : List Admission × Bench :=
  let (answers, s, _) := b.pipeline.enqueueAll es
  (answers, { b with pipeline := s })

/-- Issues a call. -/
def issue (b : Bench) (call : Call) : Bench × Report :=
  let (s, notes) := b.pipeline.issue call
  b.follow s notes

/-- Issues a call in the background. -/
def issueLater (b : Bench) (call : Call) : Bench :=
  { b with background := b.background ++ [call] }

/-- The calls that were issued in the background begin. -/
def beginBackground (b : Bench) : Bench × Report :=
  b.background.foldl
    (fun (b, report) call ↦
      let (b, more) := b.issue call
      (b, report ++ more))
    ({ b with background := [] }, {})

/-- Adds permits for the gates. -/
def permit (b : Bench) (count : Nat) : Bench :=
  { b with rack := { b.rack with permits := b.rack.permits + count } }

/-- The step that the schedule lets happen next, if any can. -/
def next? (b : Bench) : Option Step :=
  match b.pipeline.task with
  | .calling _ e sink _ =>
    match b.rack.reply? sink e with
    | some r => some (.reply r)
    | none => (b.pipeline.step .resume).map fun _ ↦ .resume
  | .idle _ =>
    if !b.pipeline.queue.isEmpty then some .pull
    else if !b.pipeline.sender then some .finish
    else (b.pipeline.step .resume).map fun _ ↦ .resume
  | _ => (b.pipeline.step .resume).map fun _ ↦ .resume

/-- How many operations of the task a step is: it takes an event from the queue or finds the queue
closed, or a gate gets a permit. -/
def cost (b : Bench) : Step → Nat
  | .pull => 1
  | .finish => 1
  | .reply _ =>
    match b.pipeline.task with
    | .calling _ _ sink _ => if b.rack.isGate sink then 1 else 0
    | _ => 0
  | .resume => 0

/-- A bound on the number of steps until rest. -/
def weight (b : Bench) : Nat :=
  let p := b.pipeline
  p.queue.length * (p.sinks.length + 2) + p.turns.weight 1 (fun _ ↦ 1) +
    match p.task with
    | .idle _ => 1
    | .calling _ _ _ rest => rest.length + 2
    | _ => 0

/-- Lets at most `budget` steps happen, and at most `operations` operations of the task. The reports
on what happened before are listed with the latest first. -/
def settleWithin (b : Bench) (past : List Report) (operations : Nat) :
    (budget : Nat) → Bench × Report
  | 0 => (b, .join past.reverse)
  | budget + 1 =>
    match b.next? with
    | none => (b, .join past.reverse)
    | some x =>
      let cost := b.cost x
      if operations < cost then (b, .join past.reverse)
      else
        match b.pipeline.step x with
        | none => (b, .join past.reverse)
        | some (s, notes) =>
          let (b, report) := b.follow s notes
          settleWithin b (report :: past) (operations - cost) budget

/-- The client steps back while there is time for this many rounds. Nobody but the task has much to
do, so it has a turn in every round. -/
def yield (b : Bench) (rounds : Nat) : Bench × Report :=
  let (b, begun) := b.beginBackground
  let (b, report) := b.settleWithin [] (rounds * Pace.operationsPerTurn) b.weight
  ({ b with client := Pace.operationsPerTurn }, begun ++ report)

/-- Lets the steps happen that can in a pause between two operations of a client. -/
def pause (b : Bench) : Bench × Report :=
  b.yield Pace.roundsPerPause

/-- Lets the steps happen that can, until the pipeline is at rest. -/
def settle (b : Bench) : Bench × Report :=
  b.yield (b.weight + 1)

/-- Issues a call and waits until it returns. Coming to the lock is an operation of the client, which
steps back for a round first if it has none left. -/
def call (b : Bench) (c : Call) : Bench × Report :=
  let (b, before) := if b.client = 0 then b.yield 1 else (b, {})
  let (b, begun) := issue { b with client := b.client - 1 } c
  if begun.returned.contains c.id then (b, before ++ begun)
  else
    let (b, later) := b.settle
    (b, before ++ begun ++ later)

end Bench

end Conveyor.Pipeline
