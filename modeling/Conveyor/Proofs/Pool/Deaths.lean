import Conveyor.Proofs.Pool.Phases
import Conveyor.Proofs.Pool.Sequential

/-!
# When workers die

A policy may kill the worker that judges by it. That costs the worker and its job, and nothing else:
the other jobs are where they would be, as long as somebody is left to take them, and a call of `stop`
returns as it always does. The main statement is `casualties_of_run`.

## Who is dead

Dead workers are counted twice, in the crew and in the history, and both counts agree
(`count_dead_eq`). When all have died (`State.AllDead`), nobody has the receiving end of the queue,
which is how a client can tell; the lifecycle says nothing of it.

## Who is reported

A call of `stop` turns to one worker after the other, and reports those that it finds dead. How far it
has come can be seen at the lock (`State.passed`), and what it has passed does not change any more, so
the reports are always the dead among the workers that were passed (`failures_eq`).
-/

namespace Conveyor.Moderation.Pool

open Time

variable {policy : Policy} {s t : State} {a : Action} {as : List Action} {notes new : List Note}
  {i : Nat} {w old : Worker}

/-! ### Counting the dead -/

/-- The worker dies of the job that it judges. -/
def Judgement.isFatal (policy : Policy) (g : Judgement) : Bool := (policy g.time g.job).isNone

/-- There were workers, and all of them have died. -/
def State.AllDead (s : State) : Prop := s.crew ≠ [] ∧ ∀ w ∈ s.crew, w = .dead

/-- A worker that is alive changes, and counts if it is dead then. -/
theorem State.count_dead_setWorker (hold : s.crew[i]? = some old) (halive : old.isAlive = true)
    (w : Worker) :
    (s.setWorker i w).crew.count .dead = s.crew.count .dead + [w].count .dead := by
  obtain ⟨hi, heq⟩ := List.getElem?_eq_some_iff.1 hold
  have hne : old ≠ .dead := by
    rintro rfl
    simp [Worker.isAlive] at halive
  rw [State.setWorker, List.count_set hi, heq, beq_false_of_ne hne, List.count_singleton]
  simp

/-- A worker dies if and only if it judges a job and the policy gives no verdict. -/
theorem Change.count_dead_eq (hs : s.Coupled) (h : Change policy s a t new) :
    t.crew.count .dead = s.crew.count .dead + (outcomes new).countP (·.2.isNone) := by
  cases h with
  | start begun request created =>
    rw [(hs.created created).2.2.2]
    simp [List.count_replicate]
  | arrive arriving => exact State.count_dead_setWorker arriving rfl _
  | pull first | leave first =>
    exact State.count_dead_setWorker (hs.inLine_of_first first) rfl _
  | offer busy | drop busy | die busy | dieLast busy =>
    exact State.count_dead_setWorker busy rfl _
  | _ => rfl

/-- The dead are as many as the judgements without a verdict. -/
theorem count_dead_eq (hs : s.Coupled) (hcrew : s.crew = [])
    (h : Runs (State.act · policy) s as t notes) :
    t.crew.count .dead = (outcomes notes).countP (·.2.isNone) := by
  refine hs.runs_induction h
    (motive := fun _ t notes ↦ t.crew.count .dead = (outcomes notes).countP (·.2.isNone))
    (by rw [hcrew]; rfl) ?_
  intro as t notes a u new ht hchange ih
  rw [hchange.count_dead_eq ht, ih, outcomes, outcomes, outcomes, extract_append, List.countP_append]

/-! ### When all have died -/

/-- When all workers have died, that is how it stays. -/
theorem Change.of_allDead (hs : s.Coupled) (h : Change policy s a t new) (hdead : s.AllDead) :
    t.AllDead := by
  have hnobody {i : Nat} {w : Worker} (hw : s.crew[i]? = some w) : w = .dead :=
    hdead.2 w (List.mem_of_getElem? hw)
  cases h with
  | start begun request created => exact absurd (hs.created created).2.2.2 hdead.1
  | arrive arriving => exact absurd (hnobody arriving) (by simp)
  | pull first | leave first => exact absurd (hnobody (hs.inLine_of_first first)) (by simp)
  | offer busy | drop busy | die busy | dieLast busy => exact absurd (hnobody busy) (by simp)
  | _ => exact hdead

theorem State.Coupled.allDead_of_runs (hs : s.Coupled)
    (h : Runs (State.act · policy) s as t notes) (hdead : s.AllDead) : t.AllDead := by
  refine hs.runs_induction h (motive := fun _ t _ ↦ t.AllDead) hdead ?_
  intro as t notes a u new ht hchange ih
  exact hchange.of_allDead ht ih

/-- When all workers have died, nobody is alive. -/
theorem State.AllDead.unmanned (h : s.AllDead) : s.isManned = false := by
  rw [State.isManned, List.any_eq_false]
  intro w hw
  rw [h.2 w hw]
  exact Bool.false_ne_true

/-- When all workers have died, the queue is closed. -/
theorem State.Coupled.admission_of_allDead (hs : s.Coupled) (hdead : s.AllDead) :
    s.admission = .error (.closed queueName) := by
  have hreceiver : s.receiver = false := by
    rcases hlife : s.lifecycle with - | - | -
    · exact absurd (hs.created hlife).2.2.2 hdead.1
    · exact (hs.running hlife).2.1
    · exact (hs.stopped hlife).2
  simp [State.admission, State.receives, hreceiver, hdead.unmanned]

/-- As long as the pool is not stopped, its queue is closed only when all workers have died. -/
theorem State.Coupled.admission_eq_closed_iff (hs : s.Coupled) (hlife : s.lifecycle ≠ .stopped) :
    s.admission = .error (.closed queueName) ↔ s.AllDead := by
  refine ⟨fun hclosed ↦ ?_, hs.admission_of_allDead⟩
  have hends : s.sender = false ∨ s.receives = false := by
    by_contra hopen
    have hopen : s.sender = true ∧ s.receives = true := by simpa using hopen
    rw [State.admission, hopen.1, hopen.2] at hclosed
    split at hclosed
    · contradiction
    · split at hclosed <;> simp at hclosed
  rcases hstate : s.lifecycle with - | - | -
  · obtain ⟨hsender, hreceiver, -⟩ := hs.created hstate
    simp [hsender, State.receives, hreceiver] at hends
  · obtain ⟨hsender, hreceiver, -, hcrew⟩ := hs.running hstate
    have hunmanned : s.isManned = false := by
      simpa [hsender, State.receives, hreceiver] using hends
    rw [State.isManned, List.any_eq_false] at hunmanned
    refine ⟨hcrew, fun w hw ↦ ?_⟩
    have hover := hunmanned w hw
    cases w with
    | dead => rfl
    | left => simp [(hs.left hw).1] at hsender
    | _ => exact absurd rfl hover
  · exact absurd hstate hlife

/-! ### Reports -/

/-- The place of a worker that was found dead. -/
@[simp] def Note.workerFailed? : Note → Option Nat
  | workerFailed i => some i
  | _ => none

/-- The places of the workers that were found dead, in order. -/
abbrev failures (notes : List Note) : List Nat := extract Note.workerFailed? notes

/-- The record about a worker that died. -/
def deathRecord : Record := .failure "Moderation worker failed" []

/-- The records of a history about workers that died. -/
def deathRecords (notes : List Note) : List Record :=
  recordsOf Note.records "Moderation worker failed" notes

/-- The log has one record for each worker that was found dead. -/
theorem deathRecords_eq (notes : List Note) :
    deathRecords notes = (failures notes).map fun _ ↦ deathRecord := by
  refine recordsOf_eq_map (fun n ↦ ?_) notes
  cases n <;> rfl

/-- The places before `n` of the workers that have died, in order. -/
def deadBefore (crew : List Worker) (n : Nat) : List Nat :=
  (List.range n).filter fun i ↦ crew[i]? = some .dead

@[simp] theorem deadBefore_zero (crew : List Worker) : deadBefore crew 0 = [] := rfl

theorem deadBefore_succ (crew : List Worker) (n : Nat) :
    deadBefore crew (n + 1) =
      deadBefore crew n ++ if crew[n]? = some .dead then [n] else [] := by
  rw [deadBefore, List.range_succ, List.filter_append, List.filter_singleton, deadBefore]
  simp

theorem deadBefore_congr {crew crew' : List Worker} {n : Nat}
    (h : ∀ k < n, crew[k]? = crew'[k]?) : deadBefore crew n = deadBefore crew' n :=
  List.filter_congr fun k hk ↦ by rw [h k (List.mem_range.1 hk)]

/-- Among the first places there are as many dead as among the first workers. -/
theorem length_deadBefore (crew : List Worker) (n : Nat) :
    (deadBefore crew n).length = (crew.take n).count .dead := by
  induction n with
  | zero => rfl
  | succ n ih =>
    rw [deadBefore_succ, List.length_append, ih, List.take_add_one, List.count_append]
    rcases crew[n]? with - | w
    · rfl
    · by_cases hw : w = .dead <;> simp [hw]

/-- How many workers the call that has the lock has passed, or the calls before it. -/
def State.passed (s : State) : Nat :=
  match s.turns.lock with
  | .held _ i => i
  | _ => if s.outlet then 0 else s.crew.length

theorem State.passed_of_held {call : Call} (h : s.turns.lock = .held call i) : s.passed = i := by
  rw [passed, h]

theorem State.passed_of_not_held (h : ∀ call i, s.turns.lock ≠ .held call i) :
    s.passed = if s.outlet then 0 else s.crew.length := by
  rw [passed]
  split
  case h_1 call i hheld => exact absurd hheld (h call i)
  case h_2 => rfl

/-- Whoever was passed is not alive. -/
theorem State.Coupled.over_of_lt_passed (hs : s.Coupled) (hi : i < s.passed)
    (hw : s.crew[i]? = some w) : w.isAlive = false := by
  by_cases hheld : ∃ call k, s.turns.lock = .held call k
  · obtain ⟨call, k, hheld⟩ := hheld
    rw [State.passed_of_held hheld] at hi
    exact (hs.held call k hheld).2.2.2.2 i w hi hw
  · have hnot : ∀ call k, s.turns.lock ≠ .held call k := fun call k h ↦ hheld ⟨call, k, h⟩
    rw [State.passed_of_not_held hnot] at hi
    have houtlet : s.outlet = false := by
      rw [← Bool.not_eq_true]
      intro houtlet
      rw [if_pos houtlet] at hi
      exact Nat.not_lt_zero i hi
    have hunmanned := (hs.outlet houtlet).2
    rw [← Bool.not_eq_true]
    exact fun halive ↦ by simp [State.isManned_iff.2 ⟨i, w, hw, halive⟩] at hunmanned

/-- A worker that is alive was not passed, so what it comes to changes no report. -/
theorem State.Coupled.deadBefore_setWorker (hs : s.Coupled) (hold : s.crew[i]? = some old)
    (halive : old.isAlive = true) (w : Worker) :
    deadBefore (s.setWorker i w).crew s.passed = deadBefore s.crew s.passed := by
  refine deadBefore_congr fun k hk ↦ ?_
  rw [State.getElem?_setWorker hold, if_neg]
  rintro rfl
  have hover := hs.over_of_lt_passed hk hold
  simp [halive] at hover

/-- A worker that changes makes no difference to how many were passed. -/
theorem State.passed_setWorker (s : State) (i : Nat) (w : Worker) :
    (s.setWorker i w).passed = s.passed := by
  simp [State.passed, State.setWorker]

/-- A call that passes a dead worker reports it, and nothing else is reported. -/
theorem Change.failures_eq (hs : s.Coupled) (hturn : InTurn s) (h : Change policy s a t new) :
    deadBefore t.crew t.passed = deadBefore s.crew s.passed ++ failures new := by
  have hreleased (call : Call) (i : Nat) : s.turns.release.lock ≠ .held call i :=
    s.turns.lock_release_ne_held call i
  -- A call that gets to work has passed nobody.
  have hbegun {call : Call} (hbegun : s.beginning? a = some call) :
      s.passed = if s.outlet then 0 else s.crew.length :=
    State.passed_of_not_held (State.not_held_of_beginning hbegun)
  have hworker {i : Nat} {old : Worker} (hold : s.crew[i]? = some old) (halive : old.isAlive = true)
      (w : Worker) :
      deadBefore (s.setWorker i w).crew (s.setWorker i w).passed =
        deadBefore s.crew s.passed ++ [] := by
    rw [State.passed_setWorker, hs.deadBefore_setWorker hold halive, List.append_nil]
  cases h with
  | start begun request created =>
    obtain ⟨-, -, houtlet, -⟩ := hs.created created
    rw [hbegun begun, State.passed_of_not_held hreleased]
    simp [houtlet]
  | passBy begun =>
    rw [hbegun begun, State.passed_of_not_held hreleased]
    exact (List.append_nil _).symm
  | close begun request running =>
    obtain ⟨-, -, houtlet, -⟩ := hs.running running
    rw [hbegun begun, State.passed_of_held rfl, houtlet]
    rfl
  | discard begun request created =>
    obtain ⟨-, -, houtlet, hcrew⟩ := hs.created created
    rw [hbegun begun, State.passed_of_not_held hreleased]
    simp [houtlet, hcrew]
  | arrive arriving => exact hworker arriving rfl _
  | pull first | leave first => exact hworker (hs.inLine_of_first first) rfl _
  | offer busy | drop busy | die busy | dieLast busy => exact hworker busy rfl _
  | passWorker held left =>
    rw [State.passed_of_held rfl, State.passed_of_held held, deadBefore_succ, left]
    simp
  | reportDeath held dead =>
    rw [State.passed_of_held rfl, State.passed_of_held held, deadBefore_succ, dead]
    simp
  | @finishCall call i now held all =>
    have hi : i = s.crew.length :=
      Nat.le_antisymm (hturn.place call i held) (List.getElem?_eq_none_iff.1 all)
    rw [State.passed_of_held held, State.passed_of_not_held hreleased, hi]
    exact (List.append_nil _).symm
  | _ => exact (List.append_nil _).symm

/-- The workers that were found dead are the dead among those that were passed. -/
theorem failures_eq (workers capacity : Nat)
    (h : Runs (State.act · policy) (State.new workers capacity) as t notes) :
    failures notes = deadBefore t.crew t.passed := by
  have hnew : (State.new workers capacity).Coupled := .of_new workers capacity
  induction h with
  | refl => rfl
  | tail run act_eq ih =>
    have hs := hnew.of_runs run
    have hturn := (InTurn.of_new workers capacity).of_runs hnew run
    rw [(hs.change act_eq).failures_eq hs hturn, ← ih, failures, failures, extract_append]

/-- Once the channel is closed, all the dead have been reported. -/
theorem length_failures_of_closed (workers capacity : Nat)
    (h : Runs (State.act · policy) (State.new workers capacity) as t notes)
    (hclosed : t.sends = false) : (failures notes).length = t.crew.count .dead := by
  have ht : t.Coupled := (State.Coupled.of_new workers capacity).of_runs h
  have houtlet : t.outlet = false := (State.ends_of_closed hclosed).1
  have hnot (call : Call) (i : Nat) : t.turns.lock ≠ .held call i := fun hheld ↦ by
    simp [(ht.held call i hheld).2.2.1] at houtlet
  rw [failures_eq workers capacity h, State.passed_of_not_held hnot, houtlet, length_deadBefore]
  simp

/-! ### Where the jobs are -/

/-- What is listed place by place, seen from one place. -/
theorem ofWorker_filterMap_range {α : Type} (f : Nat → Option α) (i n : Nat) :
    ofWorker i ((List.range n).filterMap fun k ↦ (f k).map (k, ·)) =
      if i < n then (f i).toList else [] := by
  induction n with
  | zero => rfl
  | succ n ih =>
    have hlast : ofWorker i ([n].filterMap fun k ↦ (f k).map (k, ·)) =
        if n = i then (f n).toList else [] := by
      cases hf : f n <;> simp [hf]
    rw [List.range_succ, List.filterMap_append, ofWorker_append, ih, hlast]
    rcases Nat.lt_trichotomy i n with hlt | rfl | hgt
    · rw [if_pos hlt, if_neg (Nat.ne_of_gt hlt), if_pos (Nat.lt_succ_of_lt hlt), List.append_nil]
    · rw [if_neg (Nat.lt_irrefl i), if_pos rfl, if_pos (Nat.lt_succ_self i), List.nil_append]
    · rw [if_neg (Nat.lt_asymm hgt), if_neg (Nat.ne_of_lt hgt), if_neg (Nat.not_lt.2 hgt),
        List.append_nil]

/-- The jobs in the hands of workers, with the places of these. -/
def State.hands (s : State) : List (Nat × Job) :=
  (List.range s.crew.length).filterMap fun i ↦ (s.inHand i).map (i, ·)

theorem ofWorker_hands (s : State) (i : Nat) : ofWorker i s.hands = (s.inHand i).toList := by
  rw [State.hands, ofWorker_filterMap_range]
  split
  case isTrue => rfl
  case isFalse hi =>
    rw [State.inHand, List.getElem?_eq_none_iff.2 (Nat.not_lt.1 hi)]
    rfl

/-- The jobs that were taken were judged or are in the hands of workers. -/
theorem Bench.pulled_perm_hands {judged : List Judgement} (h : Bench policy judged s notes) :
    (pulled notes).Perm (judged.map Judgement.taken ++ s.hands) := by
  refine perm_of_ofWorker fun i ↦ ?_
  rw [h.taken i, ofWorker_append, ofWorker_hands]

/-- The verdicts are what came of the judgements. -/
theorem verdicts_eq_filterMap (notes : List Note) :
    verdicts notes = (outcomes notes).filterMap Prod.snd := by
  induction notes with
  | nil => rfl
  | cons n notes ih => cases n <;> simp [ih]

/-- Judging gives the verdicts of the policy, as far as it gives any. -/
theorem Bench.verdicts_eq_filterMap {judged : List Judgement} (h : Bench policy judged s notes) :
    verdicts notes = judged.filterMap fun g ↦ policy g.time g.job := by
  rw [Pool.verdicts_eq_filterMap, h.outcomes, List.filterMap_map]
  rfl

/-- Jobs are lost with the queue, when the pool is stopped before its start or the last worker
dies. -/
theorem State.not_isLossless_iff : ¬s.IsLossless ↔ s.StoppedEarly ∨ s.AllDead := by
  rw [State.IsLossless, State.AllDead, not_and_or, not_not]
  simp

theorem workers_of_runs (hs : s.Coupled) (h : Runs (State.act · policy) s as t notes) :
    t.workers = s.workers := by
  refine hs.runs_induction h (motive := fun _ t _ ↦ t.workers = s.workers) rfl ?_
  intro as t notes a u new ht hchange ih
  rw [hchange.workers_eq, ih]

/-! ### Coming to rest -/

/-- What is done in a step at a time. -/
abbrev stepAt (x : Step × Timestamp) : Action := .step x.1 x.2

/-- Every step takes something of the weight. -/
theorem State.weight_lt_of_step {x : Step × Timestamp} (h : s.Coupled ∧ InTurn s)
    (hact : s.act policy (stepAt x) = some (t, new)) :
    (t.Coupled ∧ InTurn t) ∧ t.weight < s.weight := by
  obtain ⟨hs, hturn⟩ := h
  have hchange := hs.change hact
  exact ⟨⟨hs.of_change hchange, hturn.of_change hs hchange⟩, hchange.weight_lt hs hturn⟩

/-! ### The statement -/

/-- Where the workers and the jobs are after the run `as` of the pool `start`. -/
structure Casualties (policy : Policy) (start : State) (as : List Action) (s : State)
    (notes : List Note) : Prop where
  /-- As many workers are dead as jobs were judged without a verdict. -/
  dead : s.crew.count .dead = (start.judgements policy as).countP (·.isFatal policy)
  /-- They are no more than the workers there are. -/
  dead_le : s.crew.count .dead ≤ start.workers
  /-- The accepted jobs are, in order, those that were taken, those in the queue and those that were
  lost. Each of those that were taken killed its worker, was judged or is in the hands of a worker,
  and one of these only. Jobs are lost only when the pool is stopped before its start, or when all
  workers have died. -/
  placed : ∃ front lost,
    start.accepted policy as = front ++ s.queue ++ lost ∧ front.length = (pullTimes as).length ∧
      (List.zipWith Job.stamp front (pullTimes as)).Perm
        (((start.judgements policy as).filter (·.isFatal policy)).map Judgement.job ++
          ((start.judgements policy as).filter (!·.isFatal policy)).map Judgement.job ++
            s.hands.map Prod.snd) ∧
      (lost ≠ [] → s.StoppedEarly ∨ s.AllDead)
  /-- The other judgements gave one verdict each, that of the policy. -/
  verdicts : Pool.verdicts notes = (start.judgements policy as).filterMap fun g ↦ policy g.time g.job
  /-- A pool with workers is running until a call of `stop` is issued. -/
  running : s.crew ≠ [] → (∀ id, .issue ⟨id, .stop⟩ ∉ as) → s.lifecycle = .running
  /-- Until then the queue is closed if and only if all workers have died. -/
  closed_iff : (∀ id, .issue ⟨id, .stop⟩ ∉ as) →
    ∀ j, (s.enqueue j).1 = .error (.closed queueName) ↔ s.AllDead
  /-- When all workers have died, that is how it stays. -/
  forever : s.AllDead → ∀ after u later, s.run policy after = some (u, later) →
    u.AllDead ∧ ∀ j, u.enqueue j = (.error (.closed queueName), u, [.refused j (.closed queueName)])
  /-- Left to itself the pool makes finitely many steps. -/
  steps_le : ∀ (xs : List (Step × Timestamp)) t more,
    s.run policy (xs.map stepAt) = some (t, more) → xs.length ≤ s.weight
  /-- It comes to rest. -/
  rests : ∃ (xs : List (Step × Timestamp)) (t : State) (more : List Note),
    s.run policy (xs.map stepAt) = some (t, more) ∧ t.AtRest policy
  /-- When it is at rest, every call has returned. -/
  returned : s.AtRest policy → ∀ call, .issue call ∈ as → .returned call.id ∈ notes
  /-- When a call of `stop` has returned, the channel is closed, and the log has one record for each
  worker that died. The verdicts that were not dropped have been received, were thrown away, or are
  in the channel; whoever has its receiving end gets these, in order, and then the answer that it is
  closed. -/
  reported : ∀ id, IsStop as id → .returned id ∈ notes →
    s.sends = false ∧ deathRecords notes = List.replicate (s.crew.count .dead) deathRecord ∧
      (Pool.verdicts notes).Perm
        (start.collected policy as ++ thrown notes ++ s.channel ++ (dropped notes).map Prod.fst) ∧
      ∀ after u later, s.run policy after = some (u, later) →
        s.receipts policy after = closedReceipts s.channel (s.receipts policy after).length

section Statement

variable {workers capacity : Nat}

/-- The jobs that were taken killed their workers, were judged or are in the hands of workers. -/
theorem placed_of_runs (h : Runs (State.act · policy) (State.new workers capacity) as s notes) :
    ∃ front lost,
      (State.new workers capacity).accepted policy as = front ++ s.queue ++ lost ∧
        front.length = (pullTimes as).length ∧
        (List.zipWith Job.stamp front (pullTimes as)).Perm
          ((((State.new workers capacity).judgements policy as).filter
              (·.isFatal policy)).map Judgement.job ++
            (((State.new workers capacity).judgements policy as).filter
              (!·.isFatal policy)).map Judgement.job ++ s.hands.map Prod.snd) ∧
        (lost ≠ [] → s.StoppedEarly ∨ s.AllDead) := by
  have hnew : (State.new workers capacity).Coupled := .of_new workers capacity
  obtain ⟨front, lost, hintake⟩ := Intake.of_runs hnew rfl h
  have hbench := Bench.of_runs hnew (fun _ ↦ rfl) h
  refine ⟨front, lost, (accepted_eq hnew h).trans hintake.admitted, hintake.times, ?_, fun hlost ↦ ?_⟩
  · have hpulled := (hbench.pulled_perm_hands).map Prod.snd
    rw [hintake.pulled, List.map_append, List.map_map] at hpulled
    have hparts := (List.filter_append_perm (Judgement.isFatal policy)
      ((State.new workers capacity).judgements policy as)).map Judgement.job
    rw [List.map_append] at hparts
    exact hpulled.trans (hparts.symm.append_right _)
  · exact State.not_isLossless_iff.1 (mt hintake.lossless hlost)

/-- **Deaths of workers.** After every run of a new pool with any policy, as many workers have died as
jobs were judged without a verdict, and every other job is in one place. The queue stays open as long
as somebody is left to take jobs. Calls of `stop` return, and the log then has one record for each
worker that died. -/
theorem casualties_of_run
    (hrun : (State.new workers capacity).run policy as = some (s, notes)) :
    Casualties policy (State.new workers capacity) as s notes := by
  have hnew : (State.new workers capacity).Coupled := .of_new workers capacity
  have hruns := State.run_iff.1 hrun
  have hs : s.Coupled := hnew.of_runs hruns
  have hturn : InTurn s := (InTurn.of_new workers capacity).of_runs hnew hruns
  have hbench := Bench.of_runs hnew (fun _ ↦ rfl) hruns
  have hstopped := stopped_iff_of_runs hnew (.of_new workers capacity) hruns Lifecycle.noConfusion
  have hopen (hnone : ∀ id, .issue ⟨id, .stop⟩ ∉ as) : s.lifecycle ≠ .stopped := fun h ↦ by
    obtain ⟨id, hid⟩ := hstopped.1 h
    exact hnone id hid
  exact {
    dead := by
      rw [count_dead_eq hnew rfl hruns, hbench.outcomes, List.countP_map]
      rfl
    dead_le := by
      rw [← workers_of_runs hnew hruns]
      by_cases hcrew : s.crew = []
      · rw [hcrew]
        exact Nat.zero_le _
      · rw [← hs.crewed hcrew]
        exact List.count_le_length
    placed := placed_of_runs hruns
    verdicts := hbench.verdicts_eq_filterMap
    running := fun hcrew hnone ↦ by
      rcases hlife : s.lifecycle with - | - | -
      · exact absurd hlife (hs.started hcrew)
      · rfl
      · exact absurd hlife (hopen hnone)
    closed_iff := fun hnone j ↦ by
      rw [State.answer_enqueue, hs.admission_eq_closed_iff (hopen hnone)]
    forever := fun hdead after u later hafter ↦ by
      have hlater := State.run_iff.1 hafter
      have hall := hs.allDead_of_runs hlater hdead
      refine ⟨hall, fun j ↦ ?_⟩
      rw [State.enqueue, (hs.of_runs hlater).admission_of_allDead hall]
    steps_le := fun xs t more hmore ↦ by
      have hle := Runs.weight_add_le State.weight_lt_of_step (State.run_iff.1 hmore) ⟨hs, hturn⟩
      exact Nat.le_trans (Nat.le_add_left _ _) hle
    rests := by
      obtain ⟨xs, t, more, hmore, hrest⟩ :=
        exists_rest (State.act · policy) State.weight_lt_of_step ⟨hs, hturn⟩
      exact ⟨xs, t, more, State.run_iff.2 hmore, fun x now ↦ hrest (x, now)⟩
    returned := fun hrest call hissued ↦ by
      refine (mem_calls_or_returned hnew hruns hissued).resolve_left fun hwaits ↦ ?_
      rw [hs.calls_eq_nil hturn hrest] at hwaits
      exact List.not_mem_nil hwaits
    reported := fun id hid hreturned ↦ by
      have hclosed := closed_of_returned hruns hid hreturned
      refine ⟨hclosed, ?_, ?_, fun after u later hafter ↦ ?_⟩
      · rw [deathRecords_eq, List.map_const', length_failures_of_closed workers capacity hruns hclosed]
      · rw [collected_eq hnew hruns, ← (Outlet.of_runs hnew rfl hruns).kept]
        exact verdicts_perm notes
      · have hlater := State.run_iff.1 hafter
        exact (Drained.of_runs hs hclosed hlater).eq_closedReceipts
          (hs.onlyRead_of_runs hlater hclosed) }

end Statement

/-- Two workers judge one job and die of two others, a fourth job is lost with the queue, and then the
pool is stopped. -/
def sampleLosses : List Action :=
  [.enqueue (sampleJob "a"), .enqueue (sampleJob "b"), .takeResults, .issue ⟨0, .start⟩,
    .step (.arrive 0) .epoch, .step (.arrive 1) .epoch, .step (.pull 0) .epoch,
    .step (.pull 1) .epoch, .step (.judge 1) .epoch, .step (.judge 0) .epoch,
    .enqueue (sampleJob "b"), .enqueue (sampleJob "c"), .step (.arrive 0) .epoch,
    .step (.pull 0) .epoch, .step (.judge 0) .epoch, .enqueue (sampleJob "d"), .issue ⟨1, .stop⟩,
    .step .resume .epoch, .step .resume .epoch, .step .resume .epoch]

theorem casualties_of_run_sample : ∃ s notes,
    (State.new 2 2).run sampleFatalPolicy sampleLosses = some (s, notes) ∧
      s.crew = [.dead, .dead] ∧
      (State.new 2 2).accepted sampleFatalPolicy sampleLosses =
        [sampleJob "a", sampleJob "b", sampleJob "b", sampleJob "c"] ∧
      Pool.verdicts notes = [sampleVerdict "a"] ∧
      deathRecords notes = [deathRecord, deathRecord] ∧
      Casualties sampleFatalPolicy (State.new 2 2) sampleLosses s notes := by
  have hrun : ∃ s notes, (State.new 2 2).run sampleFatalPolicy sampleLosses = some (s, notes) ∧
      s.crew = [.dead, .dead] ∧
      (State.new 2 2).accepted sampleFatalPolicy sampleLosses =
        [sampleJob "a", sampleJob "b", sampleJob "b", sampleJob "c"] ∧
      Pool.verdicts notes = [sampleVerdict "a"] ∧
      deathRecords notes = [deathRecord, deathRecord] :=
    ⟨_, _, rfl, rfl, rfl, rfl, by decide +kernel⟩
  obtain ⟨s, notes, hrun, hcrew, haccepted, hverdicts, hrecords⟩ := hrun
  exact ⟨s, notes, hrun, hcrew, haccepted, hverdicts, hrecords, casualties_of_run hrun⟩

end Conveyor.Moderation.Pool
