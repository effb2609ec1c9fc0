import Conveyor.Proofs.Server.Orders

/-!
# A shutdown comes to an end

Left to itself a server comes to rest: every step takes something of its weight, so only finitely
many follow one another, and after a shutdown was asked for, wherever they end, everything is over.
The main statement is `rest_of_run`.

## The weight

The weight of a server is the weight of its parts and of the stages that its calls have not begun
(`State.weight_eq`). A part that makes a step takes more of it than the calls can give back that go
on for it, since what a stage adds to its part is paid for while the stage is not begun
(`Goes.weight_le`).

## Nobody is kept waiting

When no step of the server is possible, none of a part is. A part at rest has returned every call,
so no call of the server is at a stage of it (`Accounts`). A shutdown is then past its stages, so
the pipeline and the pool are stopped, and parts that are stopped and at rest are finished.
-/

namespace Conveyor.Server

open Moderation Time

/-! ### The weight -/

/-- What a stage that a call has not begun counts, with this number of workers in the pool. -/
def stageWeight (workers : Nat) : Stage → Nat
  | .pipeline _ => 3
  | .moderation _ => workers * 3 + 5

/-- What the stages count that a call has not begun. -/
def stagesWeight (workers : Nat) : List Stage → Nat
  | [] => 0
  | stage :: stages => stageWeight workers stage + stagesWeight workers stages

/-- What the stages count that calls have not begun. -/
def pendingWeight (workers : Nat) : List Pending → Nat
  | [] => 0
  | p :: pending => stagesWeight workers p.rest + pendingWeight workers pending

/-- What the parts count. -/
def State.partsWeight (s : State) : Nat := s.pipeline.weight + s.moderation.weight

section Sums

variable (workers : Nat)

@[simp] theorem stagesWeight_nil : stagesWeight workers [] = 0 := rfl

@[simp] theorem stagesWeight_cons (stage : Stage) (stages : List Stage) :
    stagesWeight workers (stage :: stages) =
      stageWeight workers stage + stagesWeight workers stages :=
  rfl

@[simp] theorem pendingWeight_nil : pendingWeight workers [] = 0 := rfl

@[simp] theorem pendingWeight_cons (p : Pending) (pending : List Pending) :
    pendingWeight workers (p :: pending) =
      stagesWeight workers p.rest + pendingWeight workers pending :=
  rfl

theorem pendingWeight_concat (pending : List Pending) (p : Pending) :
    pendingWeight workers (pending ++ [p]) =
      pendingWeight workers pending + stagesWeight workers p.rest := by
  induction pending with
  | nil => simp
  | cons q pending ih =>
    rw [List.cons_append, pendingWeight_cons, pendingWeight_cons, ih]
    omega

theorem pendingWeight_filter_le (keeps : Pending → Bool) (pending : List Pending) :
    pendingWeight workers (pending.filter keeps) ≤ pendingWeight workers pending := by
  induction pending with
  | nil => simp
  | cons p pending ih =>
    rw [List.filter_cons]
    split <;> simp only [pendingWeight_cons] <;> omega

/-- A call that leaves the others takes what it counts with it. -/
theorem pendingWeight_filter_add_le {pending : List Pending} {p : Pending} (hp : p ∈ pending) :
    pendingWeight workers (pending.filter (·.id != p.id)) + stagesWeight workers p.rest ≤
      pendingWeight workers pending := by
  induction pending with
  | nil => simp at hp
  | cons q pending ih =>
    rw [List.filter_cons]
    rcases List.mem_cons.1 hp with rfl | hp
    · have hrest := pendingWeight_filter_le workers (·.id != p.id) pending
      simp only [bne_self_eq_false, Bool.false_eq_true, if_false, pendingWeight_cons]
      omega
    · have hrest := ih hp
      split <;> simp only [pendingWeight_cons] <;> omega

theorem foldr_stageWeight (stages : List Stage) (n : Nat) :
    stages.foldr (fun stage m ↦ stageWeight workers stage + m) n =
      stagesWeight workers stages + n := by
  induction stages with
  | nil => simp
  | cons stage stages ih =>
    rw [List.foldr_cons, ih, stagesWeight_cons]
    omega

theorem foldr_pendingWeight (pending : List Pending) :
    pending.foldr (fun c n ↦ c.rest.foldr (fun stage m ↦ stageWeight workers stage + m) n) 0 =
      pendingWeight workers pending := by
  induction pending with
  | nil => rfl
  | cons p pending ih => rw [List.foldr_cons, ih, foldr_stageWeight, pendingWeight_cons]

end Sums

namespace State

/-- A stage counts by the number of workers only. -/
theorem stageWeight_eq (s : State) (stage : Server.Stage) :
    Stage.weight s stage = stageWeight s.moderation.pool.workers stage := by
  cases stage <;> rfl

/-- The weight of a server is that of its parts and of the stages that are not begun. -/
theorem weight_eq (s : State) :
    s.weight = s.partsWeight + pendingWeight s.moderation.pool.workers s.pending := by
  have hparts : s.partsWeight = s.pipeline.queue.length * (s.pipeline.sinks.length + 2) +
      s.pipeline.turns.weight 1 (fun _ ↦ 1) + s.pipeline.task.weight + s.moderation.weight := rfl
  rw [← foldr_pendingWeight, hparts]
  simp only [State.weight, stageWeight_eq]
  cases s.pipeline.task <;> rfl

end State

section Weight

variable {s t : State} {id : Nat} {stage : Stage} {stages : List Stage} {b : PartAction}
  {ids : List Nat} {x : Step} {now : Timestamp} {news : List Note} {new : List Entry}

/-- The number of workers is settled from the start. -/
theorem Acts.workers_eq (hs : Reached s) (h : Acts s b t news) :
    t.moderation.pool.workers = s.moderation.pool.workers := by
  cases h with
  | pipeline => rfl
  | moderation acts =>
    exact (Service.State.change hs.sound.coupled acts).workers_eq hs.sound.coupled

/-- The weight after a part has acted, when no call has gone on yet. -/
theorem Acts.weight_eq (hs : Reached s) (h : Acts s b t news) :
    t.weight = t.partsWeight + pendingWeight s.moderation.pool.workers s.pending := by
  rw [State.weight_eq, h.workers_eq hs, h.pending_eq]

/-- A part that makes a step takes something of the weight. -/
theorem Acts.partsWeight_lt (hs : Reached s) (h : Acts s b t news) (hb : b.IsStep) :
    t.partsWeight < s.partsWeight := by
  cases h with
  | @pipeline a pipeline news acts harmless =>
    cases a with
    | step x =>
      have hless : pipeline.weight < s.pipeline.weight :=
        (hs.coupled.move acts).weight_lt hs.coupled
      exact Nat.add_lt_add_right hless _
    | _ => exact hb.elim
  | @moderation a moderation news acts =>
    cases a with
    | step x now =>
      have hless : moderation.weight < s.moderation.weight :=
        (Service.State.change hs.sound.coupled acts).weight_lt hs.sound.coupled hs.sound.turn
      exact Nat.add_lt_add_left hless _
    | _ => exact hb.elim

/-- A stage adds no more to its part than it counted before. -/
theorem Acts.partsWeight_le (hs : Reached s) (h : Acts s (stage.action id) t news) :
    t.partsWeight ≤ s.partsWeight + stageWeight s.moderation.pool.workers stage := by
  cases stage with
  | pipeline request =>
    cases h with
    | @pipeline _ pipeline _ acts =>
      have hmore : pipeline.weight ≤ s.pipeline.weight + 3 := (hs.coupled.move acts).weight_le
      simp only [State.partsWeight, State.withPipeline, stageWeight]
      omega
  | moderation request =>
    cases h with
    | @moderation _ moderation _ acts =>
      have hmore : moderation.weight ≤ s.moderation.weight +
          (s.moderation.pool.workers * 2 + 3) :=
        (Service.State.change hs.sound.coupled acts).weight_le hs.sound.coupled hs.sound.turn
      simp only [State.partsWeight, stageWeight]
      omega

/-- A call that goes through its stages adds no more than they counted before. -/
theorem Goes.weight_le (hs : Reached s) (h : Goes id s stages t news) :
    t.weight ≤ s.weight + stagesWeight s.moderation.pool.workers stages := by
  induction h with
  | returns => exact Nat.le_add_right _ _
  | waits acts =>
    have hmore := acts.partsWeight_le hs
    rw [State.weight_eq, State.weight_eq, stagesWeight_cons, pendingWeight_concat,
      acts.workers_eq hs, acts.pending_eq]
    simp only [State.partsWeight] at hmore ⊢
    omega
  | @passes s t u stage rest _ _ acts _ _ ih =>
    have hmore := acts.partsWeight_le hs
    have hlater := ih (hs.of_acts acts)
    rw [acts.weight_eq hs, acts.workers_eq hs] at hlater
    rw [State.weight_eq s, stagesWeight_cons]
    omega

/-- Calls that go on add nothing. -/
theorem Proceeds.weight_le (hs : Reached s) (h : Proceeds s ids t news) : t.weight ≤ s.weight := by
  induction h with
  | done => exact Nat.le_refl _
  | skip _ _ ih => exact ih hs
  | @next s t u p ids _ _ waiting goes _ ih =>
    have hs' := hs.with_pending (s.others p.id)
    have hmore := goes.weight_le hs'
    have hlater := ih (hs'.of_goes goes)
    have hleft := pendingWeight_filter_add_le s.moderation.pool.workers waiting
    rw [State.weight_eq { s with pending := s.others p.id }] at hmore
    rw [State.weight_eq s]
    simp only [State.partsWeight, State.others] at hmore ⊢
    omega

/-- Every step takes something of the weight. -/
theorem Change.weight_lt (hs : Reached s) (h : Change s (.step x now) t new) :
    t.weight < s.weight := by
  cases h with
  | step isStep acts proceeds =>
    have hless := acts.partsWeight_lt hs isStep
    have hmore := proceeds.weight_le (hs.of_acts acts)
    rw [acts.weight_eq hs] at hmore
    rw [State.weight_eq s]
    omega

end Weight

/-! ### At rest -/

/-- Nothing is left to do in a server. -/
structure State.IsFinished (s : State) : Prop where
  /-- The pipeline is stopped. -/
  stopped : s.pipeline.lifecycle = .stopped
  /-- No event waits. -/
  queue : s.pipeline.queue = []
  /-- The task of the pipeline has ended, if there was one. -/
  task : s.pipeline.task = .unborn ∨ s.pipeline.task = .ended
  /-- Nothing is left to do in the moderation service. -/
  moderation : s.moderation.IsFinished
  /-- Every call has returned. -/
  pending : s.pending = []

namespace State

variable {s : State}

/-- No step is possible, whatever the time. -/
def AtRest (s : State) : Prop := ∀ x now, s.step now x = none

theorem step_eq_none_of_stepPipeline {x : Pipeline.Step} (h : s.stepPipeline x = none) :
    s.pipeline.step x = none := by
  cases hstep : s.pipeline.step x with
  | none => rfl
  | some p => simp [stepPipeline, hstep] at h

/-- The pipeline of a server at rest is at rest. -/
theorem AtRest.pipeline (hrest : s.AtRest) : s.pipeline.AtRest := by
  intro x
  cases x with
  | pull => exact step_eq_none_of_stepPipeline (hrest .pull .epoch)
  | finish => exact step_eq_none_of_stepPipeline (hrest .finish .epoch)
  | resume => exact step_eq_none_of_stepPipeline (hrest .resume .epoch)
  | reply r =>
    cases htask : s.pipeline.task with
    | calling sinks e sink rest =>
      -- Every sink can answer.
      have hanswer := hrest (.answer .unbuildable) .epoch
      simp only [step, htask] at hanswer
      have hreply := step_eq_none_of_stepPipeline hanswer
      simp only [Pipeline.State.step, htask] at hreply
      split at hreply <;> simp at hreply
    | _ => simp [Pipeline.State.step, htask]

/-- The moderation service of a server at rest is at rest. -/
theorem AtRest.moderation (hrest : s.AtRest) : s.moderation.AtRest s.banned.policy := by
  intro x now
  have hstep := hrest (.moderation x) now
  cases hmoderation : s.moderation.step s.banned.policy now x with
  | none => rfl
  | some p => simp [step, stepModeration, hmoderation] at hstep

end State

section Finished

variable {s t : State} {id : Nat} {as : List Action} {past later : List Entry}

/-- A shutdown whose first stage has returned has come to stop the pool. -/
theorem mem_of_shutdown {done rest : List Stage} {current : Stage}
    (h : Order.stages .shutdown = done ++ current :: rest) (hne : current ≠ .pipeline .stop) :
    .moderation .stopPool ∈ done ++ [current] := by
  rcases done with - | ⟨first, - | ⟨second, done⟩⟩
  · have hfirst := congrArg List.head? h
    simp [Order.stages] at hfirst
    exact absurd hfirst.symm hne
  · simp_all [Order.stages]
  · simp_all [Order.stages]

/-- **At rest after a shutdown.** When no step is possible and a shutdown was asked for, everything
is over and the call has returned. -/
theorem Accounts.finished (hs : Reached s) (h : Accounts as s past []) (hrest : s.AtRest)
    (hissued : .issue id .shutdown ∈ as) : s.IsFinished ∧ .note (.returned id) ∈ past := by
  have hpipeline := hrest.pipeline
  have hcalls := hs.coupled.calls_eq_nil hs.inOrder hpipeline
  have hstopping : s.moderation.pool.Stopping id := by
    cases h.account id .shutdown hissued with
    | @waits done rest current stages only begun has =>
      refine begun (.moderation .stopPool) (mem_of_shutdown stages ?_)
      rintro rfl
      obtain ⟨c, hc, -⟩ := has.resolve_right List.not_mem_nil
      simp [hcalls] at hc
    | returned gone noted begun => exact begun (.moderation .stopPool) (by simp [Order.stages])
  have hfinished := hs.sound.finished hrest.moderation hstopping
  -- No part has a call, so no call is at one of its stages.
  have hnone (i : Nat) (stage : Stage) : ¬s.Has i stage := by
    cases stage with
    | pipeline request =>
      rintro ⟨c, hc, -⟩
      simp [hcalls] at hc
    | moderation request =>
      rintro ⟨p, hp, -⟩
      simp [hfinished.pending] at hp
  have hreturned {i : Nat} {order : Order} (hi : .issue i order ∈ as) :
      (∀ p ∈ s.pending, p.id ≠ i) ∧ .note (.returned i) ∈ past ∧
        ∀ stage ∈ order.stages, s.Begun i stage := by
    cases h.account i order hi with
    | waits stages only begun has => exact absurd (has.resolve_right List.not_mem_nil) (hnone _ _)
    | returned gone noted begun => exact ⟨gone, noted, begun⟩
  obtain ⟨-, hnoted, hbegun⟩ := hreturned hissued
  have hstopped : s.pipeline.lifecycle = .stopped := by
    have hstopping : s.pipeline.Stopping id := hbegun (.pipeline .stop) (by simp [Order.stages])
    exact hstopping.resolve_right (by simp [hcalls])
  obtain ⟨hqueue, hdead⟩ := hs.coupled.finished hpipeline hstopped
  refine ⟨?_, hnoted⟩
  exact {
    stopped := hstopped
    queue := hqueue
    task := by
      cases htask : s.pipeline.task with
      | unborn => exact .inl rfl
      | ended => exact .inr rfl
      | failed => exact absurd htask hs.task_ne_failed
      | _ => simp [htask, Pipeline.Task.isAlive] at hdead
    moderation := hfinished
    pending := by
      refine List.eq_nil_iff_forall_not_mem.2 fun p hp ↦ ?_
      obtain ⟨order, hi⟩ := h.issued p hp
      exact (hreturned hi).1 p hp rfl }

/-! ### Sequences of steps -/

/-- Steps at given times, one after the other. -/
def steps (xs : List (Step × Timestamp)) : List Action := xs.map fun x ↦ .step x.1 x.2

/-- Steps are no calls. -/
theorem callIds_append_steps (as : List Action) (xs : List (Step × Timestamp)) :
    callIds (as ++ steps xs) = callIds as := by
  have hnone : extract Action.callId? (steps xs) = [] := by
    induction xs with
    | nil => rfl
    | cons x xs ih => simpa [steps] using ih
  rw [callIds, extract_append, hnone, List.append_nil]

/-- Every step takes something of the weight. -/
theorem Reached.weight_lt_of_step {x : Step × Timestamp} {new : List Entry} (hs : Reached s)
    (h : s.act (.step x.1 x.2) = some (t, new)) : Reached t ∧ t.weight < s.weight :=
  ⟨hs.of_change (State.change h), (State.change h).weight_lt hs⟩

/-- A sequence of steps takes something of the weight for each of them. -/
theorem Reached.weight_add_le (hs : Reached s) {xs : List (Step × Timestamp)}
    (h : s.run (steps xs) = some (t, later)) : t.weight + xs.length ≤ s.weight :=
  Runs.weight_add_le Reached.weight_lt_of_step (State.run_iff.1 h) hs

/-- Steps can follow one another until none is possible. -/
theorem Reached.exists_atRest (hs : Reached s) :
    ∃ xs t later, s.run (steps xs) = some (t, later) ∧ t.AtRest := by
  obtain ⟨xs, t, later, hruns, hend⟩ := exists_rest State.act Reached.weight_lt_of_step hs
  refine ⟨xs, t, later, State.run_iff.2 hruns, fun x now ↦ ?_⟩
  have hnone := hend (x, now)
  rcases hstep : t.step now x with - | ⟨u, news⟩
  · rfl
  · simp [State.act, hstep] at hnone

end Finished

/-! ### The statement -/

/-- A server, reached by the actions `as` with the history `past`, comes to rest. -/
structure ComesToRest (as : List Action) (s : State) (past : List Entry) : Prop where
  /-- Every step takes something of the weight. -/
  weight_lt : ∀ x now t new, s.step now x = some (t, new) → t.weight < s.weight
  /-- No more steps follow one another than the weight allows. -/
  length_le : ∀ xs t later, s.run (steps xs) = some (t, later) → t.weight + xs.length ≤ s.weight
  /-- Some sequence of steps cannot be continued. -/
  ends : ∃ xs t later, s.run (steps xs) = some (t, later) ∧ t.AtRest
  /-- If a shutdown was asked for, every sequence of steps that cannot be continued ends with
  everything over, and the call has returned. -/
  finished : ∀ id xs t later, .issue id .shutdown ∈ as → s.run (steps xs) = some (t, later) →
    t.AtRest → t.IsFinished ∧ .note (.returned id) ∈ past ++ later

/-- **Shutdown.** After every run, whatever requests were answered, which calls were issued and
which steps have happened, the server comes to rest, under every schedule; and if a shutdown was
asked for, it has finished everything by then. -/
theorem rest_of_run {settings : Settings.Server} {as : List Action} {s : State}
    {past : List Entry} (hrun : (State.new settings).1.run as = some (s, past))
    (hids : (callIds as).Nodup) : ComesToRest as s past := by
  have hnew := Reached.of_new settings
  have hruns := State.run_iff.1 hrun
  have hs := hnew.of_runs hruns
  exact {
    weight_lt := fun x now t new hstep ↦ by
      have hchange : Change s (.step x now) t (new.map .note) :=
        State.change (by simp [State.act, hstep])
      exact hchange.weight_lt hs
    length_le := fun xs t later h ↦ hs.weight_add_le h
    ends := hs.exists_atRest
    finished := fun id xs t later hissued hsteps hrest ↦ by
      have hall := hruns.trans (State.run_iff.1 hsteps)
      have haccounts := Accounts.of_runs hnew rfl hall (by rwa [callIds_append_steps])
      exact haccounts.finished (hnew.of_runs hall) hrest (List.mem_append_left _ hissued) }

/-- A shutdown while the pipeline delivers an event. -/
def sampleShutdown : List Action :=
  [.issue 0 .start, .request (postOfEvent "db" "info") .epoch, .step .pull .epoch,
    .issue 1 .shutdown]

theorem rest_of_run_sample : ∃ s past,
    (State.new smallSettings).1.run sampleShutdown = some (s, past) ∧
      s.pipeline.task.isAlive = true ∧ (callIds sampleShutdown).Nodup ∧
      .issue 1 .shutdown ∈ sampleShutdown ∧ ComesToRest sampleShutdown s past := by
  have hpossible : ((State.new smallSettings).1.run sampleShutdown).any
      (fun p ↦ p.1.pipeline.task.isAlive) = true := by decide +kernel
  obtain ⟨⟨s, past⟩, hrun, halive⟩ := (Option.any_eq_true _ _).1 hpossible
  have hids : (callIds sampleShutdown).Nodup := by decide
  exact ⟨s, past, hrun, halive, hids, by simp [sampleShutdown], rest_of_run hrun hids⟩

end Conveyor.Server
