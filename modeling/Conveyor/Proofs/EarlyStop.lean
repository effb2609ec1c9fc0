import Conveyor.Proofs.Pipeline.Occupancy
import Conveyor.Proofs.Pipeline.Phases
import Conveyor.Proofs.Pool.Barrier
import Conveyor.Proofs.Pool.Phases

/-!
# A stop before the start

A service that is stopped before it was started never works: what it had admitted by then is thrown
away, the log says how much that was, and nothing that is done later changes it. The main statement
is `abandoned_of_early_stop`, for the pipeline and the pool together.

## Once and for all

That a service was stopped before its start can be seen at the state (`StoppedEarly`): it is stopped
and has no task or no crew. The warning about it is there just when this is so, and it counts what was
admitted in the whole history (`Discarded`), since nothing is admitted after a stop.
-/

namespace Conveyor

/-! ### The pipeline -/

namespace Pipeline

variable {σ : Type} {s t : State σ} {a : Action σ} {as : List (Action σ)}
  {notes new : List (Note σ)}

/-- The number of events that were thrown away before the start. -/
@[simp] def Note.discarded? : Note σ → Option Nat
  | stoppedEarly discarded => some discarded
  | _ => none

/-- The numbers of events that were thrown away before the start. -/
abbrev discards (notes : List (Note σ)) : List Nat := extract Note.discarded? notes

@[simp] theorem discards_callNext (e : Event) (rest : List σ) :
    discards (callNext e rest) = [] := by
  cases rest <;> rfl

/-- What the log says about a pipeline that was stopped before its start. -/
def earlyStopText : String := "Log pipeline stopped before it was started"

/-- The record about events that were thrown away before the start. -/
def earlyStopRecord (discarded : Nat) : Record :=
  .warning earlyStopText [("discarded", toString discarded)]

/-- The records of a history about events that were thrown away before the start. -/
def earlyStopRecords (name : σ → String) (notes : List (Note σ)) : List Record :=
  recordsOf (Note.records name) earlyStopText notes

/-- The log has one record for each time that events were thrown away. -/
theorem earlyStopRecords_eq (name : σ → String) (notes : List (Note σ)) :
    earlyStopRecords name notes = (discards notes).map earlyStopRecord := by
  refine recordsOf_eq_map (fun n ↦ ?_) notes
  cases n with
  | replied sink e r => cases r <;> rfl
  | _ => rfl

/-- The pipeline was stopped before its start, and never had a task. -/
def State.StoppedEarly (s : State σ) : Prop := s.lifecycle = .stopped ∧ s.task = .unborn

/-- A pipeline that has a task was not stopped before its start. -/
theorem State.not_stoppedEarly_of_born (h : s.task ≠ .unborn) : ¬s.StoppedEarly :=
  fun hearly ↦ h hearly.2

/-- Events are thrown away once, by the stop before the start, and these are all that were
admitted. -/
abbrev Discarded (s : State σ) (notes : List (Note σ)) : Prop :=
  Once s.StoppedEarly (admitted notes).length (discards notes)

namespace Discarded

/-- An action that admits nothing and throws nothing away. -/
theorem of_quiet (h : Discarded s notes) (hnew : discards new = [] ∧ admitted new = [])
    (hiff : t.StoppedEarly ↔ s.StoppedEarly) : Discarded t (notes ++ new) := by
  rw [Discarded, discards, admitted, extract_append_of_silent hnew.1,
    extract_append_of_silent hnew.2]
  exact h.of_iff hiff

/-- An action that throws nothing away, before and after which there was no such stop. -/
theorem of_not (h : Discarded s notes) (hnew : discards new = []) (hs : ¬s.StoppedEarly)
    (ht : ¬t.StoppedEarly) : Discarded t (notes ++ new) := by
  rw [Discarded, discards, extract_append_of_silent hnew]
  exact Once.of_not h hs ht

/-- Every move keeps account of what was thrown away. -/
theorem of_move (hs : s.Coupled) (hl : Ledger s notes) (h : Discarded s notes)
    (hmove : Move s a t new) : Discarded t (notes ++ new) := by
  have hborn (hborn : s.task ≠ .unborn) : ¬s.StoppedEarly := State.not_stoppedEarly_of_born hborn
  have hopen (hlife : s.lifecycle ≠ .stopped) : ¬s.StoppedEarly := fun hearly ↦ hlife hearly.1
  cases hmove with
  | accept high taken =>
    have hlife : s.lifecycle ≠ .stopped := fun hstopped ↦ hs.admission_ne_ok hstopped taken
    exact h.of_not (by simp) (hopen hlife) (hopen hlife)
  | start begun request created =>
    exact h.of_not (by simp) (hopen (by simp [created])) fun hearly ↦ by simpa using hearly.1
  | close begun request running =>
    have htask : s.task ≠ .unborn := (hs.running running).2.2
    exact h.of_not (by simp) (hborn htask) (State.not_stoppedEarly_of_born htask)
  | @discard a call begun request created =>
    have hadmitted : admitted notes = s.queue := hl.created created
    have hcount : (admitted (notes ++ [.stoppedEarly s.queue.length, .returned call.id])).length =
        s.queue.length := by rw [admitted, extract_append_of_silent rfl, ← hadmitted]
    rw [Discarded, discards, extract_append, hcount]
    exact h.of_now (hopen (by simp [created])) ⟨rfl, (hs.created created).2.2⟩
  | pull idle =>
    exact h.of_not (by simp) (hborn (by simp [idle]))
      (State.not_stoppedEarly_of_born (Task.ne_unborn_of_isAlive (by simp)))
  | reply calling =>
    exact h.of_not (by simp) (hborn (by simp [calling]))
      (State.not_stoppedEarly_of_born (Task.ne_unborn_of_isAlive (by simp)))
  | die calling =>
    exact h.of_not (by simp) (hborn (by simp [calling])) (State.not_stoppedEarly_of_born (by simp))
  | finish idle =>
    exact h.of_not (by simp) (hborn (by simp [idle])) (State.not_stoppedEarly_of_born (by simp))
  | _ => exact h.of_quiet (by simp) Iff.rfl

/-- The account of what was thrown away after a run. -/
theorem of_runs (capacity : Nat) (minLevel : Level)
    (h : Runs State.act (State.new capacity minLevel) as t notes) : Discarded t notes := by
  have hnew : (State.new capacity minLevel : State σ).Coupled := .of_new capacity minLevel
  induction h with
  | refl => exact ⟨fun hearly ↦ by simpa [State.new] using hearly.1, fun _ ↦ rfl⟩
  | tail run act_eq ih =>
    have hs := hnew.of_runs run
    exact ih.of_move hs (Ledger.of_runs capacity minLevel run) (hs.move act_eq)

end Discarded

/-- Only a call of `start` starts a pipeline. -/
theorem Move.issued_of_started (h : Move s a t new) (hstarted : .started ∈ new) :
    ∃ call : Call, call.request = .start ∧ (a = .issue call ∨ call ∈ s.turns.calls) := by
  cases h with
  | @start _ call begun request => exact ⟨call, request, State.mem_calls_of_beginning begun⟩
  | _ => simp at hstarted

/-- A pipeline that was started was asked to. -/
theorem issued_of_started (hs : s.Coupled) (hfree : s.turns.calls = [])
    (h : Runs State.act s as t notes) (hstarted : .started ∈ notes) :
    ∃ id, .issue ⟨id, .start⟩ ∈ as := by
  induction h with
  | refl => exact absurd hstarted List.not_mem_nil
  | @tail as u notes a t new run act_eq ih =>
    rcases List.mem_append.1 hstarted with hbefore | hnow
    · obtain ⟨id, hid⟩ := ih hbefore
      exact ⟨id, List.mem_append_left _ hid⟩
    · obtain ⟨⟨id, _⟩, rfl, hissued⟩ := ((hs.of_runs run).move act_eq).issued_of_started hnow
      refine ⟨id, ?_⟩
      rcases hissued with rfl | hwaits
      · exact List.mem_append_right _ List.mem_cons_self
      · exact List.mem_append_left _ (issue_mem_of_mem_calls hs hfree run _ hwaits)

/-- What is so of the pipeline `start` after a run in which it was stopped before its start, after the
actions `before`. -/
structure Abandoned (name : σ → String) (start : State σ) (before : List (Action σ)) (s : State σ)
    (notes : List (Note σ)) : Prop where
  /-- The pipeline is stopped. -/
  stopped : s.lifecycle = .stopped
  /-- No sink was ever called. -/
  silent : calls notes = []
  /-- A sink comes too late, and changes nothing. -/
  register : ∀ sink, s.register sink = (.error (.closed queueName), s, [])
  /-- An event of at least the minimum level finds the queue closed, and changes nothing. -/
  closed : ∀ e, ¬e.level < start.minLevel →
    s.enqueue e = (.error (.closed queueName), s, [.refused e (.closed queueName)])
  /-- The log has one warning, with the number of events that were accepted before the stop. -/
  warned : earlyStopRecords name notes = [earlyStopRecord (start.accepted before).length]

/-- A pipeline that is stopped before it was started never works. -/
theorem abandoned_of_run (name : σ → String) {capacity : Nat} {minLevel : Level}
    {before after : List (Action σ)} {id : Nat}
    (hrun : (State.new capacity minLevel).run (before ++ .issue ⟨id, .stop⟩ :: after) =
      some (s, notes))
    (hearly : ∀ k, .issue ⟨k, .start⟩ ∉ before) :
    Abandoned name (State.new capacity minLevel) before s notes := by
  have hnew : (State.new capacity minLevel : State σ).Coupled := .of_new capacity minLevel
  have hwhole := State.run_iff.1 hrun
  have hs : s.Coupled := hnew.of_runs hwhole
  rw [List.append_cons] at hwhole
  obtain ⟨t, past, later, hpast, hlater, rfl⟩ := Runs.append_iff.1 hwhole
  have ht : t.Coupled := hnew.of_runs hpast
  have htstopped : t.lifecycle = .stopped :=
    (stopped_iff_of_runs hnew (.of_new capacity minLevel) hpast Lifecycle.noConfusion).2 ⟨id, by simp⟩
  obtain ⟨hstopped, hadmitted, hlate⟩ := ht.stopped_of_runs hlater htstopped
  have hunborn : s.task = .unborn := Classical.byContradiction fun hborn ↦ by
    rcases List.mem_append.1 ((started_mem_iff capacity minLevel hwhole).2 hborn) with hearlier | h
    · obtain ⟨k, hk⟩ := issued_of_started hnew rfl hpast hearlier
      exact hearly k (by simpa using hk)
    · exact hlate h
  have hcount : (State.new capacity minLevel : State σ).accepted before = admitted past := by
    obtain ⟨u, first, rest, hfirst, -, -⟩ := Runs.append_iff.1 hpast
    rw [← accepted_eq hnew hpast, State.accepted, State.accepted, hfirst.collect_concat]
    exact (List.append_nil _).symm
  exact {
    stopped := hstopped
    silent := (Ledger.of_runs capacity minLevel hwhole).unborn hunborn
    register := fun sink ↦ by simp [State.register, hstopped]
    closed := fun e high ↦ by
      rw [← (bounds_of_runs hnew hwhole).2] at high
      rw [State.enqueue, if_neg high, hs.admission_of_stopped hstopped]
    warned := by
      have hdiscarded := (Discarded.of_runs capacity minLevel hwhole).told ⟨hstopped, hunborn⟩
      rw [earlyStopRecords_eq, hdiscarded, hcount, admitted, extract_append_of_silent hadmitted]
      rfl }

end Pipeline

/-! ### The pool -/

namespace Moderation.Pool

variable {policy : Policy} {s t : State} {a : Action} {as : List Action} {notes new : List Note}

/-- The jobs that were thrown away before the start. -/
@[simp] def Note.discarded? : Note → Option (List Job)
  | stoppedEarly discarded => some discarded
  | _ => none

/-- The jobs that were thrown away before the start. -/
abbrev discards (notes : List Note) : List (List Job) := extract Note.discarded? notes

/-- What the log says about a pool that was stopped before its start. -/
def earlyStopText : String := "Worker pool stopped before it was started"

/-- The record about jobs that were thrown away before the start. -/
def earlyStopRecord (discarded : List Job) : Record :=
  .warning earlyStopText [("discarded", toString discarded.length)]

/-- The records of a history about jobs that were thrown away before the start. -/
def earlyStopRecords (notes : List Note) : List Record :=
  recordsOf Note.records earlyStopText notes

/-- The log has one record for each time that jobs were thrown away. -/
theorem earlyStopRecords_eq (notes : List Note) :
    earlyStopRecords notes = (discards notes).map earlyStopRecord := by
  refine recordsOf_eq_map (fun n ↦ ?_) notes
  cases n <;> rfl

/-- A worker that changes makes no difference to whether there is a crew. -/
theorem State.stoppedEarly_setWorker (s : State) (i : Nat) (w : Worker) :
    (s.setWorker i w).StoppedEarly ↔ s.StoppedEarly := by
  simp [State.StoppedEarly, State.setWorker]

/-! What does not come of a pool without a crew -/

/-- A pool without a crew had none before, and nobody did anything in it. -/
theorem Change.of_uncrewed (hs : s.Coupled) (h : Change policy s a t new) (ht : t.crew = []) :
    s.crew = [] ∧ pulled new = [] ∧ outcomes new = [] ∧ kept new = [] := by
  have hnobody {i : Nat} {old w : Worker} (hold : s.crew[i]? = some old) :
      (s.setWorker i w).crew ≠ [] := by
    simpa [State.setWorker] using State.Coupled.crew_ne_nil hold
  cases h with
  | start => simp [Nat.ne_of_gt hs.workers_pos] at ht
  | arrive arriving => exact absurd ht (hnobody arriving)
  | pull first | leave first => exact absurd ht (hnobody (hs.inLine_of_first first))
  | offer busy | drop busy | die busy | dieLast busy => exact absurd ht (hnobody busy)
  | _ => exact ⟨ht, by simp⟩

/-- Nobody does anything in a pool as long as it has no crew. -/
theorem uncrewed_of_runs (hs : s.Coupled) (h : Runs (State.act · policy) s as t notes)
    (ht : t.crew = []) : pulled notes = [] ∧ outcomes notes = [] ∧ kept notes = [] := by
  induction h with
  | refl => exact ⟨rfl, rfl, rfl⟩
  | tail run act_eq ih =>
    have hu := hs.of_runs run
    obtain ⟨hcrew, hpulled, houtcomes, hkept⟩ := (hu.change act_eq).of_uncrewed hu ht
    obtain ⟨ihpulled, ihoutcomes, ihkept⟩ := ih hcrew
    exact ⟨by simp [ihpulled, hpulled], by simp [ihoutcomes, houtcomes], by simp [ihkept, hkept]⟩

/-- A pool gets its crew from a call of `start`. -/
theorem Change.issued_of_crewed (h : Change policy s a t new) (ht : t.crew ≠ []) :
    s.crew ≠ [] ∨
      ∃ call : Call, call.request = .start ∧ (a = .issue call ∨ call ∈ s.turns.calls) := by
  cases h with
  | @start _ call begun request =>
    exact .inr ⟨call, request, State.mem_calls_of_beginning begun⟩
  | arrive | pull | leave | offer | drop | die | dieLast =>
    exact .inl (by simpa [State.setWorker] using ht)
  | _ => exact .inl ht

/-- A pool that has a crew was asked to start. -/
theorem issued_of_crewed (hs : s.Coupled) (hfree : s.turns.calls = []) (hcrew : s.crew = [])
    (h : Runs (State.act · policy) s as t notes) (ht : t.crew ≠ []) :
    ∃ id, .issue ⟨id, .start⟩ ∈ as := by
  induction h with
  | refl => exact absurd hcrew ht
  | @tail as u notes a t new run act_eq ih =>
    rcases ((hs.of_runs run).change act_eq).issued_of_crewed ht with hbefore | ⟨⟨id, _⟩, rfl, hnow⟩
    · obtain ⟨id, hid⟩ := ih hbefore
      exact ⟨id, List.mem_append_left _ hid⟩
    · refine ⟨id, ?_⟩
      rcases hnow with rfl | hwaits
      · exact List.mem_append_right _ List.mem_cons_self
      · exact List.mem_append_left _ (issue_mem_of_mem_calls hs hfree run _ hwaits)

/-- A pool that was stopped before its start stays so, and admits nothing. -/
theorem Change.of_stoppedEarly (hs : s.Coupled) (h : Change policy s a t new)
    (hearly : s.StoppedEarly) : t.StoppedEarly ∧ admitted new = [] := by
  cases h with
  | accept taken => exact absurd taken (hs.admission_ne_ok hearly.1)
  | start _ _ created | discard _ _ created => simp [hearly.1] at created
  | close _ _ running => simp [hearly.1] at running
  | arrive | pull | leave | offer | drop | die | dieLast =>
    exact ⟨(State.stoppedEarly_setWorker s _ _).2 hearly, by simp⟩
  | _ => exact ⟨hearly, by simp⟩

/-- What is so of a pool that was stopped before its start after every run. -/
theorem State.Coupled.stoppedEarly_of_runs (hs : s.Coupled)
    (h : Runs (State.act · policy) s as t notes) (hearly : s.StoppedEarly) :
    t.StoppedEarly ∧ admitted notes = [] := by
  refine hs.runs_induction h (motive := fun _ t notes ↦ t.StoppedEarly ∧ admitted notes = [])
    ⟨hearly, rfl⟩ ?_
  rintro as t notes a u new ht hchange ⟨ihearly, ihadmitted⟩
  obtain ⟨hearly, hadmitted⟩ := hchange.of_stoppedEarly ht ihearly
  exact ⟨hearly, by simp [ihadmitted, hadmitted]⟩

/-- Before the start every admitted job is in the queue. -/
theorem admitted_of_created (workers capacity : Nat)
    (h : Runs (State.act · policy) (State.new workers capacity) as t notes)
    (hcreated : t.lifecycle = .created) : admitted notes = t.queue := by
  have hnew : (State.new workers capacity).Coupled := .of_new workers capacity
  have hcrew : t.crew = [] := ((hnew.of_runs h).created hcreated).2.2.2
  obtain ⟨front, lost, hintake⟩ := Intake.of_runs hnew rfl h
  have hfront : front = [] := by
    have hlength := congrArg List.length hintake.pulled
    rw [(uncrewed_of_runs hnew h hcrew).1, List.length_zipWith, ← hintake.times,
      Nat.min_self] at hlength
    exact List.eq_nil_of_length_eq_zero hlength.symm
  have hlost : lost = [] := by
    refine hintake.lossless ⟨fun hearly ↦ ?_, fun h ↦ absurd hcrew h⟩
    simpa [hcreated] using hearly.1
  rw [hintake.admitted, hfront, hlost, List.nil_append, List.append_nil]

/-- Jobs are thrown away once, by the stop before the start, and these are all that were admitted. -/
abbrev Discarded (s : State) (notes : List Note) : Prop :=
  Once s.StoppedEarly (admitted notes) (discards notes)

namespace Discarded

/-- An action that admits nothing and throws nothing away. -/
theorem of_quiet (h : Discarded s notes) (hnew : discards new = [] ∧ admitted new = [])
    (hiff : t.StoppedEarly ↔ s.StoppedEarly) : Discarded t (notes ++ new) := by
  rw [Discarded, discards, admitted, extract_append_of_silent hnew.1,
    extract_append_of_silent hnew.2]
  exact h.of_iff hiff

/-- An action that throws nothing away, before and after which there was no such stop. -/
theorem of_not (h : Discarded s notes) (hnew : discards new = []) (hs : ¬s.StoppedEarly)
    (ht : ¬t.StoppedEarly) : Discarded t (notes ++ new) := by
  rw [Discarded, discards, extract_append_of_silent hnew]
  exact Once.of_not h hs ht

/-- Every change keeps account of what was thrown away, where before the start all that was admitted
is in the queue. -/
theorem of_change (hs : s.Coupled) (hqueue : s.lifecycle = .created → admitted notes = s.queue)
    (h : Discarded s notes) (hchange : Change policy s a t new) : Discarded t (notes ++ new) := by
  have hopen (hlife : s.lifecycle ≠ .stopped) : ¬s.StoppedEarly := fun hearly ↦ hlife hearly.1
  cases hchange with
  | accept taken =>
    have hlife : s.lifecycle ≠ .stopped := fun hstopped ↦ hs.admission_ne_ok hstopped taken
    exact h.of_not (by simp) (hopen hlife) (hopen hlife)
  | start begun request created =>
    exact h.of_not (by simp) (hopen (by simp [created])) fun hearly ↦ by simpa using hearly.1
  | close begun request running =>
    have hcrew : s.crew ≠ [] := (hs.running running).2.2.2
    exact h.of_not (by simp) (hopen (by simp [running])) fun hearly ↦ hcrew hearly.2
  | @discard a call begun request created =>
    have hadmitted : admitted (notes ++ [.stoppedEarly s.queue, .returned call.id]) = s.queue := by
      rw [admitted, extract_append_of_silent rfl, ← hqueue created]
    rw [Discarded, discards, extract_append, hadmitted]
    exact h.of_now (hopen (by simp [created])) ⟨rfl, (hs.created created).2.2.2⟩
  | arrive | pull | leave | offer | drop | die | dieLast =>
    exact h.of_quiet (by simp) (State.stoppedEarly_setWorker s _ _)
  | _ => exact h.of_quiet (by simp) Iff.rfl

/-- The account of what was thrown away after a run. -/
theorem of_runs (workers capacity : Nat)
    (h : Runs (State.act · policy) (State.new workers capacity) as t notes) :
    Discarded t notes := by
  have hnew : (State.new workers capacity).Coupled := .of_new workers capacity
  induction h with
  | refl => exact ⟨fun hearly ↦ by simpa [State.new] using hearly.1, fun _ ↦ rfl⟩
  | tail run act_eq ih =>
    have hs := hnew.of_runs run
    exact ih.of_change hs (admitted_of_created workers capacity run) (hs.change act_eq)

end Discarded

/-- What is so of the pool `start` after the run `as` in which it was stopped before its start, after
the actions `before`. -/
structure Abandoned (policy : Policy) (start : State) (before as : List Action) (s : State)
    (notes : List Note) : Prop where
  /-- The pool is stopped. -/
  stopped : s.lifecycle = .stopped
  /-- No job was ever judged. -/
  idle : start.judgements policy as = []
  /-- The reader never got a verdict. -/
  unread : start.collected policy as = []
  /-- Whoever has the receiving end of the channel is told that it is closed. -/
  ended : s.reader = .taken → s.receive = (.closed, s, [])
  /-- A job finds the queue closed, and changes nothing. -/
  closed : ∀ j, s.enqueue j = (.error (.closed queueName), s, [.refused j (.closed queueName)])
  /-- The log has one warning, with the number of jobs that were accepted before the stop. -/
  warned : earlyStopRecords notes = [earlyStopRecord (start.accepted policy before)]

/-- A pool that is stopped before it was started never works. -/
theorem abandoned_of_run {workers capacity : Nat} {before after : List Action} {id : Nat}
    (hrun : (State.new workers capacity).run policy (before ++ .issue ⟨id, .stop⟩ :: after) =
      some (s, notes))
    (hearly : ∀ k, .issue ⟨k, .start⟩ ∉ before) :
    Abandoned policy (State.new workers capacity) before (before ++ .issue ⟨id, .stop⟩ :: after) s
      notes := by
  have hnew : (State.new workers capacity).Coupled := .of_new workers capacity
  rw [List.append_cons] at hrun ⊢
  have hwhole := State.run_iff.1 hrun
  have hs : s.Coupled := hnew.of_runs hwhole
  obtain ⟨t, past, later, hpast, hlater, rfl⟩ := Runs.append_iff.1 hwhole
  have ht : t.StoppedEarly := by
    refine ⟨(stopped_iff_of_runs hnew (.of_new workers capacity) hpast Lifecycle.noConfusion).2
      ⟨id, by simp⟩, Classical.byContradiction fun hcrew ↦ ?_⟩
    obtain ⟨k, hk⟩ := issued_of_crewed hnew rfl rfl hpast hcrew
    exact hearly k (by simpa using hk)
  obtain ⟨⟨hstopped, hcrew⟩, hadmitted⟩ := (hnew.of_runs hpast).stoppedEarly_of_runs hlater ht
  obtain ⟨-, houtcomes, hkept⟩ := uncrewed_of_runs hnew hwhole hcrew
  have houtlet := Outlet.of_runs hnew rfl hwhole
  obtain ⟨⟨hreceived, -⟩, hchannel⟩ :
      (received (past ++ later) = [] ∧ thrown (past ++ later) = []) ∧ s.channel = [] := by
    simpa only [hkept, List.nil_eq, List.append_eq_nil_iff] using houtlet.kept
  have hcount : (State.new workers capacity).accepted policy before = admitted past := by
    obtain ⟨u, first, rest, hfirst, -, -⟩ := Runs.append_iff.1 hpast
    rw [← accepted_eq hnew hpast, State.accepted, State.accepted, hfirst.collect_concat]
    exact (List.append_nil _).symm
  exact {
    stopped := hstopped
    idle := by
      have hjudged := (Bench.of_runs hnew (fun _ ↦ rfl) hwhole).outcomes
      rw [houtcomes] at hjudged
      exact List.map_eq_nil_iff.1 hjudged.symm
    unread := (collected_eq hnew hwhole).trans hreceived
    ended := fun htaken ↦ by
      have hends : s.sends = false := by
        rcases hs.draining hstopped with ⟨call, i, hheld⟩ | houtlet
        · exact absurd hcrew (hs.held call i hheld).2.2.2.1
        · simp [State.sends, State.isManned, houtlet, hcrew]
      simp [State.receive, htaken, hchannel, hends]
    closed := fun j ↦ by rw [State.enqueue, hs.admission_of_stopped hstopped]
    warned := by
      have hdiscarded := (Discarded.of_runs workers capacity hwhole).told ⟨hstopped, hcrew⟩
      rw [earlyStopRecords_eq, hdiscarded, hcount, admitted, extract_append_of_silent hadmitted]
      rfl }

end Moderation.Pool

/-! ### The statement -/

/-- **Stop before the start.** In a run of a new pipeline in which a call of `stop` is issued before
any call of `start`, and of a new pool likewise, nothing is ever delivered or judged, whatever is done
after it. What was accepted by then is all there is to be thrown away, and the log says once how much
it was. -/
theorem abandoned_of_early_stop {σ : Type} (name : σ → String) (policy : Moderation.Policy) :
    (∀ (capacity : Nat) (minLevel : Level) (before after : List (Pipeline.Action σ)) (id : Nat)
        (s : Pipeline.State σ) (notes : List (Pipeline.Note σ)),
      (Pipeline.State.new capacity minLevel).run (before ++ .issue ⟨id, .stop⟩ :: after) =
          some (s, notes) →
        (∀ k, .issue ⟨k, .start⟩ ∉ before) →
          Pipeline.Abandoned name (.new capacity minLevel) before s notes) ∧
    ∀ (workers capacity : Nat) (before after : List Moderation.Pool.Action) (id : Nat)
        (s : Moderation.Pool.State) (notes : List Moderation.Pool.Note),
      (Moderation.Pool.State.new workers capacity).run policy
          (before ++ .issue ⟨id, .stop⟩ :: after) = some (s, notes) →
        (∀ k, .issue ⟨k, .start⟩ ∉ before) →
          Moderation.Pool.Abandoned policy (.new workers capacity) before
            (before ++ .issue ⟨id, .stop⟩ :: after) s notes :=
  ⟨fun _ _ _ _ _ _ _ hrun hearly ↦ Pipeline.abandoned_of_run name hrun hearly,
    fun _ _ _ _ _ _ _ hrun hearly ↦ Moderation.Pool.abandoned_of_run hrun hearly⟩

/-- What is done at a pipeline before it is stopped: of three events one is left out. -/
def sampleAdmitted : List (Pipeline.Action Nat) :=
  [.register 0, .enqueue (Pipeline.sampleEvent .info "a"),
    .enqueue (Pipeline.sampleEvent .debug "b"), .enqueue (Pipeline.sampleEvent .warn "c")]

/-- What is done at a pool before it is stopped: of two jobs one finds the queue full. -/
def sampleOffered : List Moderation.Pool.Action :=
  [.enqueue (Moderation.Pool.sampleJob "a"), .takeResults, .receive,
    .enqueue (Moderation.Pool.sampleJob "b")]

theorem abandoned_of_early_stop_sample :
    (∃ s notes, (Pipeline.State.new 4 .info).run (sampleAdmitted ++ .issue ⟨0, .stop⟩ ::
        [.issue ⟨1, .start⟩, .register 1, .issue ⟨2, .stop⟩]) = some (s, notes) ∧
      Pipeline.earlyStopRecords toString notes =
        [.warning "Log pipeline stopped before it was started" [("discarded", "2")]] ∧
      Pipeline.Abandoned toString (.new 4 .info) sampleAdmitted s notes) ∧
    ∃ s notes, (Moderation.Pool.State.new 2 1).run Moderation.Pool.samplePolicy
        (sampleOffered ++ .issue ⟨0, .stop⟩ :: [.issue ⟨1, .start⟩, .receive]) = some (s, notes) ∧
      s.reader = .taken ∧
      Moderation.Pool.earlyStopRecords notes =
        [.warning "Worker pool stopped before it was started" [("discarded", "1")]] ∧
      Moderation.Pool.Abandoned Moderation.Pool.samplePolicy (.new 2 1) sampleOffered
        (sampleOffered ++ .issue ⟨0, .stop⟩ :: [.issue ⟨1, .start⟩, .receive]) s notes := by
  have hpipeline : ∃ s notes, (Pipeline.State.new 4 .info).run (sampleAdmitted ++ .issue ⟨0, .stop⟩ ::
        [.issue ⟨1, .start⟩, .register 1, .issue ⟨2, .stop⟩]) = some (s, notes) ∧
      Pipeline.earlyStopRecords toString notes =
        [.warning "Log pipeline stopped before it was started" [("discarded", "2")]] :=
    ⟨_, _, rfl, by decide +kernel⟩
  have hpool : ∃ s notes, (Moderation.Pool.State.new 2 1).run Moderation.Pool.samplePolicy
        (sampleOffered ++ .issue ⟨0, .stop⟩ :: [.issue ⟨1, .start⟩, .receive]) = some (s, notes) ∧
      s.reader = .taken ∧ Moderation.Pool.earlyStopRecords notes =
        [.warning "Worker pool stopped before it was started" [("discarded", "1")]] :=
    ⟨_, _, rfl, rfl, by decide +kernel⟩
  obtain ⟨s, notes, hrun, hrecords⟩ := hpipeline
  obtain ⟨s', notes', hrun', hreader, hrecords'⟩ := hpool
  obtain ⟨habandoned, habandoned'⟩ :=
    abandoned_of_early_stop (toString : Nat → String) Moderation.Pool.samplePolicy
  exact ⟨⟨s, notes, hrun, hrecords, habandoned _ _ _ _ _ _ _ hrun (by simp [sampleAdmitted])⟩,
    ⟨s', notes', hrun', hreader, hrecords',
      habandoned' _ _ _ _ _ _ _ hrun' (by simp [sampleOffered])⟩⟩

end Conveyor
